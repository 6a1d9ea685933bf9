import Kconfig.FileSystem.Snapshot
import Kconfig.Proofs.Located
import Kconfig.Proofs.Reachable

/-!
# Outcomes

How reading a tree can end. In every state of a run each open file is at one of its lines, or in
front of its first line as long as nothing has been read of it, and every frame was opened in one of
the open files. A step keeps this, and it fails only for one of the reasons of `Context.Regular` or
because a comment refuses a directive. -/

namespace Kconfig

/-- The keywords that comments know only to refuse them. -/
def refusedInComments : List String :=
  ["bool", "boolean", "tristate", "string", "int", "hex", "def_bool", "def_tristate", "default",
    "help", "---help---", "option", "select", "imply", "range"]

lemma mem_refusedInComments {word : String} {directive : DirectiveKind}
    (h : DirectiveKind.ofKeyword? word = some directive)
    (hknown : directive.isKnownIn .comment = true) (hfor : directive.isFor .comment = false) :
    word ∈ refusedInComments := by
  unfold DirectiveKind.ofKeyword? at h
  split at h
  all_goals cases h
  all_goals first | decide | exact absurd hknown (by decide) | cases hfor

lemma DirectiveKind.isFor_of_isKnownIn {directive : DirectiveKind} {kind : EntryKind}
    (hkind : kind ≠ .comment) (h : directive.isKnownIn kind = true) :
    directive.isFor kind = true := by
  cases kind with
  | comment => exact absurd rfl hkind
  | menu =>
    cases directive with
    | depends => rfl
    | _ => cases h
  | _ => exact h

namespace Context

@[simp]
lemma environment_setSymbol (ctx : Context) (e : Entry) :
    (ctx.setSymbol e).environment = ctx.environment := by
  unfold setSymbol
  split <;> rfl

@[simp]
lemma environment_define (ctx : Context) (e : Entry) :
    (ctx.define e).environment = ctx.environment := by
  unfold define
  split
  · rfl
  · rw [environment_setSymbol]
    rfl

end Context

namespace State

open Context

/-- The open files and the frames of a state are as they should be. -/
structure Sound (fs : FileSystem) (settings : Settings) (s : State) : Prop where
  root : s.ctx.root = settings.root
  environment : s.ctx.environment = settings.environment
  files : s.ctx.Sound fs
  values : ∀ frame ∈ s.frame :: s.outer, frame.entry.EnvFrom settings.environment
  inside : ∀ frame ∈ s.frame :: s.outer, 0 < frame.depth
  /-- No frame has begun with more files open than the frames in it. -/
  depths : (s.ctx.depth :: (s.frame :: s.outer).map (·.depth)).Pairwise (· ≥ ·)
  /-- At the end of a file of which nothing has been read no block is open that began in it. -/
  started : s.ctx.Ready fs ∨ s.frame.depth < s.ctx.depth ∨
    (s.outer = [] ∧ s.frame.isTop = true ∧ s.frame.entry.kind = .menu ∧ s.ctx.scope = [])

def Refuses (s : State) (fault : Fault) : Prop :=
  ∃ word location, fault = .misuse (.notValid word .comment location) ∧
    s.frame.entry.kind = .comment ∧ s.ctx.wordAhead = some word ∧ word ∈ refusedInComments

def Expects (fs : FileSystem) (s : State) (fault : Fault) : Prop :=
  s.ctx.Regular fs fault ∨ s.Refuses fault

end State

def Progress.Sound (fs : FileSystem) (settings : Settings) : Progress → Prop
  | .running s => s.Sound fs settings
  | .finished _ _ => True

namespace State

open Context

variable {fs : FileSystem} {settings : Settings} {s : State} {ctx : Context} {token : Token}
  {word : String}

lemma Sound.goOn (h : s.Sound fs settings) (hctx : Steady fs s.ctx ctx) :
    (s.goOn ctx).Sound fs settings where
  root := hctx.root.trans h.root
  environment := hctx.environment.trans h.environment
  files := hctx.ready.toSound
  values := h.values
  inside := h.inside
  depths := by
    rw [hctx.depth]
    exact h.depths
  started := .inl hctx.ready

lemma Sound.update {e : Entry} (h : s.Sound fs settings) (hctx : Steady fs s.ctx ctx)
    (he : e.EnvFrom settings.environment) : (s.update (e, ctx)).Sound fs settings where
  root := hctx.root.trans h.root
  environment := hctx.environment.trans h.environment
  files := hctx.ready.toSound
  values := by
    have hvalues := List.forall_mem_cons.1 h.values
    exact List.forall_mem_cons.2 ⟨he, hvalues.2⟩
  inside := by
    have hinside := List.forall_mem_cons.1 h.inside
    exact List.forall_mem_cons.2 hinside
  depths := by
    rw [hctx.depth]
    exact h.depths
  started := .inl hctx.ready

lemma Sound.enter (h : s.Sound fs settings) (hctx : Enters fs s.ctx ctx) :
    (s.goOn ctx).Sound fs settings := by
  obtain ⟨name, hnames⟩ := hctx.names
  have hdepth : ctx.depth = s.ctx.depth + 1 := by
    rw [depth_eq_length, depth_eq_length, hnames, List.length_cons]
  obtain ⟨hle, hframes⟩ := List.pairwise_cons.1 h.depths
  refine ⟨hctx.root.trans h.root, hctx.environment.trans h.environment, hctx.sound, h.values,
    h.inside, List.pairwise_cons.2 ⟨?_, hframes⟩, .inr (.inl ?_)⟩
  · intro depth hmem
    have := hle depth hmem
    dsimp only
    omega
  · have := hle s.frame.depth List.mem_cons_self
    dsimp only
    omega

/-- A frame that is opened has begun in the file that is read. -/
structure Begins (fs : FileSystem) (a : Context) (opened : Frame × Context) : Prop where
  steady : Steady fs a opened.2
  depth : opened.1.depth = a.depth
  value : opened.1.entry.EnvFrom a.environment

lemma Sound.descend {opened : Frame × Context} (h : s.Sound fs settings)
    (hopened : Begins fs s.ctx opened) : (s.descend opened).Sound fs settings := by
  have hctx := hopened.steady
  obtain ⟨hle, hframes⟩ := List.pairwise_cons.1 h.depths
  have hpos : 0 < s.ctx.depth := List.length_pos_iff.2 h.files.nonempty
  refine ⟨hctx.root.trans h.root, hctx.environment.trans h.environment, hctx.ready.toSound,
    List.forall_mem_cons.2 ⟨?_, h.values⟩, List.forall_mem_cons.2 ⟨?_, h.inside⟩, ?_,
    .inl hctx.ready⟩
  · rw [← h.environment]
    exact hopened.value
  · rw [hopened.depth]
    exact hpos
  · rw [List.map_cons, hctx.depth, hopened.depth]
    refine List.pairwise_cons.2 ⟨?_, h.depths⟩
    exact List.forall_mem_cons.2 ⟨le_refl _, hle⟩

lemma Sound.close (h : s.Sound fs settings) (hroot : ctx.root = s.ctx.root)
    (henvironment : ctx.environment = s.ctx.environment) (hdepth : ctx.depth = s.ctx.depth)
    (hfiles : ctx.Sound fs)
    (hstarted : ctx.Ready fs ∨ s.frame.depth < ctx.depth ∨ s.outer = []) :
    (s.close ctx).Sound fs settings := by
  have hvalues := List.forall_mem_cons.1 h.values
  have hfinish : (s.frame.entry.finish s.frame.scope).EnvFrom ctx.environment := by
    rw [henvironment, h.environment]
    exact hvalues.1.congr (Entry.env?_finish _ _)
  unfold State.close
  dsimp only
  split
  · exact True.intro
  · rename_i frame outer houter
    have hdepths := h.depths
    have hinside := h.inside
    rw [houter] at hvalues hdepths hinside hstarted
    rw [List.map_cons, List.map_cons] at hdepths
    obtain ⟨hle, hframes⟩ := List.pairwise_cons.1 hdepths
    have houterFrames := (List.pairwise_cons.1 hframes)
    -- Registering the entry changes the symbol table alone, so the cases below differ only in the
    -- context `b`.
    have hclosed : ∀ b : Context, b.Sound fs → b.root = ctx.root →
        b.environment = ctx.environment → b.files = ctx.files →
        State.Sound fs settings
          { ctx := b
            frame := frame.withEntry
              (frame.entry.addChild (s.frame.entry.finish s.frame.scope))
            outer } := by
      intro b hb hbroot hbenvironment hbfiles
      have hbdepth : b.depth = s.ctx.depth := by
        rw [← hdepth, depth, depth, hbfiles]
      refine ⟨hbroot.trans (hroot.trans h.root),
        hbenvironment.trans (henvironment.trans h.environment), hb, ?_, ?_, ?_, ?_⟩
      · have houterValues := List.forall_mem_cons.1 hvalues.2
        refine List.forall_mem_cons.2 ⟨?_, houterValues.2⟩
        exact houterValues.1.congr (Entry.env?_addChild _ _)
      · have houterInside := List.forall_mem_cons.1 (List.forall_mem_cons.1 hinside).2
        exact List.forall_mem_cons.2 houterInside
      · rw [hbdepth]
        refine List.pairwise_cons.2 ⟨?_, houterFrames.2⟩
        exact fun depth hmem => hle depth (List.mem_cons_of_mem _ hmem)
      · rcases hstarted with hready | hdeep | hnil
        · refine .inl ⟨hb, ?_⟩
          rw [hbfiles]
          exact hready.started
        · -- The frame around began with at most as many files open as the one that is closed.
          have hframe := houterFrames.1 frame.depth List.mem_cons_self
          refine .inr (.inl ?_)
          change frame.depth < b.depth
          omega
        · cases hnil
    split
    · exact hclosed _ (hfiles.setSymbol hfinish) (root_setSymbol _ _)
        (environment_setSymbol _ _) (files_setSymbol _ _)
    · exact hclosed _ (hfiles.define hfinish) (root_define _ _) (environment_define _ _)
        (files_define _ _)
    · exact hclosed _ hfiles rfl rfl rfl

lemma ensures_of_steady {α : Type} {x : Except Fault α} {Q : α → Prop} (hctx : Steady fs s.ctx ctx)
    (hx : Ensures (Regular fs ctx) Q x) : Ensures (s.Expects fs) Q x :=
  hx.mono (fun _ hfault => .inl (.of_steady hctx hfault)) fun _ => id

lemma expects_malformed (hctx : Steady fs s.ctx ctx) (problem : Problem) :
    s.Expects fs (ctx.malformed problem) :=
  .inl (.of_steady hctx (hctx.ready.regular_malformed problem))

lemma next_ensures (hctx : Steady fs s.ctx ctx) :
    Ensures (s.Expects fs) (fun r => Delivers fs ctx r.1 r.2 ∧ Steady fs s.ctx r.2) ctx.next := by
  refine ensures_of_steady hctx ((next_delivers hctx.ready.toSound).mono ?_ ?_)
  · exact fun _ => .of_unreadable
  · intro r hdelivers
    exact ⟨hdelivers, hctx.trans (hdelivers.steady (hdelivers.ready (.inl hctx.ready)))⟩

lemma steady_step {x : Except Fault Context} (h : s.Sound fs settings) (hctx : Steady fs s.ctx ctx)
    (hx : Ensures (Regular fs ctx) (Steady fs ctx) x) :
    Ensures (s.Expects fs) (Progress.Sound fs settings) (do return s.goOn (← x)) := by
  refine (ensures_of_steady hctx hx).bind ?_
  exact fun b _ hb => h.goOn (hctx.trans hb)

lemma readDirective_ensures {kind : DirectiveKind} {keyword : String} {e : Entry}
    (h : s.Sound fs settings) (hctx : Steady fs s.ctx ctx) (hfor : kind.isFor e.kind = true)
    (he : e.EnvFrom settings.environment) :
    Ensures (s.Expects fs)
      (fun r => Steady fs s.ctx r.2 ∧ r.1.EnvFrom settings.environment)
      (ctx.readDirective kind keyword e) := by
  have hread : Ensures _ _ (ctx.readDirective kind keyword e) :=
    ensures_of_steady hctx (readDirective_steady hfor hctx.ready)
  cases hresult : ctx.readDirective kind keyword e with
  | error fault =>
    rw [hresult] at hread
    exact hread
  | ok r =>
    rw [hresult] at hread
    obtain ⟨d, site, slips, -, happly, -⟩ := readDirective_eq_ok hresult
    refine ⟨hctx.trans hread, ?_⟩
    rw [happly, hctx.environment, h.environment]
    exact Directive.envFrom_apply site slips d he

lemma stepDirective_ensures (h : s.Sound fs settings) (hctx : Steady fs s.ctx ctx)
    (hword : s.ctx.wordAhead = some word) :
    Ensures (s.Expects fs) (Progress.Sound fs settings) (s.stepDirective ctx word) := by
  unfold stepDirective
  dsimp only
  cases hkeyword : DirectiveKind.ofKeyword? word with
  | none => exact steady_step h hctx (unrecognized_steady _ word hctx.ready)
  | some directive =>
    dsimp only
    by_cases hknown : directive.isKnownIn s.frame.entry.kind = true
    · rw [if_pos hknown]
      by_cases hfor : directive.isFor s.frame.entry.kind = true
      · refine (readDirective_ensures h hctx hfor
          (List.forall_mem_cons.1 h.values).1).bind ?_
        exact fun r _ hr => h.update hr.1 hr.2
      · -- Only comments know directives that they do not have.
        have hkind : s.frame.entry.kind = .comment := by
          by_contra hkind
          exact hfor (DirectiveKind.isFor_of_isKnownIn hkind hknown)
        obtain ⟨location, hlocation⟩ := hctx.ready.toSound.location
        rw [hkind] at hknown hfor
        unfold readDirective
        rw [hkind, Bool.eq_false_iff.2 hfor, Bool.not_false, if_pos rfl]
        refine Ensures.bind (Ensures.ok_bind hlocation ?_) fun r _ hr => hr
        refine .inr ⟨word, location, rfl, hkind, hword, ?_⟩
        exact mem_refusedInComments hkeyword hknown (Bool.eq_false_iff.2 hfor)
    · rw [if_neg hknown]
      exact steady_step h hctx (unrecognized_steady _ word hctx.ready)

lemma openConfig_ensures (hctx : Steady fs s.ctx ctx) (isMenu : Bool) :
    Ensures (s.Expects fs) (Begins fs s.ctx) (Frame.openConfig ctx isMenu word) := by
  obtain ⟨location, hlocation⟩ := hctx.ready.toSound.location
  refine Ensures.ok_bind hlocation ((next_ensures hctx).bind ?_)
  rintro ⟨token, b⟩ - ⟨-, hb⟩
  dsimp only
  split
  · exact expects_malformed hb _
  · rename_i symbol hsymbol
    have hentry : (Entry.config { head := { location, symbol := some symbol }, isMenu }).EnvFrom
        b.environment := Entry.EnvFrom.of_none rfl
    refine ⟨?_, hb.depth, Entry.EnvFrom.of_none rfl⟩
    refine ⟨?_, ?_, ?_, hb.ready.toSound.define hentry, ?_⟩
    · exact (root_define _ _).trans hb.root
    · exact (environment_define _ _).trans hb.environment
    · rw [fileNames, files_define]
      exact hb.names
    · rw [files_define]
      exact hb.ready.started

lemma openPrompted_ensures {keyword : String} {e : Entry} (h : s.Sound fs settings)
    (hctx : Steady fs s.ctx ctx) (he : e.env? = none) :
    Ensures (s.Expects fs) (Begins fs s.ctx)
      (do
        let (entry, b) ← ctx.readDirective .prompt keyword e
        return ({ entry, scope := b.scope, depth := b.depth }, b)) := by
  refine (readDirective_ensures h hctx rfl (.of_none he)).bind ?_
  rintro ⟨entry, b⟩ - ⟨hb, hentry⟩
  refine ⟨hb, hb.depth, ?_⟩
  rw [h.environment]
  exact hentry

lemma openComment_ensures (h : s.Sound fs settings) (hctx : Steady fs s.ctx ctx) :
    Ensures (s.Expects fs) (Begins fs s.ctx) (Frame.openComment ctx) := by
  obtain ⟨location, hlocation⟩ := hctx.ready.toSound.location
  refine Ensures.ok_bind hlocation ?_
  exact openPrompted_ensures h hctx rfl

lemma openMenu_ensures (h : s.Sound fs settings) (hctx : Steady fs s.ctx ctx) :
    Ensures (s.Expects fs) (Begins fs s.ctx) (Frame.openMenu ctx) := by
  obtain ⟨location, hlocation⟩ := hctx.ready.toSound.location
  refine Ensures.ok_bind hlocation ?_
  exact openPrompted_ensures h hctx rfl

lemma openChoice_ensures (hctx : Steady fs s.ctx ctx) :
    Ensures (s.Expects fs) (Begins fs s.ctx) (Frame.openChoice ctx) := by
  obtain ⟨location, hlocation⟩ := hctx.ready.toSound.location
  refine Ensures.ok_bind hlocation ((next_ensures hctx).bind ?_)
  rintro ⟨token, b⟩ - ⟨hdelivers, hb⟩
  -- The token may be no symbol; right after its delivery it can be put back.
  obtain ⟨c, hpush, hquiet, hsound, hnames, hready⟩ := hdelivers.back
  have hc : Steady fs s.ctx c :=
    hctx.trans ⟨hquiet.root, hquiet.environment, hnames, hready hctx.ready⟩
  dsimp only
  split
  · refine Ensures.ok_bind hpush ?_
    exact ⟨hc, hc.depth, Entry.EnvFrom.of_none rfl⟩
  · exact ⟨hb, hb.depth, Entry.EnvFrom.of_none rfl⟩

lemma close_after_pushBack (h : s.Sound fs settings) (hd : Delivers fs s.ctx token ctx)
    (hblock : s.frame.entry.kind.isBlock = false) :
    Ensures (s.Expects fs) (Progress.Sound fs settings) (do return s.close (← ctx.pushBack)) := by
  obtain ⟨c, hpush, hquiet, hsound, hnames, hready⟩ := hd.back
  have hdepth : c.depth = s.ctx.depth := by
    rw [depth_eq_length, depth_eq_length, hnames]
  refine Ensures.ok_bind hpush (h.close hquiet.root hquiet.environment hdepth hsound ?_)
  -- The frame may have seen the end of a file of which nothing was read, since a token that is put
  -- back need not be in a line.
  rcases h.started with hstarted | hdeep | ⟨-, -, hmenu, -⟩
  · exact .inl (hready hstarted)
  · refine .inr (.inl ?_)
    rw [hdepth]
    exact hdeep
  · rw [hmenu] at hblock
    cases hblock

lemma readVisible_step (h : s.Sound fs settings) (hctx : Steady fs s.ctx ctx) :
    Ensures (s.Expects fs) (Progress.Sound fs settings)
      (do return s.update (← ctx.readExtra Directive.readVisible s.frame.entry)) := by
  have hread := ensures_of_steady hctx
    (readExtra_steady (e := s.frame.entry)
      ⟨Directive.readVisible_leaves, Directive.readVisible_finishes⟩ hctx.ready)
  cases hresult : ctx.readExtra Directive.readVisible s.frame.entry with
  | error fault =>
    rw [hresult] at hread
    exact hread
  | ok r =>
    rw [hresult] at hread
    obtain ⟨d, site, slips, -, happly, -⟩ := readExtra_eq_ok hresult
    refine h.update (hctx.trans hread) ?_
    rw [happly, hctx.environment, h.environment]
    exact Directive.envFrom_apply site slips d (List.forall_mem_cons.1 h.values).1

lemma stepLeaf_ensures (h : s.Sound fs settings) (hd : Delivers fs s.ctx token ctx)
    (hctx : Steady fs s.ctx ctx) (hword : s.ctx.wordAhead = some word)
    (hblock : s.frame.entry.kind.isBlock = false) :
    Ensures (s.Expects fs) (Progress.Sound fs settings) (s.stepLeaf ctx word) := by
  unfold stepLeaf
  split
  · exact close_after_pushBack h hd hblock
  · exact stepDirective_ensures h hctx hword

lemma readSource_step (h : s.Sound fs settings) (hctx : Steady fs s.ctx ctx) (kind : SourceKind) :
    Ensures (s.Expects fs) (Progress.Sound fs settings)
      (do return s.goOn (← ctx.readSource fs kind)) := by
  refine (ensures_of_steady hctx (readSource_ensures kind hctx.ready)).bind ?_
  rintro b - (hb | hb)
  · exact h.goOn (hctx.trans hb)
  · exact h.enter (.of_steady hctx hb)

lemma begins_step {x : Except Fault (Frame × Context)} (h : s.Sound fs settings)
    (hx : Ensures (s.Expects fs) (Begins fs s.ctx) x) :
    Ensures (s.Expects fs) (Progress.Sound fs settings) (do return s.descend (← x)) :=
  hx.bind fun _ _ hopened => h.descend hopened

lemma blockEnd_step (h : s.Sound fs settings) (hctx : Steady fs s.ctx ctx) :
    Ensures (s.Expects fs) (Progress.Sound fs settings) (do
      ctx.checkBlockEnd s.frame.entry word s.frame.depth s.frame.scope
      return s.close ctx) := by
  refine (ensures_of_steady hctx (checkBlockEnd_ensures _ _ _ _ hctx.ready)).bind ?_
  intro _ _ _
  exact h.close hctx.root hctx.environment hctx.depth hctx.ready.toSound (.inl hctx.ready)

lemma stepChoice_ensures (h : s.Sound fs settings) (hctx : Steady fs s.ctx ctx)
    (hword : s.ctx.wordAhead = some word) :
    Ensures (s.Expects fs) (Progress.Sound fs settings) (s.stepChoice fs ctx word) := by
  unfold stepChoice
  dsimp only
  split
  · exact stepDirective_ensures h hctx hword
  · exact blockEnd_step h hctx
  · rename_i isMenu hkeyword
    exact begins_step h (openConfig_ensures hctx isMenu)
  · exact begins_step h (openComment_ensures h hctx)
  · rename_i kind hkeyword
    exact readSource_step h hctx kind
  · exact steady_step h hctx (readIf_steady hctx.ready)
  · exact steady_step h hctx (readEndif_steady hctx.ready)
  all_goals exact expects_malformed hctx _

lemma stepMainMenu_ensures (h : s.Sound fs settings) (hctx : Steady fs s.ctx ctx) :
    Ensures (s.Expects fs) (Progress.Sound fs settings) (s.stepMainMenu ctx word) := by
  unfold stepMainMenu
  dsimp only
  split
  · exact expects_malformed hctx _
  · split
    · exact expects_malformed hctx _
    · obtain ⟨location, hlocation⟩ := hctx.ready.toSound.location
      have he := (List.forall_mem_cons.1 h.values).1
      refine Ensures.ok_bind hlocation (Ensures.bind (readDirective_ensures h hctx rfl
        (he.congr (Entry.env?_setHead _ _))) ?_)
      exact fun r _ hr => h.update hr.1 hr.2

lemma stepMenu_ensures (h : s.Sound fs settings) (hctx : Steady fs s.ctx ctx)
    (hword : s.ctx.wordAhead = some word) :
    Ensures (s.Expects fs) (Progress.Sound fs settings) (s.stepMenu fs ctx word) := by
  unfold stepMenu
  dsimp only
  split
  · split
    · exact readVisible_step h hctx
    · exact stepDirective_ensures h hctx hword
  · split
    · exact expects_malformed hctx _
    · exact blockEnd_step h hctx
  · rename_i isMenu hkeyword
    exact begins_step h (openConfig_ensures hctx isMenu)
  · exact begins_step h (openChoice_ensures hctx)
  · exact begins_step h (openComment_ensures h hctx)
  · exact begins_step h (openMenu_ensures h hctx)
  · rename_i kind hkeyword
    exact readSource_step h hctx kind
  · exact steady_step h hctx (readIf_steady hctx.ready)
  · exact steady_step h hctx (readEndif_steady hctx.ready)
  · exact expects_malformed hctx _
  · exact stepMainMenu_ensures h hctx

lemma Sound.leave (h : s.Sound fs settings) (hd : Delivers fs s.ctx token ctx)
    (hdeep : s.frame.depth < ctx.depth) : (s.goOn ctx.closeFile).Sound fs settings := by
  have hquiet := hd.quiet.trans (.closeFile ctx)
  have hdepth : ctx.closeFile.depth = ctx.depth - 1 := List.length_tail
  obtain ⟨hle, hframes⟩ := List.pairwise_cons.1 h.depths
  have hpos := h.inside s.frame List.mem_cons_self
  -- The files below have been read up to the lines that include the files above them.
  have hready : ctx.closeFile.Ready fs := by
    refine ⟨⟨?_, ?_, ?_, hd.sound.symbols⟩, hd.sound.below⟩
    · exact fun t ht => hd.sound.files t (List.mem_of_mem_tail ht)
    · exact fun t ht => hd.sound.below t (List.mem_of_mem_tail ht)
    · rw [← List.length_pos_iff]
      change 0 < ctx.closeFile.depth
      omega
  refine ⟨hquiet.root.trans h.root, hquiet.environment.trans h.environment, hready.toSound,
    h.values, h.inside, List.pairwise_cons.2 ⟨?_, hframes⟩, .inl hready⟩
  intro depth hmem
  have houter : depth ≤ s.frame.depth := by
    rcases List.mem_cons.1 hmem with rfl | hmem
    · exact le_refl _
    · exact (List.pairwise_cons.1 hframes).1 depth hmem
  change depth ≤ ctx.closeFile.depth
  omega

lemma stepFileEnd_ensures (h : s.Sound fs settings) (hd : Delivers fs s.ctx token ctx) :
    Ensures (s.Expects fs) (Progress.Sound fs settings) (s.stepFileEnd ctx) := by
  have hdepth : ctx.depth = s.ctx.depth := by
    rw [depth_eq_length, depth_eq_length, hd.names]
  -- A block that is still open at the end of its file has begun in a line of it. The exception is
  -- the top-level menu, which cannot be unclosed.
  have hmalformed : ¬s.frame.depth < ctx.depth →
      ¬(s.frame.isTop = true ∧ s.frame.entry.kind = .menu ∧ ctx.scope = []) →
        ∀ problem, s.Expects fs (ctx.malformed problem) := by
    intro hdeep htop problem
    rcases h.started with hready | hdeep' | ⟨-, htop', hkind, hscope⟩
    · exact expects_malformed (hd.steady (hd.ready (.inl hready))) problem
    · exact absurd (hdepth ▸ hdeep') hdeep
    · exact absurd ⟨htop', hkind, hd.quiet.scope.trans hscope⟩ htop
  unfold stepFileEnd
  dsimp only
  split
  · rename_i c hentry
    refine close_after_pushBack h hd ?_
    rw [hentry]
    exact Entry.isBlock_config c
  · rename_i c hentry
    refine close_after_pushBack h hd ?_
    rw [hentry]
    rfl
  · rename_i c hentry
    split
    · rename_i hdeep
      exact h.leave hd hdeep
    · rename_i hdeep
      refine hmalformed hdeep ?_ _
      rintro ⟨-, hkind, -⟩
      rw [hentry] at hkind
      cases hkind
  · split
    · rename_i hdeep
      exact h.leave hd hdeep
    · rename_i hdeep
      split
      · rename_i htop
        refine hmalformed hdeep ?_ _
        rintro ⟨htop', -, -⟩
        rw [htop'] at htop
        cases htop
      · split
        · rename_i condition hscope
          refine hmalformed hdeep ?_ _
          rintro ⟨-, -, hnil⟩
          rw [hnil] at hscope
          cases hscope
        · refine h.close hd.quiet.root hd.quiet.environment hdepth hd.sound ?_
          rcases h.started with hready | hdeep' | ⟨houter, -⟩
          · exact .inl (hd.ready (.inl hready))
          · exact absurd (hdepth ▸ hdeep') hdeep
          · exact .inr (.inr houter)

theorem step_ensures (h : s.Sound fs settings) :
    Ensures (s.Expects fs) (Progress.Sound fs settings) (s.step fs) := by
  refine Ensures.bind ((next_delivers h.files).mono ?_ fun _ => id) ?_
  · exact fun _ hfault => .inl (.of_unreadable hfault)
  · rintro ⟨token, ctx⟩ hnext hd
    have hctx : token.lexeme ≠ .fileEnd → Steady fs s.ctx ctx := by
      intro hend
      exact hd.steady (hd.ready (.inr hend))
    have hahead := wordAhead_of_next hnext
    dsimp only
    split
    · exact stepFileEnd_ensures h hd
    · rename_i hlex
      refine h.goOn (hctx ?_)
      rw [hlex]
      exact Lexeme.noConfusion
    · rename_i word hlex
      rw [hlex] at hahead hctx
      have hsteady := hctx Lexeme.noConfusion
      split
      · rename_i c hentry
        refine stepLeaf_ensures h hd hsteady hahead ?_
        rw [hentry]
        exact Entry.isBlock_config c
      · rename_i c hentry
        refine stepLeaf_ensures h hd hsteady hahead ?_
        rw [hentry]
        rfl
      · exact stepChoice_ensures h hsteady hahead
      · exact stepMenu_ensures h hsteady hahead
    · rename_i hend hline hword
      exact steady_step h (hctx hend) (unrecognized_steady _ _ (hctx hend).ready)

end State

lemma Settings.opened_sound {fs : FileSystem} {settings : Settings} {bytes : List UInt8}
    (hlook : fs.look (Path.join settings.root settings.file) = .file bytes) :
    (settings.opened bytes).Sound fs settings where
  root := rfl
  environment := rfl
  files := by
    refine ⟨List.forall_mem_singleton.2 ?_, List.forall_mem_nil _, List.cons_ne_nil _ _,
      List.forall_mem_nil _⟩
    exact ⟨bytes, hlook, TokenStream.within_ofBytes settings.file bytes⟩
  values := List.forall_mem_singleton.2 (.of_none rfl)
  inside := List.forall_mem_singleton.2 Nat.one_pos
  depths := List.pairwise_pair.2 (le_refl 1)
  started := .inr (.inr ⟨rfl, rfl, rfl, rfl⟩)

theorem Reachable.sound {fs : FileSystem} {settings : Settings} {s : State}
    (h : Reachable fs settings s) : s.Sound fs settings := by
  induction h with
  | start hstart =>
    obtain ⟨bytes, hlook, rfl⟩ := Settings.start_eq_ok.1 hstart
    exact Settings.opened_sound hlook
  | step hs hstep ih =>
    have hsound := State.step_ensures ih
    rw [hstep] at hsound
    exact hsound

/-- The errors of the operating system and of decoding in opening and reading files. -/
inductive Fault.OfSystem : Fault → Prop where
  | undecodable (error : Text.DecodeError) : OfSystem (.undecodable error)
  | notDirectory (path : Text.Loose) : OfSystem (.notDirectory path)
  | isDirectory (path : Text.Loose) : OfSystem (.isDirectory path)

/-- The errors in making a path of a name, or a number of its digits. -/
inductive Fault.OfConversion : Fault → Prop where
  | invalidPath : OfConversion .invalidPath
  | unencodable (path : Text.Loose) : OfConversion (.unencodable path)
  | tooManyDigits {digits : Nat} (h : digitLimit < digits) : OfConversion (.tooManyDigits digits)

/-- How the reading of a tree may end, apart from the faults that are excepted. -/
inductive Outcome (fs : FileSystem) (settings : Settings) (excepted : Fault → Prop) :
    Except Fault Tree → Prop where
  | tree (tree : Tree) : Outcome fs settings excepted (.ok tree)
  /-- The top-level file does not exist. -/
  | missingRoot (hlook : fs.look (Path.join settings.root settings.file) = .missing) :
    Outcome fs settings excepted
      (.error (.missingRootFile settings.file (Path.join settings.root settings.file)))
  /-- The next token is a directive that comments refuse, and a comment is being read. -/
  | refused {s : State} {word : String} {location : Location} (hs : Reachable fs settings s)
    (hstep : s.step fs = .error (.misuse (.notValid word .comment location)))
    (hkind : s.frame.entry.kind = .comment) (hword : s.ctx.wordAhead = some word)
    (hrefused : word ∈ refusedInComments) :
    Outcome fs settings excepted (.error (.misuse (.notValid word .comment location)))
  /-- The text is wrong in a line of the file on top of the stack. -/
  | malformed {s : State} {location : Location} {problem : Problem} {bytes : List UInt8}
    (hs : Reachable fs settings s)
    (hstep : s.step fs = .error (.malformed (some location) problem))
    (hfile : s.ctx.fileNames.head? = some location.file)
    (hlook : fs.look (Path.join settings.root location.file) = .file bytes)
    (hfirst : 1 ≤ location.linenr) (hlast : location.linenr ≤ lineCount bytes) :
    Outcome fs settings excepted (.error (.malformed (some location) problem))
  /-- The environment gives a name a value that is no text. -/
  | notText {name : String} {value : Json} (hvalue : settings.environment.lookup name = some value)
    (htext : ∀ text, value ≠ .str text) : Outcome fs settings excepted (.error .notText)
  | excepted {fault : Fault} (h : excepted fault) : Outcome fs settings excepted (.error fault)

lemma Reachable.outcome_of_error {fs : FileSystem} {settings : Settings} {s : State} {fault : Fault}
    (h : Reachable fs settings s) (hstep : s.step fs = .error fault) :
    Outcome fs settings (fun fault => fault.OfSystem ∨ fault.OfConversion) (.error fault) := by
  have hexpects := State.step_ensures h.sound
  rw [hstep] at hexpects
  rcases hexpects with hregular | ⟨word, location, rfl, hkind, hword, hrefused⟩
  · unfold Context.Regular at hregular
    rw [h.sound.root, h.sound.environment] at hregular
    split at hregular
    · obtain ⟨hfile, bytes, hlook, hfirst, hlast⟩ := hregular
      exact .malformed h hstep hfile hlook hfirst hlast
    · cases hregular
    · cases hregular
    · cases hregular
    · cases hregular
    · simp only [not_forall, not_exists] at hregular
      obtain ⟨name, value, hvalue, htext⟩ := hregular
      exact .notText hvalue htext
    · cases hregular
    · exact .excepted (.inl (.undecodable _))
    · exact .excepted (.inr (.tooManyDigits hregular))
    · exact .excepted (.inl (.notDirectory _))
    · exact .excepted (.inr .invalidPath)
    · exact .excepted (.inr (.unencodable _))
  · exact .refused h hstep hkind hword hrefused

/-- Reading gives a tree, or it ends because the top-level file is missing, because a comment
refuses a directive, or because the text is wrong in a line of the file that is read. All other ends
are errors in opening and reading files, or values in the environment that are no texts. -/
theorem Tree.parse_outcome (fs : FileSystem) (settings : Settings) :
    Outcome fs settings (fun fault => fault.OfSystem ∨ fault.OfConversion)
      (Tree.parse fs settings) := by
  rw [parse_eq, Settings.start_eq]
  cases hlook : fs.look (Path.join settings.root settings.file) with
  | file bytes =>
    have hstart : Reachable fs settings (settings.opened bytes) :=
      .start (Settings.start_eq_ok.2 ⟨bytes, hlook, rfl⟩)
    dsimp only
    rcases State.exists_last_step hstart with ⟨s, fault, hs, hstep, hrun⟩ | ⟨s, e, ctx, -, -, hrun⟩
    · rw [hrun]
      exact hs.outcome_of_error hstep
    · rw [hrun]
      exact .tree _
  | missing => exact .missingRoot hlook
  | directory => exact .excepted (.inl (.isDirectory _))
  | blocked => exact .excepted (.inl (.notDirectory _))
  | invalid => exact .excepted (.inr .invalidPath)

/-- An inclusion of a file with a null character in its name. -/
def nullInclusion : List UInt8 :=
  "source \"a\x00b\"\n".toUTF8.toList

def nullName : Snapshot where
  files := [(["Kconfig".toList], nullInclusion)]

/-- A name that no path can have ends the reading with an error that is neither one of the operating
system nor one of decoding. -/
theorem not_outcome_nullName :
    ¬Outcome nullName.toFileSystem {} Fault.OfSystem (Tree.parse nullName.toFileSystem {}) := by
  have hfault : Settings.faultAfter? nullName.toFileSystem {} 0 = some .invalidPath := by
    decide +kernel
  rw [Tree.parse_of_faultAfter? hfault]
  intro h
  cases h with
  | excepted h => cases h

end Kconfig
