import Kconfig.Proofs.Steps

/-!
# What holds of the open files

A run asks three things of the file that it reads: to load the next line, to go on to some place in
the line, and to read raw lines. A property of token streams that these keep, and that holds at the
beginning of each file, holds of all open files at every state of the run.
-/

namespace Kconfig

namespace TokenStream

variable {P : TokenStream → Prop} {s s' s'' : TokenStream} {token : Token}

/-- What is asked of a token stream keeps the property. -/
structure Stable (P : TokenStream → Prop) : Prop where
  load : ∀ {s s' : TokenStream}, P s → s.load = .ok s' → P s'
  stopAt : ∀ {s : TokenStream} {stop : Stop}, P s → stop.upcoming <:+ s.upcoming → P (s.stopAt stop)
  takeLines : ∀ {s s' : TokenStream} {p : List Char → Bool} {lines : List (List Char)}
    {stop : Option (List Char)}, P s → s.takeLines p = .ok (lines, stop, s') → P s'

namespace Stable

lemma next (hP : Stable P) (h : P s) (hnext : s.next = .ok (token, s')) : P s' := by
  obtain ⟨t, rest, hload, hupcoming, -, rfl⟩ := next_eq_ok.1 hnext
  refine hP.stopAt (hP.load h hload) ?_
  rw [hupcoming]
  exact List.suffix_cons token rest

lemma pushBack (hP : Stable P) (h : P s) (hnext : s.next = .ok (token, s'))
    (hpush : s'.pushBack = .ok s'') : P s'' := by
  obtain ⟨t, rest, hload, hupcoming, -, rfl⟩ := next_eq_ok.1 hnext
  cases hpush
  have hstop : (Stop.mk token rest true).upcoming <:+ t.upcoming := by
    rw [hupcoming]
    exact List.suffix_refl _
  exact hP.stopAt (hP.load h hload) hstop

lemma discardLine (hP : Stable P) (h : P s) (hdiscard : s.discardLine = .ok s') : P s' := by
  obtain ⟨t, last, hload, -, hlast, rfl⟩ := discardLine_eq_ok.1 hdiscard
  obtain ⟨front, hfront⟩ := List.getLast?_eq_some_iff.1 hlast
  refine hP.stopAt (hP.load h hload) ?_
  rw [hfront, Stop.upcoming]
  split
  · exact List.suffix_append front [last]
  · exact List.nil_suffix

lemma readHelp {text : Option String} (hP : Stable P) (h : P s)
    (hhelp : Directive.readHelp s = .ok (text, s')) : P s' := by
  obtain ⟨s₁, h₁, hhelp⟩ := bind_eq_ok.1 hhelp
  have hs₁ := hP.discardLine h h₁
  obtain ⟨⟨blanks, first, s₂⟩, h₂, hhelp⟩ := bind_eq_ok.1 hhelp
  have hs₂ := hP.takeLines hs₁ h₂
  dsimp only at hhelp
  split at hhelp
  · cases pure_eq_ok.1 hhelp
    exact hs₂
  · split at hhelp
    · cases pure_eq_ok.1 hhelp
      exact hs₂
    · obtain ⟨⟨lines, stop, s₃⟩, h₃, hhelp⟩ := bind_eq_ok.1 hhelp
      cases pure_eq_ok.1 hhelp
      exact hP.takeLines hs₂ h₃

end Stable

end TokenStream

namespace Context

variable {P : TokenStream → Prop} {fs : FileSystem} {root : String} {ctx ctx' ctx'' : Context}
  {token : Token}

/-- The property holds of all open files, and names of files are relative to the root. -/
structure Keeps (root : String) (P : TokenStream → Prop) (ctx : Context) : Prop where
  root : ctx.root = root
  files : ∀ s ∈ ctx.files, P s

namespace Keeps

open TokenStream (Stable)

lemma congr (h : ctx.Keeps root P) (hroot : ctx'.root = ctx.root)
    (hfiles : ctx'.files = ctx.files) : ctx'.Keeps root P :=
  ⟨hroot.trans h.root, hfiles ▸ h.files⟩

lemma current {s : TokenStream} (h : ctx.Keeps root P) (hs : ctx.current = .ok s) : P s := by
  obtain ⟨below, hfiles⟩ := current_eq_ok hs
  refine h.files s ?_
  rw [hfiles]
  exact List.mem_cons_self

lemma setCurrent {s : TokenStream} (h : ctx.Keeps root P) (hs : P s) :
    (ctx.setCurrent s).Keeps root P :=
  ⟨h.root, List.forall_mem_cons.2 ⟨hs, fun t ht => h.files t (List.mem_of_mem_tail ht)⟩⟩

lemma closeFile (h : ctx.Keeps root P) : ctx.closeFile.Keeps root P :=
  ⟨h.root, fun s hs => h.files s (List.mem_of_mem_tail hs)⟩

lemma next (hP : Stable P) (h : ctx.Keeps root P) (hnext : ctx.next = .ok (token, ctx')) :
    ctx'.Keeps root P := by
  obtain ⟨s, hs, hnext⟩ := bind_eq_ok.1 hnext
  obtain ⟨⟨token', s'⟩, hnext', hnext⟩ := bind_eq_ok.1 hnext
  cases pure_eq_ok.1 hnext
  exact h.setCurrent (hP.next (h.current hs) hnext')

lemma pushBack (hP : Stable P) (h : ctx.Keeps root P) (hnext : ctx.next = .ok (token, ctx'))
    (hpush : ctx'.pushBack = .ok ctx'') : ctx''.Keeps root P := by
  obtain ⟨s, hs, hnext⟩ := bind_eq_ok.1 hnext
  obtain ⟨⟨token', s'⟩, hnext', hnext⟩ := bind_eq_ok.1 hnext
  cases pure_eq_ok.1 hnext
  obtain ⟨t, ht, hpush⟩ := bind_eq_ok.1 hpush
  obtain ⟨t', hpush', hpush⟩ := bind_eq_ok.1 hpush
  cases pure_eq_ok.1 hpush
  cases ht
  have hafter := h.setCurrent (hP.next (h.current hs) hnext')
  exact hafter.setCurrent (hP.pushBack (h.current hs) hnext' hpush')

lemma readLine {α : Type} {read : List Token → Except ReadFailure (Reading α)} {r : Reading α}
    (hP : Stable P) (h : ctx.Keeps root P) (hread : ∀ tokens, LeavesSuffix (read tokens) tokens)
    (hline : ctx.readLine read = .ok (r, ctx')) : ctx'.Keeps root P := by
  obtain ⟨s, s', hs, hload, hr, rfl⟩ := readLine_eq_ok.1 hline
  have hleaves := readDeliverable_leaves hread _ r hr
  exact h.setCurrent (hP.stopAt (hP.load (h.current hs) hload) hleaves)

lemma readExtra {read : List Token → Except ReadFailure (Reading Directive)} {e e' : Entry}
    (hP : Stable P) (h : ctx.Keeps root P) (hleaves : ∀ tokens, LeavesSuffix (read tokens) tokens)
    (hread : ctx.readExtra read e = .ok (e', ctx')) : ctx'.Keeps root P := by
  obtain ⟨start, -, hread⟩ := bind_eq_ok.1 hread
  obtain ⟨⟨r, ctx₁⟩, hline, hread⟩ := bind_eq_ok.1 hread
  have hafter := h.readLine hP hleaves hline
  obtain ⟨location, -, hread⟩ := bind_eq_ok.1 hread
  cases pure_eq_ok.1 hread
  exact hafter.congr rfl rfl

lemma readDirective {kind : DirectiveKind} {keyword : String} {e e' : Entry} (hP : Stable P)
    (h : ctx.Keeps root P) (hread : ctx.readDirective kind keyword e = .ok (e', ctx')) :
    ctx'.Keeps root P := by
  unfold Context.readDirective at hread
  split at hread
  · obtain ⟨location, -, hread⟩ := bind_eq_ok.1 hread
    cases hread
  · split at hread
    · cases hread
      exact h
    · obtain ⟨start, -, hread⟩ := bind_eq_ok.1 hread
      obtain ⟨s, hs, hread⟩ := bind_eq_ok.1 hread
      obtain ⟨⟨text, s'⟩, hhelp, hread⟩ := bind_eq_ok.1 hread
      cases pure_eq_ok.1 hread
      exact (h.setCurrent (hP.readHelp (h.current hs) hhelp)).congr rfl rfl
    · exact h.readExtra hP (Directive.read_leaves _ _) hread

lemma unrecognized {kind : EntryKind} {first : String} (hP : Stable P) (h : ctx.Keeps root P)
    (hskip : ctx.unrecognized kind first = .ok ctx') : ctx'.Keeps root P := by
  obtain ⟨⟨text, ctx₁⟩, hline, hskip⟩ := bind_eq_ok.1 hskip
  obtain ⟨⟨r, ctx₂⟩, hline, hrest⟩ := bind_eq_ok.1 hline
  cases pure_eq_ok.1 hrest
  have hafter := h.readLine hP (readRest_leaves _) hline
  dsimp only at hskip
  split at hskip
  · cases hskip
  · obtain ⟨location, -, hskip⟩ := bind_eq_ok.1 hskip
    cases pure_eq_ok.1 hskip
    exact hafter.congr rfl rfl

lemma readIf (hP : Stable P) (h : ctx.Keeps root P) (hif : ctx.readIf = .ok ctx') :
    ctx'.Keeps root P := by
  obtain ⟨⟨condition, ctx₁⟩, hread, hif⟩ := bind_eq_ok.1 hif
  cases pure_eq_ok.1 hif
  obtain ⟨start, -, hread⟩ := bind_eq_ok.1 hread
  obtain ⟨⟨r, ctx₂⟩, hline, hread⟩ := bind_eq_ok.1 hread
  have hafter := h.readLine hP Condition.read_leaves hline
  obtain ⟨location, -, hread⟩ := bind_eq_ok.1 hread
  cases pure_eq_ok.1 hread
  exact hafter.congr rfl rfl

lemma readSource {kind : SourceKind} (hopen : ∀ name bytes,
      fs.look (Path.join root name) = .file bytes → P { lines := LineReader.ofBytes name bytes })
    (hP : Stable P) (h : ctx.Keeps root P) (hsource : ctx.readSource fs kind = .ok ctx') :
    ctx'.Keeps root P := by
  obtain ⟨start, r, mid, hline, hincludes⟩ := includes_of_readSource hsource
  have hmid := h.readLine hP kind.readPath_leaves hline
  cases hincludes with
  | missing => exact hmid.congr rfl rfl
  | opened name bytes hlook hopened =>
    have hlook' : fs.look (Path.join root name) = .file bytes := by
      rw [← hmid.root]
      exact hlook
    exact ⟨hmid.root, List.forall_mem_cons.2 ⟨hopen name bytes hlook', hmid.files⟩⟩

lemma openFrame {opening : Opening} {opened : Frame × Context} (hP : Stable P)
    (h : ctx.Keeps root P) (hframe : ctx.openFrame opening = .ok opened) :
    opened.2.Keeps root P := by
  cases opening with
  | config isMenu =>
    obtain ⟨location, -, hframe⟩ := bind_eq_ok.1 hframe
    obtain ⟨⟨token, ctx₁⟩, hnext, hframe⟩ := bind_eq_ok.1 hframe
    have hafter := h.next hP hnext
    dsimp only at hframe
    split at hframe
    · cases hframe
    · cases pure_eq_ok.1 hframe
      exact hafter.congr (root_define _ _) (files_define _ _)
  | choice =>
    obtain ⟨location, -, hframe⟩ := bind_eq_ok.1 hframe
    obtain ⟨⟨token, ctx₁⟩, hnext, hframe⟩ := bind_eq_ok.1 hframe
    dsimp only at hframe
    split at hframe
    · obtain ⟨ctx₂, hpush, hframe⟩ := bind_eq_ok.1 hframe
      cases pure_eq_ok.1 hframe
      exact h.pushBack hP hnext hpush
    · obtain ⟨ctx₂, hpure, hframe⟩ := bind_eq_ok.1 hframe
      cases pure_eq_ok.1 hpure
      cases pure_eq_ok.1 hframe
      exact h.next hP hnext
  | comment =>
    obtain ⟨location, -, hframe⟩ := bind_eq_ok.1 hframe
    obtain ⟨⟨e, ctx₁⟩, hread, hframe⟩ := bind_eq_ok.1 hframe
    cases pure_eq_ok.1 hframe
    exact h.readDirective hP hread
  | menu =>
    obtain ⟨location, -, hframe⟩ := bind_eq_ok.1 hframe
    obtain ⟨⟨e, ctx₁⟩, hread, hframe⟩ := bind_eq_ok.1 hframe
    cases pure_eq_ok.1 hframe
    exact h.readDirective hP hread
  | top =>
    obtain ⟨s, -, hframe⟩ := bind_eq_ok.1 hframe
    cases pure_eq_ok.1 hframe
    exact h

end Keeps

end Context

open Context

/-- A stable property that holds at the beginning of each file holds of all open files at every
state of a run. -/
theorem Reachable.keeps {P : TokenStream → Prop} {fs : FileSystem} {settings : Settings} {s : State}
    (hP : TokenStream.Stable P)
    (hopen : ∀ name bytes, fs.look (Path.join settings.root name) = .file bytes →
      P { lines := LineReader.ofBytes name bytes }) (h : Reachable fs settings s) :
    s.ctx.Keeps settings.root P := by
  induction h with
  | start hstart =>
    obtain ⟨bytes, hlook, rfl⟩ := Settings.start_eq_ok.1 hstart
    exact ⟨rfl, List.forall_mem_singleton.2 (hopen _ _ hlook)⟩
  | @step s s' hs hstep ih =>
    obtain ⟨token, ctx, hnext, htakes⟩ := State.takes_of_step hstep
    have hctx := ih.next hP hnext
    have hclose : ∀ {ctx : Context}, Progress.running s' = s.close ctx → ctx.Keeps settings.root P →
        s'.ctx.Keeps settings.root P := fun {ctx} hp hctx =>
      hctx.congr ((congrArg (·.ctx.root) hp).trans (State.close_root s ctx))
        ((congrArg (·.ctx.files) hp).trans (State.close_files s ctx))
    generalize hp : Progress.running s' = p at htakes
    cases htakes with
    | lineEnd hlex =>
      cases hp
      exact hctx
    | skip hlex h =>
      cases hp
      exact hctx.unrecognized hP h
    | directive hlex hword hvisible hdirective hknown h =>
      cases hp
      exact hctx.readDirective hP h
    | visible hlex hkind h =>
      cases hp
      exact hctx.readExtra hP Directive.readVisible_leaves h
    | mainMenu hlex hword hkind htop hprompt hlocation h =>
      cases hp
      exact hctx.readDirective hP h
    | header hlex hword hopening hholds h =>
      cases hp
      exact hctx.openFrame hP h
    | source hlex hword hblock h =>
      cases hp
      exact hctx.readSource hopen hP h
    | openIf hlex hword hblock h =>
      cases hp
      exact hctx.readIf hP h
    | closeIf hlex hword hblock h =>
      cases hp
      obtain ⟨-, rfl⟩ := readEndif_eq_ok h
      exact hctx.congr rfl rfl
    | blockEnd hlex hword hkeyword htop h => exact hclose hp hctx
    | leafEnd hleaf hlex h => exact hclose hp (ih.pushBack hP hnext h)
    | fileEnd hlex hblock hdepth =>
      cases hp
      exact hctx.closeFile
    | topEnd hlex hkind htop hdepth hscope => exact hclose hp hctx

end Kconfig
