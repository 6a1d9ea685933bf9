import Kconfig.Proofs.Twins.Openings
import Mathlib.Data.List.Forall2

/-!
# Twin states

If the same lexeme is delivered in two states that are equal apart from locations, findings and the
files they read, and the first state makes a step with it, the second one makes the same step.
-/

namespace Kconfig

open Context

/-- The frames of the states are equal apart from locations. -/
structure State.Framed (k : Nat) (s s' : State) : Prop where
  frame : Frame.Twins k s.frame s'.frame
  outer : List.Forall₂ (Frame.Twins k) s.outer s'.outer

/-- The states are equal apart from locations, findings and the open files. -/
structure State.Twins (k : Nat) (F : List TokenStream → List TokenStream → Prop)
    (s s' : State) : Prop extends State.Framed k s s' where
  ctx : Context.Twins F s.ctx s'.ctx

inductive Progress.Twins (k : Nat) (F : List TokenStream → List TokenStream → Prop) :
    Progress → Progress → Prop where
  | running {s s' : State} (h : State.Twins k F s s') : Twins k F (.running s) (.running s')
  | finished {e e' : Entry} {ctx ctx' : Context} (he : e'.unlocated = e.unlocated)
    (hctx : Context.Twins F ctx ctx') : Twins k F (.finished e ctx) (.finished e' ctx')

lemma Progress.Twins.mono {k : Nat} {F G : List TokenStream → List TokenStream → Prop}
    {p p' : Progress} (h : Progress.Twins k F p p') (hFG : ∀ x y, F x y → G x y) :
    Progress.Twins k G p p' := by
  cases h with
  | running h => exact .running ⟨h.toFramed, h.ctx.mono (hFG _ _)⟩
  | finished he hctx => exact .finished he (hctx.mono (hFG _ _))

namespace State.Framed

variable {F : List TokenStream → List TokenStream → Prop} {k : Nat} {s s' : State}
  {ctx ctx' : Context}

lemma goOn (h : Framed k s s') (hctx : Context.Twins F ctx ctx') :
    Progress.Twins k F (s.goOn ctx) (s'.goOn ctx') :=
  .running ⟨⟨h.frame, h.outer⟩, hctx⟩

lemma shallow (h : Framed k s s') (hdepth : ∀ f ∈ s.frame :: s.outer, f.depth ≤ 1) (k' : Nat) :
    Framed k' s s' := by
  have htwins : ∀ {f f'}, f.depth ≤ 1 → Frame.Twins k f f' → Frame.Twins k' f f' := by
    intro f f' hshallow hf
    refine ⟨hf.entry, hf.scope, hf.isTop, ?_⟩
    have hdepth' := hf.depth
    omega
  obtain ⟨hframe, houter⟩ := List.forall_mem_cons.1 hdepth
  refine ⟨htwins hframe h.frame, ?_⟩
  exact ((List.forall₂_and_left _ _).2 ⟨houter, h.outer⟩).imp fun f f' hf => htwins hf.1 hf.2

lemma wait (h : Framed k s s') (hctx : Context.Twins F ctx s'.ctx) :
    State.Twins k F { s with ctx } s' :=
  ⟨⟨h.frame, h.outer⟩, hctx⟩

lemma withEntry {f f' : Frame} {e e' : Entry} (h : Frame.Twins k f f')
    (he : e'.unlocated = e.unlocated) : Frame.Twins k (f.withEntry e) (f'.withEntry e') :=
  ⟨he, h.scope, h.isTop, h.depth⟩

lemma update {result result' : Entry × Context} (h : Framed k s s')
    (he : result'.1.unlocated = result.1.unlocated)
    (hctx : Context.Twins F result.2 result'.2) :
    Progress.Twins k F (s.update result) (s'.update result') :=
  .running ⟨⟨withEntry h.frame he, h.outer⟩, hctx⟩

lemma descend {opened opened' : Frame × Context} (h : Framed k s s')
    (hframe : Frame.Twins k opened.1 opened'.1) (hctx : Context.Twins F opened.2 opened'.2) :
    Progress.Twins k F (s.descend opened) (s'.descend opened') :=
  .running ⟨⟨hframe, .cons h.frame h.outer⟩, hctx⟩

lemma close (h : Framed k s s') (hctx : Context.Twins F ctx ctx') :
    Progress.Twins k F (s.close ctx) (s'.close ctx') := by
  have he : (s'.frame.entry.finish s'.frame.scope).unlocated =
      (s.frame.entry.finish s.frame.scope).unlocated := by
    rw [Entry.unlocated_finish, Entry.unlocated_finish, h.frame.entry, h.frame.scope]
  unfold State.close
  dsimp only
  generalize s'.frame.entry.finish s'.frame.scope = e' at he
  generalize s.frame.entry.finish s.frame.scope = e at he
  have hregistered := hctx.register he
  have houter := h.outer
  cases houters : s.outer with
  | nil =>
    rw [houters] at houter
    rw [List.forall₂_nil_left_iff.1 houter]
    exact .finished he hregistered
  | cons f outer =>
    rw [houters] at houter
    obtain ⟨f', outer', hf, houter, houters'⟩ := List.forall₂_cons_left_iff.1 houter
    rw [houters']
    refine .running ⟨⟨withEntry hf ?_, houter⟩, hregistered⟩
    rw [Entry.unlocated_addChild, Entry.unlocated_addChild, hf.entry, he]

end State.Framed

/-- The files that are read go on alongside each other, or the same file has been opened over
them. -/
def Ahead (g : Fork) (low low' files files' : List TokenStream) : Prop :=
  Over g.Meets low low' files files' ∨ Entered g.Meets low low' files files'

lemma Context.Twins.ahead {g : Fork} {low low' : List TokenStream} {a b : Context}
    {R : View → View → Prop} (h : Context.Twins (Over R low low') a b)
    (hR : ∀ v w, R v w → g.Meets v w) : Context.Twins (Ahead g low low') a b :=
  (h.over_mono hR).mono .inl

lemma Entry.unknown?_congr {e e' : Entry} (h : e'.kind = e.kind) (lexeme : Lexeme) :
    e'.unknown? lexeme = e.unknown? lexeme := by
  unfold Entry.unknown?
  rw [h]

lemma Entry.isEnd_of_unknown? {e : Entry} {lexeme : Lexeme} {text : String}
    (h : e.unknown? lexeme = some text) : lexeme.isEnd = false := by
  cases lexeme with
  | lineEnd => cases h
  | fileEnd => cases h
  | _ => rfl

/-- The same lexeme has been delivered in two runs that go on alongside each other; if the token is
put back in the first run, it can be put back in the second one. -/
structure Met (fs fs' : FileSystem) (g : Fork) (k : Nat) (low low' : List TokenStream)
    (s s' : State) (token token' : Token) (ctx ctx' : Context) : Prop where
  abreast : Abreast fs fs' g k low low'
  frames : State.Framed k s s'
  lexeme : token'.lexeme = token.lexeme
  push : Context.Twins
    (Over (fun v w => g.Inside (v.push token.lexeme) (w.push token.lexeme)) low low') ctx ctx'
  back : ∀ c, ctx.pushBack = .ok c →
    ∃ c', ctx'.pushBack = .ok c' ∧ Context.Twins (Over g.Loaded low low') c c'

namespace Met

variable {fs fs' : FileSystem} {g : Fork} {k : Nat} {low low' : List TokenStream} {s s' : State}
  {token token' : Token} {ctx ctx' c : Context} {word text : String}

lemma along (m : Met fs fs' g k low low' s s' token token' ctx ctx') :
    Context.Twins (Over g.Along low low') ctx ctx' :=
  m.push.over_mono fun _ _ hvw => hvw.of_push.1

lemma inside (m : Met fs fs' g k low low' s s' token token' ctx ctx')
    (hend : token.lexeme.isEnd = false) : Context.Twins (Over g.Inside low low') ctx ctx' :=
  m.push.over_mono fun _ _ hvw => hvw.of_push.2.2 hend

lemma atWord (m : Met fs fs' g k low low' s s' token token' ctx ctx')
    (hlex : token.lexeme = .word word) :
    token'.lexeme = .word word ∧ Context.Twins (Over g.Inside low low') ctx ctx' :=
  ⟨m.lexeme.trans hlex, m.inside (by rw [hlex]; rfl)⟩

lemma kind (m : Met fs fs' g k low low' s s' token token' ctx ctx') :
    s'.frame.entry.kind = s.frame.entry.kind :=
  Entry.kind_of_unlocated m.frames.frame.entry

lemma ne_fileEnd (m : Met fs fs' g k low low' s s' token token' ctx ctx') :
    token.lexeme ≠ .fileEnd := by
  obtain ⟨_, _, -, -, -, hst⟩ := m.push.current
  exact hst.of_push.2.1

lemma goOn (m : Met fs fs' g k low low' s s' token token' ctx ctx') {c' : Context}
    (hctx : Context.Twins (Over g.Along low low') c c') :
    Progress.Twins k (Ahead g low low') (s.goOn c) (s'.goOn c') :=
  m.frames.goOn (hctx.ahead fun _ _ h => h.meets m.abreast.proper)

lemma skip (m : Met fs fs' g k low low' s s' token token' ctx ctx')
    (hlex : s.frame.entry.unknown? token.lexeme = some text)
    (h : ctx.unrecognized s.frame.entry.kind text = .ok c) :
    ∃ p', Takes fs' s' token' ctx' p' ∧ Progress.Twins k (Ahead g low low') (s.goOn c) p' := by
  obtain ⟨c', hskip, hctx⟩ := (m.inside (Entry.isEnd_of_unknown? hlex)).unrecognized h
  rw [← m.kind] at hskip
  rw [← Entry.unknown?_congr m.kind, ← m.lexeme] at hlex
  exact ⟨_, .skip hlex hskip, m.goOn hctx⟩

lemma directive (m : Met fs fs' g k low low' s s' token token' ctx ctx') {kind : DirectiveKind}
    {result : Entry × Context} (hlex : token.lexeme = .word word)
    (hnone : BlockKeyword.ofWord? word = none)
    (hvisible : ¬(s.frame.entry.kind = .menu ∧ word = "visible"))
    (hdirective : DirectiveKind.ofKeyword? word = some kind)
    (hknown : kind.isKnownIn s.frame.entry.kind = true)
    (h : ctx.readDirective kind word s.frame.entry = .ok result) :
    ∃ p', Takes fs' s' token' ctx' p' ∧
      Progress.Twins k (Ahead g low low') (s.update result) p' := by
  obtain ⟨hlex', hin⟩ := m.atWord hlex
  obtain ⟨result', hread, he, hctx⟩ := hin.readDirective m.abreast.proper m.frames.frame.entry h
  rw [← m.kind] at hvisible hknown
  exact ⟨_, .directive hlex' hnone hvisible hdirective hknown hread,
    m.frames.update he (hctx.ahead fun _ _ h => h)⟩

lemma visible (m : Met fs fs' g k low low' s s' token token' ctx ctx')
    {result : Entry × Context} (hlex : token.lexeme = .word "visible")
    (hmenu : s.frame.entry.kind = .menu)
    (h : ctx.readExtra Directive.readVisible s.frame.entry = .ok result) :
    ∃ p', Takes fs' s' token' ctx' p' ∧
      Progress.Twins k (Ahead g low low') (s.update result) p' := by
  obtain ⟨hlex', hin⟩ := m.atWord hlex
  obtain ⟨result', hread, he, hctx⟩ := hin.readExtra m.abreast.proper m.frames.frame.entry
    Directive.readVisible_blind Directive.readVisible_leaves h
  exact ⟨_, .visible hlex' (m.kind.trans hmenu) hread,
    m.frames.update he (hctx.ahead fun _ _ h => h)⟩

lemma mainMenu (m : Met fs fs' g k low low' s s' token token' ctx ctx') {place : Location}
    {result : Entry × Context} (hlex : token.lexeme = .word word)
    (hmain : BlockKeyword.ofWord? word = some .mainMenu) (hmenu : s.frame.entry.kind = .menu)
    (htop : s.frame.isTop = true) (hprompt : s.frame.entry.head.prompt = none)
    (h : ctx.readDirective .prompt word
      (s.frame.entry.setHead { s.frame.entry.head with location := place }) = .ok result) :
    ∃ p', Takes fs' s' token' ctx' p' ∧
      Progress.Twins k (Ahead g low low') (s.update result) p' := by
  obtain ⟨hlex', hin⟩ := m.atWord hlex
  obtain ⟨place', hplace'⟩ := hin.location
  have hentry : (s'.frame.entry.setHead
        { s'.frame.entry.head with location := place' }).unlocated =
      (s.frame.entry.setHead { s.frame.entry.head with location := place }).unlocated := by
    rw [Entry.unlocated_setHead, Entry.unlocated_setHead, m.frames.frame.entry]
    exact congrArg (Entry.setHead · _) (Entry.head_of_unlocated m.frames.frame.entry)
  obtain ⟨result', hread, he, hctx⟩ := hin.readDirective m.abreast.proper hentry h
  exact ⟨_, .mainMenu hlex' hmain (m.kind.trans hmenu) (m.frames.frame.isTop.trans htop)
    ((Entry.prompt_of_unlocated m.frames.frame.entry).trans hprompt) hplace' hread,
    m.frames.update he (hctx.ahead fun _ _ h => h)⟩

lemma header (m : Met fs fs' g k low low' s s' token token' ctx ctx') {keyword : BlockKeyword}
    {opening : Opening} {opened : Frame × Context} (hlex : token.lexeme = .word word)
    (hkeyword : BlockKeyword.ofWord? word = some keyword)
    (hopening : keyword.opening? = some opening)
    (hholds : s.frame.entry.kind.holds opening.kind = true)
    (h : ctx.openFrame opening = .ok opened) :
    ∃ p', Takes fs' s' token' ctx' p' ∧
      Progress.Twins k (Ahead g low low') (s.descend opened) p' := by
  obtain ⟨hlex', hin⟩ := m.atWord hlex
  obtain ⟨opened', hopen, hframe, hctx⟩ := hin.openFrame m.abreast.proper m.abreast.length h
  rw [← m.kind] at hholds
  exact ⟨_, .header hlex' hkeyword hopening hholds hopen,
    m.frames.descend hframe (hctx.ahead fun _ _ h => h)⟩

lemma source (m : Met fs fs' g k low low' s s' token token' ctx ctx') {kind : SourceKind}
    (hnew : ∀ name, c.visited = ctx.visited ++ [name] →
      fs'.look (Path.join ctx.root name) = fs.look (Path.join ctx.root name))
    (hlex : token.lexeme = .word word)
    (hkeyword : BlockKeyword.ofWord? word = some (.source kind))
    (hblock : s.frame.entry.kind.isBlock = true) (h : ctx.readSource fs kind = .ok c) :
    ∃ p', Takes fs' s' token' ctx' p' ∧ Progress.Twins k (Ahead g low low') (s.goOn c) p' := by
  have hg := m.abreast.proper
  obtain ⟨hlex', hin⟩ := m.atWord hlex
  obtain ⟨c', hsource, hctx⟩ :=
    hin.readSource m.abreast.alike m.abreast.directory m.abreast.names hnew h
  rw [← m.kind] at hblock
  refine ⟨_, .source hlex' hkeyword hblock hsource, m.frames.goOn (hctx.mono ?_)⟩
  rintro (⟨s, t, hs, ht, hst⟩ | ⟨name, bytes, below, below', hs, ht, s, t, hs', ht', hst⟩)
  · exact .inl ⟨s, t, hs, ht, hst.meets hg⟩
  · exact .inr ⟨name, bytes, below, below', hs, ht, s, t, hs', ht', hst.meets hg⟩

lemma openIf (m : Met fs fs' g k low low' s s' token token' ctx ctx')
    (hlex : token.lexeme = .word word) (hkeyword : BlockKeyword.ofWord? word = some .openIf)
    (hblock : s.frame.entry.kind.isBlock = true) (h : ctx.readIf = .ok c) :
    ∃ p', Takes fs' s' token' ctx' p' ∧ Progress.Twins k (Ahead g low low') (s.goOn c) p' := by
  obtain ⟨hlex', hin⟩ := m.atWord hlex
  obtain ⟨c', hif, hctx⟩ := hin.readIf h
  rw [← m.kind] at hblock
  exact ⟨_, .openIf hlex' hkeyword hblock hif, m.goOn hctx⟩

lemma closeIf (m : Met fs fs' g k low low' s s' token token' ctx ctx')
    (hlex : token.lexeme = .word word) (hkeyword : BlockKeyword.ofWord? word = some .closeIf)
    (hblock : s.frame.entry.kind.isBlock = true) (h : ctx.readEndif = .ok c) :
    ∃ p', Takes fs' s' token' ctx' p' ∧ Progress.Twins k (Ahead g low low') (s.goOn c) p' := by
  obtain ⟨c', hendif, hctx⟩ := m.along.readEndif h
  rw [← m.kind] at hblock
  exact ⟨_, .closeIf (m.atWord hlex).1 hkeyword hblock hendif, m.goOn hctx⟩

lemma blockEnd (m : Met fs fs' g k low low' s s' token token' ctx ctx') {keyword : BlockKeyword}
    (hlex : token.lexeme = .word word) (hkeyword : BlockKeyword.ofWord? word = some keyword)
    (hends : s.frame.entry.kind.endKeyword? = some keyword)
    (htop : s.frame.entry.kind = .menu → s.frame.isTop = false)
    (h : ctx.checkBlockEnd s.frame.entry word s.frame.depth s.frame.scope = .ok ()) :
    ∃ p', Takes fs' s' token' ctx' p' ∧ Progress.Twins k (Ahead g low low') (s.close ctx) p' := by
  obtain ⟨hdepth, hscope⟩ := checkBlockEnd_eq_ok h
  have hdepth' : ctx'.depth = s'.frame.depth := by
    obtain ⟨ha, hb⟩ := m.along.depth
    have hlow := m.abreast.length
    rw [m.frames.frame.depth]
    omega
  have hscope' : ctx'.scope = s'.frame.scope := by
    rw [m.along.scope, hscope, m.frames.frame.scope]
  rw [← m.kind] at hends htop
  rw [← m.frames.frame.isTop] at htop
  exact ⟨_, .blockEnd (m.atWord hlex).1 hkeyword hends htop (checkBlockEnd_of_eq hdepth' hscope'),
    m.frames.close (m.along.ahead fun _ _ h => h.meets m.abreast.proper)⟩

lemma leafEnd (m : Met fs fs' g k low low' s s' token token' ctx ctx')
    (hleaf : s.frame.entry.kind.isBlock = false)
    (hlex : token.lexeme = .fileEnd ∨
      ∃ word, token.lexeme = .word word ∧ BlockKeyword.ofWord? word ≠ none)
    (h : ctx.pushBack = .ok c) :
    ∃ p', Takes fs' s' token' ctx' p' ∧ Progress.Twins k (Ahead g low low') (s.close c) p' := by
  obtain ⟨c', hback, hctx⟩ := m.back _ h
  rw [← m.kind] at hleaf
  rw [← m.lexeme] at hlex
  exact ⟨_, .leafEnd hleaf hlex hback, m.frames.close (hctx.ahead fun _ _ h => h.meets)⟩

/-- A step that the first state makes with a lexeme is made by the second one with the same
lexeme. -/
theorem twin {p : Progress} (m : Met fs fs' g k low low' s s' token token' ctx ctx')
    (hnew : ∀ name, p.ctx.visited = ctx.visited ++ [name] →
      fs'.look (Path.join ctx.root name) = fs.look (Path.join ctx.root name))
    (h : Takes fs s token ctx p) :
    ∃ p', Takes fs' s' token' ctx' p' ∧ Progress.Twins k (Ahead g low low') p p' := by
  cases h with
  | lineEnd hlex => exact ⟨_, .lineEnd (m.lexeme.trans hlex), m.goOn m.along⟩
  | skip hlex h => exact m.skip hlex h
  | directive hlex hnone hvisible hdirective hknown h =>
    exact m.directive hlex hnone hvisible hdirective hknown h
  | visible hlex hmenu h => exact m.visible hlex hmenu h
  | mainMenu hlex hmain hmenu htop hprompt _ h => exact m.mainMenu hlex hmain hmenu htop hprompt h
  | header hlex hkeyword hopening hholds h => exact m.header hlex hkeyword hopening hholds h
  | source hlex hkeyword hblock h => exact m.source hnew hlex hkeyword hblock h
  | openIf hlex hkeyword hblock h => exact m.openIf hlex hkeyword hblock h
  | closeIf hlex hkeyword hblock h => exact m.closeIf hlex hkeyword hblock h
  | blockEnd hlex hkeyword hends htop h => exact m.blockEnd hlex hkeyword hends htop h
  | leafEnd hleaf hlex h => exact m.leafEnd hleaf hlex h
  | fileEnd hlex => exact absurd hlex m.ne_fileEnd
  | topEnd hlex => exact absurd hlex m.ne_fileEnd

end Met

/-- Entries that hold no others end in front of the lexeme. -/
def Lexeme.EndsLeaf (lexeme : Lexeme) : Prop :=
  lexeme = .fileEnd ∨ ∃ word, lexeme = .word word ∧ BlockKeyword.ofWord? word ≠ none

lemma Fork.endsLeaf {texts : List (List Char)} {lexeme : Lexeme} {lexemes : List Lexeme}
    (hleads : ∀ line ∈ texts.head?, Line.Leads line) (h : lexeme :: lexemes = firstLexemes texts) :
    lexeme.EndsLeaf := by
  cases texts with
  | nil => exact .inl (List.cons.inj h).1
  | cons line texts =>
    obtain ⟨word, front, hword, hscan⟩ := (hleads line rfl).scan
    exact .inr ⟨word, (List.cons.inj (h.trans hscan)).1, hword⟩

lemma Lexeme.EndsLeaf.convertible {lexeme : Lexeme} (h : lexeme.EndsLeaf) :
    lexeme.excessDigits? = none := by
  rcases h with rfl | ⟨word, rfl, -⟩ <;> rfl

/-- Where the first file goes on with a lexeme that can be delivered, so does the second one. -/
lemma Fork.Loaded.convertible {g : Fork} {v w : View} (h : g.Loaded v w) (hg : g.Proper)
    (hdigits : ∀ lexeme ∈ v.lexemes.head?, lexeme.excessDigits? = none) :
    ∀ lexeme ∈ w.lexemes.head?, lexeme.excessDigits? = none := by
  rcases h with hinside | hapart
  · rwa [hinside.lexemes]
  · intro lexeme hhead
    obtain ⟨lexemes, hlexemes⟩ := List.head?_eq_some_iff.1 hhead
    have hends := Fork.endsLeaf (fun line hline => (hg.right line hline).1)
      (hlexemes.symm.trans hapart.lexemes')
    exact hends.convertible

lemma Takes.leaf {fs : FileSystem} {s : State} {token : Token} {ctx : Context} {p : Progress}
    (hleaf : s.frame.entry.kind.isBlock = false) (hends : token.lexeme.EndsLeaf)
    (h : Takes fs s token ctx p) : ∃ c, ctx.pushBack = .ok c ∧ p = s.close c := by
  have hblock : ¬s.frame.entry.kind.isBlock = true := by simp [hleaf]
  have hmenu : s.frame.entry.kind ≠ .menu := fun hmenu => hblock (by rw [hmenu]; rfl)
  have hnone : ∀ {word}, token.lexeme = .word word → BlockKeyword.ofWord? word ≠ none := by
    intro word hlex
    rcases hends with hend | ⟨word', hlex', hword⟩
    · rw [hlex] at hend
      cases hend
    · rw [hlex] at hlex'
      cases hlex'
      exact hword
  cases h with
  | lineEnd hlex =>
    rw [hlex] at hends
    rcases hends with hend | ⟨word, hword, -⟩
    · cases hend
    · cases hword
  | skip hlex h =>
    rcases hends with hend | ⟨word, hword, hne⟩
    · rw [hend] at hlex
      cases hlex
    · rw [hword, Entry.unknown?, if_pos (.inl hne)] at hlex
      cases hlex
  | directive hlex hword => exact absurd hword (hnone hlex)
  | visible hlex hkind => exact absurd hkind hmenu
  | mainMenu hlex hword hkind => exact absurd hkind hmenu
  | header hlex hword hopening hholds =>
    cases hkind : s.frame.entry.kind with
    | choice => exact absurd (by rw [hkind]; rfl) hblock
    | menu => exact absurd hkind hmenu
    | _ =>
      rw [hkind] at hholds
      cases hholds
  | source hlex hword hblock' => exact absurd hblock' hblock
  | openIf hlex hword hblock' => exact absurd hblock' hblock
  | closeIf hlex hword hblock' => exact absurd hblock' hblock
  | blockEnd hlex hword hkeyword =>
    rw [EntryKind.endKeyword?_of_leaf hleaf] at hkeyword
    cases hkeyword
  | leafEnd hleaf hlex h => exact ⟨_, h, rfl⟩
  | fileEnd hlex hblock' => exact absurd hblock' hblock
  | topEnd hlex hkind => exact absurd hkind hmenu

lemma Takes.source_eq {fs : FileSystem} {s : State} {token : Token} {ctx : Context} {p : Progress}
    (hblock : s.frame.entry.kind.isBlock = true) (hlex : token.lexeme = .word "source")
    (h : Takes fs s token ctx p) : ∃ c, ctx.readSource fs {} = .ok c ∧ p = s.goOn c := by
  have hsource : BlockKeyword.ofWord? "source" = some (.source {}) := rfl
  have hkeyword : ∀ {word keyword}, token.lexeme = .word word →
      BlockKeyword.ofWord? word = some keyword → keyword = .source {} := by
    intro word keyword hlex' hword
    rw [hlex] at hlex'
    cases hlex'
    exact Option.some.inj (hword.symm.trans hsource)
  cases h with
  | source hlex' hword hblock h =>
    cases hkeyword hlex' hword
    exact ⟨_, h, rfl⟩
  | header hlex' hword hopening =>
    cases hkeyword hlex' hword
    cases hopening
  | blockEnd hlex' hword hends =>
    cases hkeyword hlex' hword
    cases hkind : s.frame.entry.kind <;> simp [hkind, EntryKind.endKeyword?] at hends
  | mainMenu hlex' hword => exact nomatch hkeyword hlex' hword
  | openIf hlex' hword => exact nomatch hkeyword hlex' hword
  | closeIf hlex' hword => exact nomatch hkeyword hlex' hword
  | _ => simp_all [Entry.unknown?]

/-- The tokens with which the files part have been delivered in both runs. -/
structure Parted (g : Fork) (low low' : List TokenStream) (s s' : State) (token token' : Token)
    (ctx ctx' : Context) : Prop where
  next : s.ctx.next = .ok (token, ctx)
  next' : s'.ctx.next = .ok (token', ctx')
  ctx : Context.Twins
    (Over (fun v w => g.Apart (v.push token.lexeme) (w.push token'.lexeme)) low low') ctx ctx'

/-- The second state makes the same step as the first one, unless a block of the first one reads
what the files part with. -/
theorem State.Twins.step {fs fs' : FileSystem} {g : Fork} {k : Nat} {low low' : List TokenStream}
    {s s' : State} {p : Progress} (habreast : Abreast fs fs' g k low low')
    (h : State.Twins k (Over g.Meets low low') s s')
    (hnew : ∀ name, p.ctx.visited = s.ctx.visited ++ [name] →
      fs'.look (Path.join s.ctx.root name) = fs.look (Path.join s.ctx.root name))
    (hstep : s.step fs = .ok p) :
    (∃ p', s'.step fs' = .ok p' ∧ Progress.Twins k (Ahead g low low') p p') ∨
      ∃ token token' ctx ctx', Parted g low low' s s' token token' ctx ctx' ∧
        s.frame.entry.kind.isBlock = true ∧ Takes fs s token ctx p := by
  obtain ⟨token, ctx, hnext, htakes⟩ := takes_of_step hstep
  obtain ⟨token', ctx', hnext', hctx, hback⟩ :=
    h.ctx.next (P := g.Loaded) (fun v w v' hvw hload => hvw.load v' hload)
      (fun v w hvw => hvw.convertible habreast.proper) hnext
  obtain ⟨t, t', ht, ht', hloaded⟩ := hctx.files
  have hremains := remains_next hnext
  rcases hloaded with hinside | hapart
  · have hlexeme : token'.lexeme = token.lexeme := (List.cons.inj hinside.lexemes).1
    rw [hlexeme] at hinside
    have hmet : Met fs fs' g k low low' s s' token token' ctx ctx' :=
      ⟨habreast, h.toFramed, hlexeme, { hctx with files := ⟨t, t', ht, ht', hinside⟩ }, hback⟩
    have hnew' : ∀ name, p.ctx.visited = ctx.visited ++ [name] →
        fs'.look (Path.join ctx.root name) = fs.look (Path.join ctx.root name) := by
      intro name hname
      rw [hremains.reads.root]
      exact hnew name (hname.trans (congrArg (· ++ [name]) hremains.visited))
    obtain ⟨p', htakes', hp⟩ := hmet.twin hnew' htakes
    exact .inl ⟨p', step_of_takes hnext' htakes', hp⟩
  · by_cases hblock : s.frame.entry.kind.isBlock = true
    · exact .inr ⟨token, token', ctx, ctx', ⟨hnext, hnext',
        { hctx with files := ⟨t, t', ht, ht', hapart⟩ }⟩, hblock, htakes⟩
    · have hg := habreast.proper
      have hleaf : s.frame.entry.kind.isBlock = false := by simpa using hblock
      have hleaf' := hleaf
      rw [← Entry.kind_of_unlocated h.frame.entry] at hleaf'
      obtain ⟨c, hpush, rfl⟩ :=
        htakes.leaf hleaf (Fork.endsLeaf (fun l hl => (hg.left l hl).1) hapart.lexemes)
      obtain ⟨c', hpush', hloaded⟩ := hback c hpush
      have hends := Fork.endsLeaf (fun l hl => (hg.right l hl).1) hapart.lexemes'
      exact .inl ⟨_, step_of_takes hnext' (.leafEnd hleaf' hends hpush'),
        h.toFramed.close (hloaded.ahead fun v w h => h.meets)⟩

end Kconfig
