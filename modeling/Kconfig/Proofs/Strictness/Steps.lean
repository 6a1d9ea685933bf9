import Kconfig.Proofs.Strictness.Requests

/-!
# Steps of strict and lenient runs

A step does the same in a strict run and in a lenient one, unless it meets unknown text: the strict
run ends there, and the lenient one records what it has passed over and goes on.
-/

namespace Kconfig

namespace Context

namespace Eased

variable {fs : FileSystem} {c a b : Context}

lemma substitute (h : c.Eased a b) (text : String) :
    Parallel Eq (a.substitute text) (b.substitute text) := by
  cases h.eq
  refine Parallel.same (Q := fun _ => True) ?_
  unfold Context.substitute
  split <;> exact True.intro

lemma openFile (h : c.Eased a b) (name : String) :
    Parallel c.Eased (a.openFile fs name) (b.openFile fs name) := by
  cases h.eq
  unfold Context.openFile
  dsimp only [lenient]
  split
  · exact ⟨rfl, h.strict, h.skipped⟩
  all_goals exact ⟨rfl, True.intro⟩

lemma openSource (h : c.Eased a b) (kind : SourceKind) (start : Location) (target : String) :
    Parallel c.Eased (a.openSource fs kind start target) (b.openSource fs kind start target) := by
  have hopen : Parallel c.Eased (a.openFile fs target) (b.openFile fs target) := h.openFile target
  unfold Context.openSource
  rw [h.root, h.isOpen, h.includePath]
  split
  · exact h.fail True.intro
  · split
    · exact h.fail True.intro
    · rcases hopen.split with ⟨fault, hknown, ha, hb⟩ | ⟨a', b', ha, hb, hab⟩
      · rw [ha, hb]
        cases fault with
        | missingFile name path => exact h.remarks (kind.isRemark_missing _ _ _)
        | _ => exact ⟨rfl, hknown⟩
      · rw [ha, hb]
        exact hab

lemma openLoose (h : c.Eased a b) (kind : SourceKind) (start : Location) (target : Text.Loose) :
    Parallel c.Eased (a.openLoose fs kind start target) (b.openLoose fs kind start target) := by
  unfold Context.openLoose
  rw [h.root, h.isOpen, h.includePath]
  dsimp only
  split
  · exact h.fail True.intro
  · split
    · exact ⟨rfl, True.intro⟩
    · split
      · exact ⟨rfl, True.intro⟩
      · split
        · exact h.remarks (kind.isRemark_missing _ _ _)
        · exact h.remarks (kind.isRemark_missing _ _ _)
        · exact ⟨rfl, True.intro⟩

lemma readSource (h : c.Eased a b) (kind : SourceKind) :
    Parallel c.Eased (a.readSource fs kind) (b.readSource fs kind) := by
  refine h.location.bind_eq fun start => ?_
  refine (h.readLine kind.readPath_yields).bind_eased fun r a' b' hab => ?_
  have hnoted := hab.remarks (kind.isRemark_extraFindings start r.value.2)
  refine (hnoted.substitute _).bind_eq fun path => ?_
  split
  · exact hnoted.fail True.intro
  · refine hnoted.current.bind_eq fun s => ?_
    unfold openTarget
    split
    · exact hnoted.openSource kind start _
    · exact hnoted.openLoose kind start _

lemma opened (h : c.Eased a b) (entry : Entry) :
    c.EasedWith (({ entry, scope := a.scope, depth := a.depth } : Frame), a)
      ({ entry, scope := b.scope, depth := b.depth }, b) := by
  refine ⟨?_, h⟩
  rw [h.scope, h.depth]

lemma openConfig (h : c.Eased a b) (isMenu : Bool) (keyword : String) :
    Parallel c.EasedWith (Frame.openConfig a isMenu keyword)
      (Frame.openConfig b isMenu keyword) := by
  refine h.location.bind_eq fun place => ?_
  refine h.next.bind_eased fun token a' b' hab => ?_
  dsimp only
  split
  · exact hab.fail True.intro
  · exact ⟨(hab.opened _).1, hab.define _⟩

lemma openPrompted (h : c.Eased a b) (keyword : String) (declared : Location → Entry) :
    Parallel c.EasedWith
      (do
        let location ← a.location
        let (entry, ctx) ← a.readDirective .prompt keyword (declared location)
        return (({ entry, scope := ctx.scope, depth := ctx.depth } : Frame), ctx))
      (do
        let location ← b.location
        let (entry, ctx) ← b.readDirective .prompt keyword (declared location)
        return (({ entry, scope := ctx.scope, depth := ctx.depth } : Frame), ctx)) := by
  refine h.location.bind_eq fun place => ?_
  refine (h.readDirective _ _ _).bind_eased fun entry a' b' hab => ?_
  exact hab.opened entry

lemma openChoice (h : c.Eased a b) :
    Parallel c.EasedWith (Frame.openChoice a) (Frame.openChoice b) := by
  refine h.location.bind_eq fun place => ?_
  refine h.next.bind_eased fun token a' b' hab => ?_
  dsimp only
  split
  · exact hab.pushBack.bind fun a'' b'' hab => hab.opened _
  · exact hab.opened _

lemma skipLine (h : c.Eased a b) : Parallel c.EasedWith a.skipLine b.skipLine := by
  have hread := readRest_yields (P := fun _ => True) (" ".intercalate ·) fun _ => True.intro
  exact (h.readLine hread).bind_eased fun r a' b' hab => ⟨rfl, hab⟩

lemma unrecognized (h : c.Eased a b) (kind : EntryKind) (first : String) :
    (∃ fault : Fault, fault.Known ∧ a.unrecognized kind first = .error fault ∧
      b.unrecognized kind first = .error fault) ∨
    ∃ place text b',
      (a.strict = true → a.unrecognized kind first =
        .error (.malformed (some place) (.unrecognized kind text))) ∧
      b.unrecognized kind first = .ok b' ∧ b'.strict = false ∧
      b'.report.skipped = c.report.skipped ++ [(place.text, text)] := by
  unfold Context.unrecognized
  rcases h.skipLine.split with
    ⟨fault, hknown, ha, hb⟩ | ⟨⟨rest, a'⟩, ⟨rest', b'⟩, ha, hb, hrest, hab⟩
  · rw [ha, hb]
    exact .inl ⟨fault, hknown, rfl, rfl⟩
  · rw [ha, hb]
    cases hrest
    cases hab.eq
    obtain ⟨s, below, hfiles⟩ := List.exists_cons_of_ne_nil (skipLine_reads ha).ne_nil
    have hplace : a'.location? = some s.location := by
      rw [location?, hfiles]
      rfl
    have hlocation : a'.lenient.location = .ok s.location := by
      rw [Context.location, Context.current, lenient, hfiles]
      rfl
    let text := (first ++ " " ++ rest).trimBlanks
    refine .inr ⟨s.location, text, a'.lenient.note [.textSkipped s.location text], ?_, ?_, rfl, ?_⟩
    · intro hstrict
      change (if a'.strict = true then Except.error (a'.malformed _) else _) = _
      rw [if_pos (hab.strict.trans (h.strict.symm.trans hstrict)), Context.malformed, hplace]
    · change (a'.lenient.location >>= _) = _
      rw [hlocation]
      rfl
    · rw [← hab.skipped]
      rfl

end Eased

end Context

def State.lenient (s : State) : State :=
  { s with ctx := s.ctx.lenient }

def Progress.lenient : Progress → Progress
  | .running s => .running s.lenient
  | .finished e ctx => .finished e ctx.lenient

/-- The same has been done in both runs, and no text has been passed over since `c`. -/
structure Progress.Eased (c : Context) (p q : Progress) : Prop where
  eq : q = p.lenient
  strict : p.ctx.strict = c.strict
  skipped : p.ctx.report.skipped = c.report.skipped

/-- How a step of a run and that of the lenient run in the same place compare, if both begin in the
context `c` up to strictness. -/
inductive Contrast (c : Context) (x y : Except Fault Progress) : Prop where
  | alike (h : Parallel (Progress.Eased c) x y)
  /-- The lenient run records what the strict one fails at. -/
  | skip {kind : EntryKind} {place : Location} {text : String} {t : State}
    (fails : c.strict = true →
      x = .error (.malformed (some place) (.unrecognized kind text)))
    (goesOn : y = .ok (.running t)) (lenient : t.ctx.strict = false)
    (skipped : t.ctx.report.skipped = c.report.skipped ++ [(place.text, text)])

namespace State

variable {fs : FileSystem} {c a b : Context} {s : State} {r r' : Entry × Context}

lemma goOn_eased (h : c.Eased a b) : (s.goOn a).Eased c (s.goOn b) := by
  cases h.eq
  exact ⟨rfl, h.strict, h.skipped⟩

lemma descend_eased {r r' : Frame × Context} (h : c.EasedWith r r') :
    (s.descend r).Eased c (s.descend r') := by
  obtain ⟨frame, a⟩ := r
  obtain ⟨frame', b⟩ := r'
  cases h.1
  cases h.2.eq
  exact ⟨rfl, h.2.strict, h.2.skipped⟩

lemma update_eased (h : c.EasedWith r r') : (s.update r).Eased c (s.update r') := by
  obtain ⟨e, a⟩ := r
  obtain ⟨e', b⟩ := r'
  cases h.1
  cases h.2.eq
  exact ⟨rfl, h.2.strict, h.2.skipped⟩

lemma close_eased (h : c.Eased a b) : (s.close a).Eased c (s.close b) := by
  have hentry := h.register (s.frame.entry.finish s.frame.scope)
  unfold close
  dsimp only
  split
  · exact ⟨congrArg _ hentry.eq, hentry.strict, hentry.skipped⟩
  · rename_i frame outer _
    exact ⟨congrArg (fun ctx => Progress.running { ctx, frame := _, outer }) hentry.eq,
      hentry.strict, hentry.skipped⟩

lemma alike {α β : Type} {R : α → β → Prop} {x : Except Fault α} {y : Except Fault β}
    {f : α → Progress} {g : β → Progress} (h : Parallel R x y)
    (hfg : ∀ a b, R a b → (f a).Eased c (g b)) :
    Contrast c (do return f (← x)) (do return g (← y)) :=
  .alike (h.bind hfg)

lemma unrecognized_contrast (h : c.Eased a b) (kind : EntryKind) (first : String) :
    Contrast c (do return s.goOn (← a.unrecognized kind first))
      (do return s.goOn (← b.unrecognized kind first)) := by
  rcases h.unrecognized kind first with
    ⟨fault, hknown, ha, hb⟩ | ⟨place, text, b', ha, hb, hlenient, hskipped⟩
  · rw [ha, hb]
    exact .alike ⟨rfl, hknown⟩
  · have hfails : c.strict = true → (do return s.goOn (← a.unrecognized kind first)) =
        .error (.malformed (some place) (.unrecognized kind text)) := by
      intro hstrict
      rw [ha (h.strict.trans hstrict)]
      rfl
    have hgoesOn : (do return s.goOn (← b.unrecognized kind first)) =
        .ok (.running { s with ctx := b' }) := by
      rw [hb]
      rfl
    exact .skip hfails hgoesOn hlenient hskipped

lemma stepDirective_contrast (h : c.Eased a b) (word : String) :
    Contrast c (s.stepDirective a word) (s.stepDirective b word) := by
  unfold stepDirective
  dsimp only
  split
  · split
    · exact alike (h.readDirective _ _ _) fun _ _ => update_eased
    · exact unrecognized_contrast h _ _
  · exact unrecognized_contrast h _ _

lemma stepLeaf_contrast (h : c.Eased a b) (word : String) :
    Contrast c (s.stepLeaf a word) (s.stepLeaf b word) := by
  unfold stepLeaf
  split
  · exact alike h.pushBack fun _ _ => close_eased
  · exact stepDirective_contrast h word

lemma blockEnd_contrast (h : c.Eased a b) (word : String) :
    Contrast c
      (do
        a.checkBlockEnd s.frame.entry word s.frame.depth s.frame.scope
        return s.close a)
      (do
        b.checkBlockEnd s.frame.entry word s.frame.depth s.frame.scope
        return s.close b) :=
  alike (h.checkBlockEnd _ _ _ _) fun _ _ _ => close_eased h

lemma stepChoice_contrast (h : c.Eased a b) (word : String) :
    Contrast c (s.stepChoice fs a word) (s.stepChoice fs b word) := by
  unfold stepChoice
  dsimp only
  split
  · exact stepDirective_contrast h word
  · exact blockEnd_contrast h word
  · exact alike (h.openConfig _ _) fun _ _ => descend_eased
  · exact alike (h.openPrompted _ _) fun _ _ => descend_eased
  · exact alike (h.readSource _) fun _ _ => goOn_eased
  · exact alike h.readIf fun _ _ => goOn_eased
  · exact alike h.readEndif fun _ _ => goOn_eased
  all_goals exact .alike (h.fail True.intro)

lemma stepMainMenu_contrast (h : c.Eased a b) (word : String) :
    Contrast c (s.stepMainMenu a word) (s.stepMainMenu b word) := by
  unfold stepMainMenu
  dsimp only
  split
  · exact .alike (h.fail True.intro)
  · split
    · exact .alike (h.fail True.intro)
    · refine .alike (h.location.bind fun place place' hplace => ?_)
      cases hplace
      exact (h.readDirective _ _ _).bind fun _ _ => update_eased

lemma stepMenu_contrast (h : c.Eased a b) (word : String) :
    Contrast c (s.stepMenu fs a word) (s.stepMenu fs b word) := by
  unfold stepMenu
  dsimp only
  split
  · split
    · exact alike (h.readExtra Directive.readVisible_yields _) fun _ _ => update_eased
    · exact stepDirective_contrast h word
  · split
    · exact .alike (h.fail True.intro)
    · exact blockEnd_contrast h word
  · exact alike (h.openConfig _ _) fun _ _ => descend_eased
  · exact alike h.openChoice fun _ _ => descend_eased
  · exact alike (h.openPrompted _ _) fun _ _ => descend_eased
  · exact alike (h.openPrompted _ _) fun _ _ => descend_eased
  · exact alike (h.readSource _) fun _ _ => goOn_eased
  · exact alike h.readIf fun _ _ => goOn_eased
  · exact alike h.readEndif fun _ _ => goOn_eased
  · exact .alike (h.fail True.intro)
  · exact stepMainMenu_contrast h word

lemma stepFileEnd_contrast (h : c.Eased a b) :
    Contrast c (s.stepFileEnd a) (s.stepFileEnd b) := by
  unfold stepFileEnd
  dsimp only
  rw [h.depth, h.scope]
  split
  · exact alike h.pushBack fun _ _ => close_eased
  · exact alike h.pushBack fun _ _ => close_eased
  · split
    · exact .alike (goOn_eased h.closeFile)
    · exact .alike (h.fail True.intro)
  · split
    · exact .alike (goOn_eased h.closeFile)
    · split
      · exact .alike (h.fail True.intro)
      · split
        · exact .alike (h.fail True.intro)
        · exact .alike (close_eased h)

/-- A step differs from a lenient one only if text is unknown. -/
theorem step_contrast (fs : FileSystem) (s : State) :
    Contrast s.ctx (s.step fs) (s.lenient.step fs) := by
  rcases (Context.Eased.refl s.ctx).next.split with
    ⟨fault, hknown, ha, hb⟩ | ⟨⟨token, a⟩, ⟨token', b⟩, ha, hb, htoken, h⟩
  · have hstep : ∀ {t : State}, t.ctx.next = .error fault → t.step fs = .error fault := by
      intro t ht
      rw [step, ht]
      rfl
    rw [hstep ha, hstep (t := s.lenient) hb]
    exact .alike ⟨rfl, hknown⟩
  · cases htoken
    rw [step_of_next ha, step_of_next (s := s.lenient) hb]
    dsimp only at h ⊢
    split
    · exact stepFileEnd_contrast h
    · exact .alike (goOn_eased h)
    · rename_i word hlex
      have hentry : s.lenient.frame.entry = s.frame.entry := rfl
      rw [hentry]
      split
      · exact stepLeaf_contrast h word
      · exact stepLeaf_contrast h word
      · exact stepChoice_contrast h word
      · exact stepMenu_contrast h word
    · exact unrecognized_contrast h _ _

end State

end Kconfig
