import Kconfig.Proofs.Agreement.Requests

/-!
# Runs that agree

From contexts that agree, a step of a run leads to contexts that agree, apart from the opening of a
file.
-/

namespace Kconfig

/-- What a step from the state `s` leads to in two runs. The contexts after the opening of a file
are related by `S`, and those after all other steps agree. -/
inductive Progress.Agrees (w : Leeway) (S : Context → Context → Prop) (s : State) :
    Progress → Progress → Prop
  | running {a b : Context} {frame : Frame} {outer : List Frame} (h : a.Agrees w b) :
    Progress.Agrees w S s (.running { ctx := a, frame, outer })
      (.running { ctx := b, frame, outer })
  | sourced {a b : Context} (hblock : s.frame.entry.kind.isBlock = true) (h : S a b) :
    Progress.Agrees w S s (s.goOn a) (s.goOn b)
  | finished {a b : Context} {e : Entry} (h : a.Agrees w b) :
    Progress.Agrees w S s (.finished e a) (.finished e b)

namespace State

open Context

variable {fs fs' : FileSystem} {w : Leeway} {S : Context → Context → Prop} {a b : Context}
  {s : State}

lemma update_agrees {r r' : Entry × Context} (h : AgreesWith w r r') :
    Progress.Agrees w S s (s.update r) (s.update r') := by
  obtain ⟨e, a⟩ := r
  obtain ⟨e', b⟩ := r'
  cases h.1
  exact .running h.2

lemma descend_agrees {r r' : Frame × Context} (h : AgreesWith w r r') :
    Progress.Agrees w S s (s.descend r) (s.descend r') := by
  obtain ⟨frame, a⟩ := r
  obtain ⟨frame', b⟩ := r'
  cases h.1
  exact .running h.2

lemma close_agrees (h : a.Agrees w b) : Progress.Agrees w S s (s.close a) (s.close b) := by
  have hentry := h.register (s.frame.entry.finish s.frame.scope)
  unfold close
  dsimp only
  split
  · exact .finished hentry
  · exact .running hentry

lemma stepDirective_agrees (h : a.Agrees w b) (word : String) :
    Agree w.lax (Progress.Agrees w S s) (s.stepDirective a word) (s.stepDirective b word) := by
  unfold stepDirective
  dsimp only
  split
  · split
    · exact (h.readDirective _ _ _).bind fun _ _ => update_agrees
    · exact (h.unrecognized _ _).bind fun _ _ => .running
  · exact (h.unrecognized _ _).bind fun _ _ => .running

lemma stepLeaf_agrees (h : a.Agrees w b) (word : String) :
    Agree w.lax (Progress.Agrees w S s) (s.stepLeaf a word) (s.stepLeaf b word) := by
  unfold stepLeaf
  split
  · exact h.pushBack.bind fun _ _ => close_agrees
  · exact stepDirective_agrees h word

lemma blockEnd_agrees (h : a.Agrees w b) (word : String) :
    Agree w.lax (Progress.Agrees w S s)
      (do
        a.checkBlockEnd s.frame.entry word s.frame.depth s.frame.scope
        return s.close a)
      (do
        b.checkBlockEnd s.frame.entry word s.frame.depth s.frame.scope
        return s.close b) :=
  (h.checkBlockEnd _ _ _ _).bind_eq fun _ => close_agrees h

lemma stepMainMenu_agrees (h : a.Agrees w b) (word : String) :
    Agree w.lax (Progress.Agrees w S s) (s.stepMainMenu a word) (s.stepMainMenu b word) := by
  unfold stepMainMenu
  dsimp only
  split
  · exact h.fail _
  · split
    · exact h.fail _
    · refine h.location.bind_eq fun place => ?_
      exact (h.readDirective _ _ _).bind fun _ _ => update_agrees

lemma stepFileEnd_agrees (h : a.Agrees w b) :
    Agree w.lax (Progress.Agrees w S s) (s.stepFileEnd a) (s.stepFileEnd b) := by
  unfold stepFileEnd
  dsimp only
  rw [h.depth, h.scope]
  split
  · exact h.pushBack.bind fun _ _ => close_agrees
  · exact h.pushBack.bind fun _ _ => close_agrees
  · split
    · exact .running h.closeFile
    · exact h.fail _
  · split
    · exact .running h.closeFile
    · split
      · exact h.fail _
      · split
        · exact h.fail _
        · exact close_agrees h

section Source

variable (hsource : ∀ {a b : Context} (kind : SourceKind), a.Agrees w b →
  Agree w.lax S (a.readSource fs kind) (b.readSource fs' kind))

include hsource

lemma stepChoice_agrees (hblock : s.frame.entry.kind.isBlock = true) (h : a.Agrees w b)
    (word : String) :
    Agree w.lax (Progress.Agrees w S s) (s.stepChoice fs a word) (s.stepChoice fs' b word) := by
  unfold stepChoice
  dsimp only
  split
  · exact stepDirective_agrees h word
  · exact blockEnd_agrees h word
  · exact (h.openConfig _ _).bind fun _ _ => descend_agrees
  · exact (h.openPrompted _ _).bind fun _ _ => descend_agrees
  · exact (hsource _ h).bind fun _ _ => .sourced hblock
  · exact h.readIf.bind fun _ _ => .running
  · exact h.readEndif.bind fun _ _ => .running
  all_goals exact h.fail _

lemma stepMenu_agrees (hblock : s.frame.entry.kind.isBlock = true) (h : a.Agrees w b)
    (word : String) :
    Agree w.lax (Progress.Agrees w S s) (s.stepMenu fs a word) (s.stepMenu fs' b word) := by
  unfold stepMenu
  dsimp only
  split
  · split
    · exact (h.readExtra _ _).bind fun _ _ => update_agrees
    · exact stepDirective_agrees h word
  · split
    · exact h.fail _
    · exact blockEnd_agrees h word
  · exact (h.openConfig _ _).bind fun _ _ => descend_agrees
  · exact h.openChoice.bind fun _ _ => descend_agrees
  · exact (h.openPrompted _ _).bind fun _ _ => descend_agrees
  · exact (h.openPrompted _ _).bind fun _ _ => descend_agrees
  · exact (hsource _ h).bind fun _ _ => .sourced hblock
  · exact h.readIf.bind fun _ _ => .running
  · exact h.readEndif.bind fun _ _ => .running
  · exact h.fail _
  · exact stepMainMenu_agrees h word

/-- From contexts that agree, a step leads to contexts that agree, up to the opening of a file. -/
theorem step_agrees (h : s.ctx.Agrees w b) :
    Agree w.lax (Progress.Agrees w S s) (s.step fs) ({ s with ctx := b }.step fs') := by
  unfold step
  refine h.next.bind_with fun token a' b' hab => ?_
  dsimp only
  split
  · exact stepFileEnd_agrees hab
  · exact .running hab
  · split
    · exact stepLeaf_agrees hab _
    · exact stepLeaf_agrees hab _
    · rename_i hentry
      exact stepChoice_agrees hsource (by rw [hentry]; rfl) hab _
    · rename_i hentry
      exact stepMenu_agrees hsource (by rw [hentry]; rfl) hab _
  · exact (hab.unrecognized _ _).bind fun _ _ => .running

end Source

end State

end Kconfig
