import Kconfig.Source
import Mathlib.Tactic.Lemma

/-!
# Remarks

What a directive or a path gives rise to is a remark. The other findings are text that was passed
over and symbols that are defined again, each of which has an area of its own in the report.
-/

namespace Kconfig

/-- The finding is neither about text that was passed over nor about a symbol that is defined
again. -/
def Finding.IsRemark : Finding → Prop
  | .textSkipped _ _ => False
  | .redefined _ _ => False
  | _ => True

/-- The finding is about a symbol that is defined again. -/
def Finding.Redefines : Finding → Prop
  | .redefined _ _ => True
  | _ => False

lemma Finding.IsRemark.not_redefines {finding : Finding} (h : finding.IsRemark) :
    ¬finding.Redefines := by
  cases finding with
  | redefined symbol places => exact h.elim
  | _ => exact id

lemma Report.multiple_add (report : Report) {finding : Finding} (h : ¬finding.Redefines) :
    (report.add finding).multiple = report.multiple := by
  cases finding with
  | redefined symbol places => exact (h True.intro).elim
  | _ => rfl

lemma Context.multiple_note (ctx : Context) {findings : List Finding}
    (h : ∀ finding ∈ findings, ¬finding.Redefines) :
    (ctx.note findings).report.multiple = ctx.report.multiple := by
  induction findings generalizing ctx with
  | nil => rfl
  | cons finding findings ih =>
    have hrest := ih (ctx.note [finding]) fun f hf => h f (List.mem_cons_of_mem _ hf)
    have hfirst := Report.multiple_add ctx.report (h finding List.mem_cons_self)
    exact hrest.trans hfirst

namespace Directive

lemma isRemark_slipFindings (site : Site) (slips : List Slip) :
    ∀ finding ∈ slipFindings site slips, finding.IsRemark := by
  intro finding hfinding
  obtain ⟨slip, -, rfl⟩ := List.mem_map.1 hfinding
  exact True.intro

lemma isRemark_applyPrompt (site : Site) (slips : List Slip) (p : Prompt) (e : Entry) :
    ∀ finding ∈ (applyPrompt site slips p e).2, finding.IsRemark := by
  intro finding hfinding
  simp only [applyPrompt, List.mem_append] at hfinding
  rcases hfinding with (hfinding | hfinding) | hfinding
  · split at hfinding
    · cases hfinding
    · cases List.mem_singleton.1 hfinding
      exact True.intro
  · exact isRemark_slipFindings site slips finding hfinding
  · split at hfinding
    · cases List.mem_singleton.1 hfinding
      exact True.intro
    · cases hfinding

lemma isRemark_apply (environment : Environment) (site : Site) (slips : List Slip) (d : Directive)
    (e : Entry) : ∀ finding ∈ (apply environment site slips d e).2, finding.IsRemark := by
  have hnoted := isRemark_slipFindings site slips
  have hmore : ∀ more : List Finding, (∀ finding ∈ more, finding.IsRemark) →
      ∀ finding ∈ slipFindings site slips ++ more, finding.IsRemark := by
    intro more hmore finding hfinding
    rcases List.mem_append.1 hfinding with hfinding | hfinding
    · exact hnoted finding hfinding
    · exact hmore finding hfinding
  cases d with
  | prompt p => exact isRemark_applyPrompt site slips p e
  | type t p =>
    cases p with
    | none => exact hnoted
    | some p => exact isRemark_applyPrompt _ slips p _
  | default t value => cases t <;> exact hnoted
  | depends condition => exact hnoted
  | select value => exact hnoted
  | imply value => exact hnoted
  | range r => exact hnoted
  | env name =>
    unfold apply
    dsimp only
    split
    · exact hnoted
    · exact hmore _ (List.forall_mem_singleton.2 True.intro)
  | otherOption name => exact hmore _ (List.forall_mem_singleton.2 True.intro)
  | help text =>
    cases text with
    | none => exact hmore _ (List.forall_mem_singleton.2 True.intro)
    | some text =>
      refine hmore _ fun finding hfinding => ?_
      split at hfinding
      · cases List.mem_singleton.1 hfinding
        exact True.intro
      · cases hfinding
  | optional => cases e <;> exact hnoted
  | visible condition => cases e <;> exact hnoted

end Directive

lemma SourceKind.isRemark_extraFindings (kind : SourceKind) (start : Location)
    (texts : List String) : ∀ finding ∈ kind.extraFindings start texts, finding.IsRemark := by
  intro finding hfinding
  unfold extraFindings at hfinding
  dsimp only at hfinding
  split at hfinding
  · cases hfinding
  · cases List.mem_singleton.1 hfinding
    exact True.intro

lemma SourceKind.isRemark_missing (kind : SourceKind) (start : Location)
    (name path : Text.Loose) :
    ∀ finding ∈ [kind.missing start name path], finding.IsRemark := by
  refine List.forall_mem_singleton.2 ?_
  unfold missing
  split <;> exact True.intro

end Kconfig
