import Kconfig.Proofs.HelpText
import Kconfig.Proofs.Requests
import Kconfig.Source

/-!
# What readers give

A reader of a line gives a value with nothing empty in it where a text has to be, or it has a
problem of its own. No reader finds text unknown: what a line begins with is looked at before a
reader is chosen.
-/

namespace Kconfig

/-- A condition says something. -/
def Condition.Stated (condition : Condition) : Prop :=
  condition.text ≠ ""

structure Conditional.Stated (c : Conditional) : Prop where
  value : c.value ≠ ""
  condition : ∀ condition ∈ c.condition, condition.Stated

def Range.Stated (r : Range) : Prop :=
  ∀ condition ∈ r.condition, condition.Stated

def Prompt.Stated (p : Prompt) : Prop :=
  ∀ condition ∈ p.condition, condition.Stated

/-- No text of the directive is empty that it needs. -/
def Directive.Stated : Directive → Prop
  | .prompt p => p.Stated
  | .type _ p => ∀ prompt ∈ p, prompt.Stated
  | .default _ value => value.Stated
  | .depends condition => condition.Stated
  | .select value => value.Stated
  | .imply value => value.Stated
  | .range r => r.Stated
  | .env _ => True
  | .otherOption _ => True
  | .help text => ∀ t ∈ text, IsHelpText t
  | .optional => True
  | .visible condition => condition.Stated

/-- Problems with a line that begins with something known, and others. -/
def Problem.Known : Problem → Prop
  | .unrecognized _ _ => False
  | _ => True

/-- What a reader fails for that is given a known line. -/
def ReadFailure.Known : ReadFailure → Prop
  | .problem found => found.Known
  | .usedUp => True

/-- The reading gives a value with the property `P`, or a problem with a line that is known. -/
def Yields {α : Type} (P : α → Prop) (result : Except ReadFailure (Reading α)) : Prop :=
  Ensures ReadFailure.Known (fun r => P r.value) result

lemma Yields.map {α β : Type} {P : α → Prop} {Q : β → Prop}
    {result : Except ReadFailure (Reading α)}
    (h : Yields P result) {f : α → β} (hf : ∀ a, P a → Q (f a)) :
    Yields Q (result.map (·.map f)) := by
  cases result with
  | error problem => exact h
  | ok r => exact hf r.value h

lemma readDeliverable_yields {α : Type} {P : α → Prop}
    {read : List Token → Except ReadFailure (Reading α)} (h : ∀ tokens, Yields P (read tokens))
    (tokens : List Token) : Yields P (readDeliverable read tokens) :=
  Ensures.map (h _) fun _ => id

lemma skipRest_ensures (tokens : List Token) :
    Ensures ReadFailure.Known (fun _ => True) (skipRest tokens) := by
  induction tokens with
  | nil => exact True.intro
  | cons token rest ih =>
    rw [skipRest]
    split
    · exact True.intro
    · exact ih.bind fun _ _ _ => True.intro

lemma readRest_yields {α : Type} {P : α → Prop} (value : List String → α)
    (h : ∀ texts, P (value texts)) (tokens : List Token) : Yields P (readRest value tokens) :=
  (skipRest_ensures tokens).map fun _ _ => h _

namespace Expression

lemma stopAt_yields (outer : List Pieces) (pieces : Pieces) (problem : Problem)
    (h : problem.Known) (stop : Stop) :
    Yields (fun _ => True) (stopAt outer pieces problem stop) := by
  cases outer with
  | nil => exact True.intro
  | cons before outer => exact h

lemma withSlip_yields {slip : Slip} {result : Except ReadFailure (Reading String)}
    (h : Yields (fun _ => True) result) : Yields (fun _ => True) (withSlip slip result) := by
  cases result with
  | error problem => exact h
  | ok r => exact True.intro

lemma obstacle_known (lexeme : Lexeme) : (obstacle lexeme).Known := by
  cases lexeme <;> exact True.intro

lemma readFrom_yields (outer : List Pieces) (pieces : Pieces) (tokens : List Token) :
    Yields (fun _ => True) (readFrom outer pieces tokens) := by
  fun_induction readFrom outer pieces tokens with
  | case1 | case3 => exact True.intro
  | case2 _ _ last => exact stopAt_yields _ _ _ (obstacle_known last.lexeme) _
  | case4 | case5 | case6 | case11 => exact stopAt_yields _ _ .parenthesisOpen True.intro _
  | case19 => exact stopAt_yields _ _ (.unexpectedInExpression _) True.intro _
  | case17 | case18 => exact withSlip_yields (by assumption)
  | _ => assumption

lemma readSome_yields (problem : Problem) (h : problem.Known) (tokens : List Token) :
    Yields (· ≠ "") (readSome problem tokens) := by
  have hread := readFrom_yields [] {} tokens
  unfold readSome read
  cases hfrom : readFrom [] {} tokens with
  | error fault =>
    rw [hfrom] at hread
    exact hread
  | ok r =>
    dsimp only
    split
    · exact h
    · rename_i hne
      exact hne

end Expression

namespace Condition

lemma read_yields (tokens : List Token) : Yields Condition.Stated (read tokens) :=
  (Expression.readSome_yields .conditionExpected True.intro tokens).map fun _ h => h

lemma readOptional_yields (tokens : List Token) :
    Yields (fun condition => ∀ c ∈ condition, Condition.Stated c) (readOptional tokens) := by
  unfold readOptional
  split
  · exact True.intro
  · split
    · refine (read_yields _).map fun condition h => ?_
      rintro c ⟨⟩
      exact h
    · exact fun c hc => nomatch hc

end Condition

namespace Directive

lemma readPrompt_yields (keyword : String) (tokens : List Token) :
    Yields Prompt.Stated (readPrompt keyword tokens) := by
  unfold readPrompt
  split
  · exact (Condition.readOptional_yields _).map fun _ h => h
  · exact True.intro
  · exact True.intro

lemma readConditional_yields (keyword : String) (tokens : List Token) :
    Yields Conditional.Stated (readConditional keyword tokens) := by
  unfold readConditional
  have hsome := Expression.readSome_yields (.expressionExpected keyword) True.intro tokens
  refine Ensures.bind hsome fun value _ hvalue => ?_
  refine Ensures.bind (Condition.readOptional_yields _) fun condition _ hcondition => ?_
  exact ⟨hvalue, hcondition⟩

lemma readType_yields (t : ValueType) (keyword : String) (tokens : List Token) :
    Yields Stated (readType t keyword tokens) := by
  unfold readType
  split
  · refine (readPrompt_yields _ _).map fun prompt h => ?_
    rintro p ⟨⟩
    exact h
  · exact fun p hp => nomatch hp
  · exact True.intro

lemma readDepends_yields (tokens : List Token) : Yields Stated (readDepends tokens) := by
  unfold readDepends
  split
  · split
    · exact (Expression.readSome_yields (.expressionExpected "depends on") True.intro _).map
        fun _ h => h
    · exact True.intro
  · exact True.intro

lemma readWord_ensures (problem : String → Problem) (h : ∀ found, (problem found).Known)
    (tokens : List Token) :
    Ensures ReadFailure.Known (fun _ => True) (readWord problem tokens) := by
  unfold readWord
  split
  · split
    · exact True.intro
    · exact h _
  · exact True.intro

lemma readRange_yields (tokens : List Token) : Yields Stated (readRange tokens) := by
  unfold readRange
  refine Ensures.bind (readWord_ensures .boundExpected (fun _ => True.intro) _) fun low _ _ => ?_
  refine Ensures.bind (readWord_ensures .boundExpected (fun _ => True.intro) _) fun high _ _ => ?_
  refine Ensures.bind (Condition.readOptional_yields _) fun condition _ hcondition => ?_
  exact hcondition

lemma readVariable_yields (tokens : List Token) : Yields Stated (readVariable tokens) := by
  unfold readVariable
  split
  · split <;> exact True.intro
  · exact True.intro
  · exact True.intro

lemma readOption_yields (tokens : List Token) : Yields Stated (readOption tokens) := by
  unfold readOption
  refine Ensures.bind (readWord_ensures .optionNameExpected (fun _ => True.intro) _)
    fun ⟨name, rest⟩ _ _ => ?_
  dsimp only
  split
  · exact readVariable_yields _
  · exact readRest_yields _ (fun _ => True.intro) _

theorem read_yields (kind : DirectiveKind) (keyword : String) (tokens : List Token) :
    Yields Stated (read kind keyword tokens) := by
  cases kind with
  | prompt => exact (readPrompt_yields keyword tokens).map fun _ h => h
  | type t => exact readType_yields t keyword tokens
  | typedDefault t => exact (readConditional_yields keyword tokens).map fun _ h => h
  | default => exact (readConditional_yields keyword tokens).map fun _ h => h
  | select => exact (readConditional_yields keyword tokens).map fun _ h => h
  | imply => exact (readConditional_yields keyword tokens).map fun _ h => h
  | range => exact readRange_yields tokens
  | depends => exact readDepends_yields tokens
  | option => exact readOption_yields tokens
  | help =>
    exact readRest_yields (P := Stated) (fun _ => Directive.help none)
      (fun _ text htext => by cases htext) tokens
  | optional =>
    exact readRest_yields (P := Stated) (fun _ => Directive.optional) (fun _ => True.intro) tokens

lemma readVisible_yields (tokens : List Token) : Yields Stated (readVisible tokens) := by
  unfold readVisible
  split
  · split
    · exact (Condition.read_yields _).map fun _ h => h
    · exact True.intro
  · exact True.intro

end Directive

lemma SourceKind.readPath_yields (kind : SourceKind) (tokens : List Token) :
    Yields (fun _ => True) (kind.readPath tokens) := by
  unfold readPath
  split
  · exact True.intro
  · exact readRest_yields _ (fun _ => True.intro) _
  · split
    · exact True.intro
    · exact readRest_yields _ (fun _ => True.intro) _

end Kconfig
