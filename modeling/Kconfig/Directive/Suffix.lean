import Kconfig.Source

/-!
# What readers leave

Every reader of a line takes tokens from the front: what it leaves is a suffix of what it was given.
-/

namespace Kconfig

/-- What a reading leaves is a suffix of the tokens. -/
def Reading.Leaves {α : Type} (r : Reading α) (tokens : List Token) : Prop :=
  r.stop.upcoming <:+ tokens

/-- Whatever a result is, if it is a reading, it leaves a suffix of the tokens. -/
def LeavesSuffix {α : Type} (result : Except ReadFailure (Reading α)) (tokens : List Token) :
    Prop :=
  ∀ r, result = .ok r → r.Leaves tokens

namespace LeavesSuffix

variable {α β : Type} {tokens tokens' : List Token}

theorem error (failure : ReadFailure) : LeavesSuffix (α := α) (.error failure) tokens := by
  intro r h
  cases h

theorem map {result : Except ReadFailure (Reading α)} (h : LeavesSuffix result tokens) (f : α → β) :
    LeavesSuffix (result.map (·.map f)) tokens := by
  intro r hr
  cases result with
  | error problem => cases hr
  | ok r' =>
    cases hr
    exact h r' rfl

theorem mono {result : Except ReadFailure (Reading α)} (h : LeavesSuffix result tokens)
    (hs : tokens <:+ tokens') : LeavesSuffix result tokens' :=
  fun r hr => (h r hr).trans hs

theorem kept (value : α) (slips : List Slip) (token : Token) (rest : List Token) :
    LeavesSuffix (.ok { value, slips, stop := { token, rest } }) (token :: rest) := by
  intro r h
  cases h
  exact List.suffix_refl _

end LeavesSuffix

namespace Expression

theorem stopAt_leaves {outer : List Pieces} {pieces : Pieces} {problem : Problem} {stop : Stop}
    {tokens : List Token} (h : stop.upcoming <:+ tokens) :
    LeavesSuffix (stopAt outer pieces problem stop) tokens := by
  intro r hr
  cases outer with
  | nil =>
    cases hr
    exact h
  | cons p ps => cases hr

theorem withSlip_leaves {result : Except ReadFailure (Reading String)} {slip : Slip}
    {tokens : List Token} (h : LeavesSuffix result tokens) :
    LeavesSuffix (withSlip slip result) tokens := by
  intro r hr
  cases result with
  | error problem => cases hr
  | ok r' =>
    cases hr
    exact h r' rfl

theorem readFrom_leaves (outer : List Pieces) (pieces : Pieces) (tokens : List Token) :
    LeavesSuffix (readFrom outer pieces tokens) tokens := by
  have one : ∀ (a : Token) (as : List Token), as <:+ a :: as := List.suffix_cons
  have two : ∀ (a b : Token) (as : List Token), as <:+ a :: b :: as := fun a b as =>
    (one b as).trans (one a _)
  fun_induction readFrom outer pieces tokens <;>
    first
      | exact LeavesSuffix.error _
      | exact stopAt_leaves (List.suffix_refl _)
      | exact LeavesSuffix.mono (by assumption) (one _ _)
      | exact LeavesSuffix.mono (by assumption) (two _ _ _)
      | exact withSlip_leaves (LeavesSuffix.mono (by assumption) (one _ _))

theorem readSome_leaves (problem : Problem) (tokens : List Token) :
    LeavesSuffix (readSome problem tokens) tokens := by
  intro r hr
  unfold readSome at hr
  split at hr
  · cases hr
  · rename_i r' hread
    split at hr
    · cases hr
    · cases hr
      exact readFrom_leaves [] {} tokens r hread

end Expression

namespace Condition

theorem read_leaves (tokens : List Token) : LeavesSuffix (read tokens) tokens :=
  (Expression.readSome_leaves _ tokens).map _

theorem readOptional_leaves (tokens : List Token) : LeavesSuffix (readOptional tokens) tokens := by
  unfold readOptional
  split
  · exact .error _
  · rename_i token rest
    split
    · exact ((read_leaves rest).map _).mono (List.suffix_cons _ _)
    · exact .kept _ _ _ _

end Condition

theorem skipRest_leaves {tokens : List Token} {texts : List String} {stop : Stop}
    (h : skipRest tokens = .ok (texts, stop)) : stop.upcoming <:+ tokens := by
  induction tokens generalizing texts with
  | nil => cases h
  | cons token rest ih =>
    rw [skipRest] at h
    split at h
    · cases h
      exact List.suffix_refl _
    · cases hrest : skipRest rest with
      | error failure =>
        rw [hrest] at h
        cases h
      | ok r =>
        rw [hrest] at h
        cases h
        exact (ih hrest).trans (List.suffix_cons _ _)

theorem readRest_leaves {α : Type} (value : List String → α) (tokens : List Token) :
    LeavesSuffix (readRest value tokens) tokens := by
  intro r hr
  unfold readRest at hr
  cases hrest : skipRest tokens with
  | error failure =>
    rw [hrest] at hr
    cases hr
  | ok rest =>
    rw [hrest] at hr
    cases hr
    exact skipRest_leaves hrest

theorem Stop.upcoming_append (stop : Stop) (left : List Token) :
    Stop.upcoming { stop with rest := stop.rest ++ left } = stop.upcoming ++ left := by
  unfold Stop.upcoming
  split <;> rfl

theorem readDeliverable_eq_ok {α : Type} {read : List Token → Except ReadFailure (Reading α)}
    {tokens : List Token} {r : Reading α} : readDeliverable read tokens = .ok r ↔
      ∃ r', read (tokens.takeWhile Token.isDeliverable) = .ok r' ∧
        r = { r' with stop := { r'.stop with
          rest := r'.stop.rest ++ tokens.dropWhile Token.isDeliverable } } := by
  unfold readDeliverable
  cases read (tokens.takeWhile Token.isDeliverable) with
  | error failure => simp [Except.map]
  | ok r' => simp [Except.map, eq_comm]

theorem readDeliverable_leaves {α : Type} {read : List Token → Except ReadFailure (Reading α)}
    (hread : ∀ tokens, LeavesSuffix (read tokens) tokens) (tokens : List Token) :
    LeavesSuffix (readDeliverable read tokens) tokens := by
  intro r hr
  obtain ⟨r', hr', rfl⟩ := readDeliverable_eq_ok.1 hr
  obtain ⟨front, hfront⟩ := hread _ r' hr'
  refine ⟨front, ?_⟩
  rw [Stop.upcoming_append, ← List.append_assoc, hfront, List.takeWhile_append_dropWhile]

namespace Directive

theorem readPrompt_leaves (keyword : String) (tokens : List Token) :
    LeavesSuffix (readPrompt keyword tokens) tokens := by
  unfold readPrompt
  split
  · exact ((Condition.readOptional_leaves _).map _).mono (List.suffix_cons _ _)
  · exact .error _
  · exact .error _

theorem readConditional_leaves (keyword : String) (tokens : List Token) :
    LeavesSuffix (readConditional keyword tokens) tokens := by
  intro r hr
  unfold readConditional at hr
  cases hv : Expression.readSome (.expressionExpected keyword) tokens with
  | error problem =>
    rw [hv] at hr
    cases hr
  | ok value =>
    cases hc : Condition.readOptional value.stop.upcoming with
    | error problem =>
      simp only [hv, bind, Except.bind, hc] at hr
      cases hr
    | ok condition =>
      simp only [hv, bind, Except.bind, hc, pure, Except.pure] at hr
      cases hr
      exact (Condition.readOptional_leaves _ _ hc).trans
        (Expression.readSome_leaves _ _ _ hv)

theorem readType_leaves (type : ValueType) (keyword : String) (tokens : List Token) :
    LeavesSuffix (readType type keyword tokens) tokens := by
  unfold readType
  split
  · exact (readPrompt_leaves _ _).map _
  · exact .kept _ _ _ _
  · exact .error _

theorem readDepends_leaves (tokens : List Token) : LeavesSuffix (readDepends tokens) tokens := by
  unfold readDepends
  split
  · split
    · exact ((Expression.readSome_leaves _ _).map _).mono (List.suffix_cons _ _)
    · exact .error _
  · exact .error _

theorem readWord_suffix {problem : String → Problem} {tokens rest : List Token} {text : String}
    (h : readWord problem tokens = .ok (text, rest)) : rest <:+ tokens := by
  unfold readWord at h
  split at h
  · split at h
    · cases h
      exact List.suffix_cons _ _
    · cases h
  · cases h

theorem readRange_leaves (tokens : List Token) : LeavesSuffix (readRange tokens) tokens := by
  intro r hr
  unfold readRange at hr
  cases hl : readWord .boundExpected tokens with
  | error problem =>
    rw [hl] at hr
    cases hr
  | ok low =>
    simp only [hl, bind, Except.bind] at hr
    cases hh : readWord .boundExpected low.2 with
    | error problem =>
      rw [hh] at hr
      cases hr
    | ok high =>
      simp only [hh] at hr
      cases hc : Condition.readOptional high.2 with
      | error problem =>
        rw [hc] at hr
        cases hr
      | ok condition =>
        simp only [hc, pure, Except.pure] at hr
        cases hr
        exact ((Condition.readOptional_leaves _ _ hc).trans (readWord_suffix hh)).trans
          (readWord_suffix hl)

theorem readVariable_leaves (tokens : List Token) :
    LeavesSuffix (readVariable tokens) tokens := by
  intro r hr
  unfold readVariable at hr
  split at hr
  · split at hr
    · cases hr
      exact (List.suffix_cons _ _).trans (List.suffix_cons _ _)
    · cases hr
    · cases hr
  · cases hr
  · cases hr

theorem readOption_leaves (tokens : List Token) : LeavesSuffix (readOption tokens) tokens := by
  intro r hr
  unfold readOption at hr
  cases hn : readWord .optionNameExpected tokens with
  | error problem =>
    rw [hn] at hr
    cases hr
  | ok name =>
    simp only [hn, bind, Except.bind] at hr
    split at hr
    · exact (readVariable_leaves _ _ hr).trans (readWord_suffix hn)
    · exact (readRest_leaves _ _ _ hr).trans (readWord_suffix hn)

theorem read_leaves (kind : DirectiveKind) (keyword : String) (tokens : List Token) :
    LeavesSuffix (read kind keyword tokens) tokens := by
  unfold read
  split
  · exact (readPrompt_leaves _ _).map _
  · exact readType_leaves _ _ _
  · exact (readConditional_leaves _ _).map _
  · exact (readConditional_leaves _ _).map _
  · exact (readConditional_leaves _ _).map _
  · exact (readConditional_leaves _ _).map _
  · exact readRange_leaves _
  · exact readDepends_leaves _
  · exact readOption_leaves _
  · exact readRest_leaves _ _
  · exact readRest_leaves _ _

theorem readVisible_leaves (tokens : List Token) : LeavesSuffix (readVisible tokens) tokens := by
  unfold readVisible
  split
  · split
    · exact ((Condition.read_leaves _).map _).mono (List.suffix_cons _ _)
    · exact .error _
  · exact .error _

end Directive

theorem SourceKind.readPath_leaves (kind : SourceKind) (tokens : List Token) :
    LeavesSuffix (kind.readPath tokens) tokens := by
  intro r hr
  unfold readPath at hr
  split at hr
  · cases hr
  · exact (readRest_leaves _ _ r hr).trans (List.suffix_cons _ _)
  · split at hr
    · cases hr
    · exact (readRest_leaves _ _ r hr).trans (List.suffix_cons _ _)

end Kconfig
