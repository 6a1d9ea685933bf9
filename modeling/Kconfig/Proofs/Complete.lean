import Kconfig.Directive.Suffix
import Kconfig.Proofs.Scanning

/-!
# Complete lines

A reader takes its tokens from a line that is complete. It never asks for a token after the end of
the line, and so it can fail for two reasons only: there is a problem, or the next token is a number
of so many digits that it cannot be delivered.
-/

namespace Kconfig

/-- The result is a value with the property `Q` or an error with the property `E`. -/
def Ensures {ε α : Type} (E : ε → Prop) (Q : α → Prop) : Except ε α → Prop
  | .error e => E e
  | .ok a => Q a

namespace Ensures

variable {ε ε' α β : Type} {E E' : ε → Prop} {Q Q' : α → Prop} {R : β → Prop} {x : Except ε α}

lemma bind {f : α → Except ε β} (hx : Ensures E Q x)
    (hf : ∀ a, x = .ok a → Q a → Ensures E R (f a)) : Ensures E R (x >>= f) := by
  cases x with
  | error e => exact hx
  | ok a => exact hf a rfl hx

lemma mono (hx : Ensures E Q x) (hE : ∀ e, E e → E' e) (hQ : ∀ a, Q a → Q' a) :
    Ensures E' Q' x := by
  cases x with
  | error e => exact hE e hx
  | ok a => exact hQ a hx

lemma mapError {F : ε' → Prop} {f : ε → ε'} (hx : Ensures E Q x) (hE : ∀ e, E e → F (f e)) :
    Ensures F Q (x.mapError f) := by
  cases x with
  | error e => exact hE e hx
  | ok a => exact hx

lemma map {f : α → β} (hx : Ensures E Q x) (hf : ∀ a, Q a → R (f a)) : Ensures E R (x.map f) := by
  cases x with
  | error e => exact hx
  | ok a => exact hf a hx

lemma ok_bind {a : α} {f : α → Except ε β} (hx : x = .ok a) (hf : Ensures E R (f a)) :
    Ensures E R (x >>= f) := by
  rw [hx]
  exact hf

end Ensures

section Deliverable

variable {token : Token} {front more : List Token}

lemma takeWhile_deliverable (hfront : ∀ token ∈ front, token.isDeliverable = true)
    (more : List Token) :
    (front ++ more).takeWhile Token.isDeliverable =
      front ++ more.takeWhile Token.isDeliverable :=
  List.takeWhile_append_of_pos hfront

lemma dropWhile_deliverable (hfront : ∀ token ∈ front, token.isDeliverable = true)
    (more : List Token) :
    (front ++ more).dropWhile Token.isDeliverable = more.dropWhile Token.isDeliverable :=
  List.dropWhile_append_of_pos hfront

variable {α : Type} {read : List Token → Except ReadFailure (Reading α)}

lemma readDeliverable_of_all {tokens : List Token}
    (h : ∀ token ∈ tokens, token.isDeliverable = true) :
    readDeliverable read tokens = read tokens := by
  have htake := takeWhile_deliverable h []
  have hdrop := dropWhile_deliverable h []
  simp only [List.append_nil, List.takeWhile_nil, List.dropWhile_nil] at htake hdrop
  rw [readDeliverable, htake, hdrop]
  cases read tokens with
  | error failure => rfl
  | ok r =>
    change Except.ok { r with stop := { r.stop with rest := r.stop.rest ++ [] } } = _
    rw [List.append_nil]

lemma readDeliverable_append (hfront : ∀ token ∈ front, token.isDeliverable = true) {value : α}
    {slips : List Slip} {kept : Bool}
    (hread : ∀ rest, read (front ++ rest) = .ok { value, slips, stop := { token, rest, kept } }) :
    readDeliverable read (front ++ more) =
      .ok { value, slips, stop := { token, rest := more, kept } } := by
  rw [readDeliverable, takeWhile_deliverable hfront, dropWhile_deliverable hfront, hread]
  simp only [Except.map, List.takeWhile_append_dropWhile]

end Deliverable

/-- The tokens go up to the end of their line, or of the file. -/
def Complete (tokens : List Token) : Prop :=
  ∃ last ∈ tokens.getLast?, last.lexeme.isEnd = true

lemma complete_cons_cons {a b : Token} {tokens : List Token} :
    Complete (a :: b :: tokens) ↔ Complete (b :: tokens) := by
  rw [Complete, Complete, List.getLast?_cons_cons]

lemma Complete.ne_nil {tokens : List Token} (h : Complete tokens) : tokens ≠ [] := by
  rintro rfl
  obtain ⟨last, hlast, -⟩ := h
  cases hlast

lemma Complete.tail {token : Token} {tokens : List Token} (h : Complete (token :: tokens))
    (hend : token.lexeme.isEnd = false) : Complete tokens := by
  cases tokens with
  | nil =>
    obtain ⟨last, hlast, hisEnd⟩ := h
    cases hlast
    exact absurd hisEnd (by simp [hend])
  | cons next tokens => exact complete_cons_cons.1 h

lemma Complete.cons {tokens : List Token} (h : Complete tokens) (token : Token) :
    Complete (token :: tokens) := by
  obtain ⟨next, tokens, rfl⟩ := List.exists_cons_of_ne_nil h.ne_nil
  exact complete_cons_cons.2 h

lemma Complete.append {tokens : List Token} (h : Complete tokens) (front : List Token) :
    Complete (front ++ tokens) := by
  induction front with
  | nil => exact h
  | cons token front ih => exact ih.cons token

lemma complete_ofLine (n : Nat) (line : List Char) : Complete (Token.ofLine n line) := by
  obtain ⟨front, hfront, -⟩ := Lexeme.scan_eq_append line
  refine ⟨⟨.lineEnd, n⟩, ?_, rfl⟩
  rw [Token.ofLine, hfront, List.map_append]
  exact List.getLast?_concat

lemma Complete.suffix {tokens rest : List Token} (h : Complete tokens) (hsuffix : rest <:+ tokens)
    (hrest : rest ≠ []) : Complete rest := by
  obtain ⟨front, rfl⟩ := hsuffix
  obtain ⟨last, hlast, hend⟩ := h
  rw [List.getLast?_append, List.getLast?_eq_some_getLast hrest, Option.some_or] at hlast
  exact ⟨_, List.getLast?_eq_some_getLast hrest, by cases hlast; exact hend⟩

/-- A reader that is given a complete line does not run out of tokens. -/
def Finishes {α : Type} (read : List Token → Except ReadFailure (Reading α)) : Prop :=
  ∀ tokens, Complete tokens → Ensures (· ≠ .usedUp) (fun _ => True) (read tokens)

lemma ReadFailure.ne_usedUp (problem : Problem) : ReadFailure.problem problem ≠ .usedUp :=
  ReadFailure.noConfusion

lemma Ensures.any {ε α : Type} {E : ε → Prop} {Q : α → Prop} {x : Except ε α} (h : Ensures E Q x) :
    Ensures E (fun _ => True) x :=
  h.mono (fun _ => id) fun _ _ => True.intro

lemma Finishes.map {α β : Type} {read : List Token → Except ReadFailure (Reading α)}
    (h : Finishes read) (f : α → β) : Finishes fun tokens => (read tokens).map (·.map f) :=
  fun tokens hcomplete => (h tokens hcomplete).map fun _ => id

lemma Lexeme.isEnd_of_wordText? {lexeme : Lexeme} {text : String}
    (h : lexeme.wordText? = some text) : lexeme.isEnd = false := by
  cases lexeme <;> first | rfl | cases h

namespace Expression

lemma stopAt_finishes {outer : List Pieces} {pieces : Pieces} {problem : Problem} {token : Token}
    {rest : List Token} (h : Complete (token :: rest)) :
    Ensures (· ≠ .usedUp) (fun r => Complete r.stop.upcoming)
      (stopAt outer pieces problem { token, rest }) := by
  cases outer with
  | nil => exact h
  | cons before outer => exact ReadFailure.ne_usedUp problem

lemma withSlip_finishes {slip : Slip} {result : Except ReadFailure (Reading String)}
    (h : Ensures (· ≠ .usedUp) (fun r => Complete r.stop.upcoming) result) :
    Ensures (· ≠ .usedUp) (fun r => Complete r.stop.upcoming) (withSlip slip result) :=
  h.map fun _ => id

lemma readFrom_finishes (outer : List Pieces) (pieces : Pieces) {tokens : List Token}
    (h : Complete tokens) : Ensures (· ≠ .usedUp) (fun r => Complete r.stop.upcoming)
      (readFrom outer pieces tokens) := by
  fun_induction readFrom outer pieces tokens with
  | case1 => exact absurd rfl h.ne_nil
  | case2 outer pieces last hstops => exact stopAt_finishes h
  | case3 outer pieces last hstops =>
    obtain ⟨token, htoken, hend⟩ := h
    cases htoken
    cases hlexeme : last.lexeme <;> simp [hlexeme, stops, Lexeme.isEnd] at hstops hend
  | case4 | case5 | case6 | case11 | case19 => exact stopAt_finishes h
  | case7 _ _ token next rest text hlexeme hif ih => exact ih (h.tail (by rw [hlexeme]; rfl))
  | case8 _ _ token next rest text value hlexeme ih => exact ih (h.tail (by rw [hlexeme]; rfl))
  | case9 _ _ token next rest quote text hlexeme ih => exact ih (h.tail (by rw [hlexeme]; rfl))
  | case10 _ _ token next rest hlexeme ih => exact ih (h.tail (by rw [hlexeme]; rfl))
  | case12 _ token next rest before outer hlexeme _ ih =>
    exact ih (h.tail (by rw [hlexeme]; rfl))
  | case13 _ _ token next rest hlexeme _ _ ih => exact ih (h.tail (by rw [hlexeme]; rfl))
  | case14 _ _ token next rest c hlexeme _ _ _ _ hnext ih =>
    exact ih ((complete_cons_cons.1 h).tail (by rw [hnext]; rfl))
  | case15 _ _ token next rest c hlexeme _ _ _ _ _ ih => exact ih (h.tail (by rw [hlexeme]; rfl))
  | case16 _ _ token next rest c hlexeme _ _ _ _ _ hnext ih =>
    exact ih ((complete_cons_cons.1 h).tail (by rw [hnext]; rfl))
  | case17 _ _ token next rest c hlexeme _ _ _ _ _ _ _ ih =>
    exact withSlip_finishes (ih (h.tail (by rw [hlexeme]; rfl)))
  | case18 _ _ token next rest c hlexeme _ _ _ _ _ _ _ ih =>
    exact withSlip_finishes (ih (h.tail (by rw [hlexeme]; rfl)))

lemma readSome_finishes (problem : Problem) {tokens : List Token} (h : Complete tokens) :
    Ensures (· ≠ .usedUp) (fun r => Complete r.stop.upcoming) (readSome problem tokens) := by
  have hread := readFrom_finishes [] {} h
  unfold readSome read
  cases hresult : readFrom [] {} tokens with
  | error failure =>
    rw [hresult] at hread
    exact hread
  | ok r =>
    rw [hresult] at hread
    dsimp only
    split
    · exact ReadFailure.ne_usedUp problem
    · exact hread

end Expression

namespace Condition

lemma read_finishes : Finishes read :=
  fun _ h => (Expression.readSome_finishes _ h).map fun _ _ => True.intro

lemma readOptional_finishes : Finishes readOptional := by
  intro tokens h
  cases tokens with
  | nil => exact absurd rfl h.ne_nil
  | cons token rest =>
    unfold readOptional
    dsimp only
    split
    · rename_i hif
      exact read_finishes.map _ rest (h.tail (Lexeme.isEnd_of_wordText? hif))
    · exact True.intro

end Condition

lemma skipRest_finishes {tokens : List Token} (h : Complete tokens) :
    Ensures (· ≠ .usedUp) (fun _ => True) (skipRest tokens) := by
  induction tokens with
  | nil => exact absurd rfl h.ne_nil
  | cons token rest ih =>
    rw [skipRest]
    split
    · exact True.intro
    · rename_i hend
      exact (ih (h.tail (Bool.eq_false_iff.2 hend))).bind fun _ _ _ => True.intro

lemma readRest_finishes {α : Type} (value : List String → α) : Finishes (readRest value) :=
  fun _ h => (skipRest_finishes h).map fun _ => id

namespace Directive

lemma readPrompt_finishes (keyword : String) : Finishes (readPrompt keyword) := by
  intro tokens h
  unfold readPrompt
  split
  · exact Condition.readOptional_finishes.map _ _ (h.tail rfl)
  · exact ReadFailure.ne_usedUp _
  · exact absurd rfl h.ne_nil

lemma readConditional_finishes (keyword : String) : Finishes (readConditional keyword) := by
  intro tokens h
  refine (Expression.readSome_finishes _ h).bind fun value _ hvalue => ?_
  exact (Condition.readOptional_finishes _ hvalue).bind fun _ _ _ => True.intro

lemma readType_finishes (type : ValueType) (keyword : String) :
    Finishes (readType type keyword) := by
  intro tokens h
  unfold readType
  split
  · exact (readPrompt_finishes keyword).map _ _ h
  · exact True.intro
  · exact absurd rfl h.ne_nil

lemma readDepends_finishes : Finishes readDepends := by
  intro tokens h
  unfold readDepends
  split
  · split
    · rename_i hon
      refine (Expression.readSome_finishes _ (h.tail (Lexeme.isEnd_of_wordText? hon))).map ?_
      exact fun _ _ => True.intro
    · exact ReadFailure.ne_usedUp _
  · exact absurd rfl h.ne_nil

lemma readWord_finishes (problem : String → Problem) {tokens : List Token} (h : Complete tokens) :
    Ensures (· ≠ .usedUp) (fun r => Complete r.2) (readWord problem tokens) := by
  cases tokens with
  | nil => exact absurd rfl h.ne_nil
  | cons token rest =>
    rw [readWord]
    split
    · rename_i text hword
      exact h.tail (Lexeme.isEnd_of_wordText? hword)
    · exact ReadFailure.ne_usedUp _

lemma readRange_finishes : Finishes readRange := by
  intro tokens h
  refine (readWord_finishes _ h).bind fun low _ hlow => ?_
  refine (readWord_finishes _ hlow).bind fun high _ hhigh => ?_
  exact (Condition.readOptional_finishes _ hhigh).bind fun _ _ _ => True.intro

lemma readVariable_finishes : Finishes readVariable := by
  intro tokens h
  unfold readVariable
  split
  · split
    · exact True.intro
    · exact ReadFailure.ne_usedUp _
    · exact absurd rfl (h.tail rfl).ne_nil
  · exact ReadFailure.ne_usedUp _
  · exact absurd rfl h.ne_nil

lemma readOption_finishes : Finishes readOption := by
  intro tokens h
  refine (readWord_finishes _ h).bind fun name _ hname => ?_
  dsimp only
  split
  · exact readVariable_finishes _ hname
  · exact readRest_finishes _ _ hname

lemma read_finishes (kind : DirectiveKind) (keyword : String) : Finishes (read kind keyword) := by
  cases kind with
  | prompt => exact (readPrompt_finishes keyword).map _
  | type t => exact readType_finishes t keyword
  | typedDefault t => exact (readConditional_finishes keyword).map _
  | default => exact (readConditional_finishes keyword).map _
  | select => exact (readConditional_finishes keyword).map _
  | imply => exact (readConditional_finishes keyword).map _
  | range => exact readRange_finishes
  | depends => exact readDepends_finishes
  | option => exact readOption_finishes
  | help => exact readRest_finishes fun _ => Directive.help none
  | optional => exact readRest_finishes fun _ => Directive.optional

lemma readVisible_finishes : Finishes readVisible := by
  intro tokens h
  unfold readVisible
  split
  · split
    · rename_i hif
      exact Condition.read_finishes.map _ _ (h.tail (Lexeme.isEnd_of_wordText? hif))
    · exact ReadFailure.ne_usedUp _
  · exact absurd rfl h.ne_nil

end Directive

lemma SourceKind.readPath_finishes (kind : SourceKind) : Finishes kind.readPath := by
  intro tokens h
  unfold readPath
  split
  · exact absurd rfl h.ne_nil
  · exact readRest_finishes _ _ (h.tail rfl)
  · split
    · exact ReadFailure.ne_usedUp _
    · rename_i hend
      exact readRest_finishes _ _ (h.tail (Bool.eq_false_iff.2 hend))

lemma readDeliverable_finishes {α : Type} {read : List Token → Except ReadFailure (Reading α)}
    (hread : Finishes read) {tokens : List Token} (h : Complete tokens) :
    Ensures (fun failure => failure = .usedUp →
        ∃ digits, tokens.findSome? (·.lexeme.excessDigits?) = some digits)
      (fun _ => True) (readDeliverable read tokens) := by
  cases hdigits : tokens.findSome? (·.lexeme.excessDigits?) with
  | some digits =>
    cases hresult : readDeliverable read tokens with
    | error failure => exact fun _ => ⟨digits, rfl⟩
    | ok r => exact True.intro
  | none =>
    have hall : ∀ token ∈ tokens, token.isDeliverable = true := fun token hmem =>
      Token.isDeliverable_iff.2 (List.findSome?_eq_none_iff.1 hdigits token hmem)
    rw [readDeliverable_of_all hall]
    exact (hread tokens h).mono (fun _ hne heq => absurd heq hne) fun _ => id

lemma Lexeme.lt_of_excessDigits? {lexeme : Lexeme} {digits : Nat}
    (h : lexeme.excessDigits? = some digits) : digitLimit < digits := by
  unfold excessDigits? at h
  split at h
  · dsimp only at h
    split at h
    · rename_i hlimit
      cases h
      exact hlimit.1
    · cases h
  · cases h

end Kconfig
