import Kconfig.Source
import Mathlib.Tactic.Lemma

/-!
# Readers and line numbers

No reader of a line looks at the numbers of the lines that its tokens stand in. So tokens with the
same lexemes are read alike.
-/

namespace Kconfig

/-- The token without the number of its line. -/
def Token.bare (token : Token) : Token :=
  { token with linenr := 0 }

def Stop.bare (stop : Stop) : Stop :=
  { stop with token := stop.token.bare, rest := stop.rest.map Token.bare }

def Reading.bare {α : Type} (r : Reading α) : Reading α :=
  { r with stop := r.stop.bare }

lemma Reading.map_bare_error {α : Type} (failure : ReadFailure) :
    (.error failure : Except ReadFailure (Reading α)).map Reading.bare = .error failure :=
  rfl

/-- The reader does not look at line numbers. -/
def Blind {α : Type} (read : List Token → Except ReadFailure (Reading α)) : Prop :=
  ∀ tokens, read (tokens.map Token.bare) = (read tokens).map Reading.bare

@[simp]
lemma Token.lexeme_bare (token : Token) : token.bare.lexeme = token.lexeme :=
  rfl

lemma Token.map_bare_eq_iff {tokens tokens' : List Token} :
    tokens.map Token.bare = tokens'.map Token.bare ↔
      tokens.map Token.lexeme = tokens'.map Token.lexeme := by
  constructor
  · intro h
    have hmap := congrArg (List.map Token.lexeme) h
    rwa [List.map_map, List.map_map] at hmap
  · intro h
    have hmap := congrArg (List.map (Token.mk · 0)) h
    rwa [List.map_map, List.map_map] at hmap

lemma Stop.upcoming_bare (stop : Stop) : stop.bare.upcoming = stop.upcoming.map Token.bare := by
  cases hkept : stop.kept <;> simp [Stop.upcoming, Stop.bare, hkept]

lemma Stop.bare_mk (token : Token) (rest : List Token) (kept : Bool) :
    Stop.bare ⟨token, rest, kept⟩ = ⟨token.bare, rest.map Token.bare, kept⟩ :=
  rfl

namespace Blind

variable {α β : Type} {read : List Token → Except ReadFailure (Reading α)}

lemma map (h : Blind read) (f : α → β) : Blind fun tokens => (read tokens).map (·.map f) := by
  intro tokens
  dsimp only
  rw [h tokens]
  cases read tokens <;> rfl

lemma congr (h : Blind read) {tokens tokens' : List Token}
    (hlexemes : tokens.map Token.lexeme = tokens'.map Token.lexeme) {r : Reading α}
    (hr : read tokens = .ok r) : ∃ r', read tokens' = .ok r' ∧ r'.value = r.value ∧
      r'.stop.upcoming.map Token.lexeme = r.stop.upcoming.map Token.lexeme := by
  have hsame : (read tokens').map Reading.bare = (read tokens).map Reading.bare := by
    rw [← h tokens, ← h tokens', Token.map_bare_eq_iff.2 hlexemes]
  rw [hr] at hsame
  cases hread : read tokens' with
  | error problem =>
    rw [hread] at hsame
    cases hsame
  | ok r' =>
    rw [hread] at hsame
    have hbare : r'.bare = r.bare := Except.ok.inj hsame
    refine ⟨r', rfl, (congrArg Reading.value hbare : r'.bare.value = r.bare.value), ?_⟩
    rw [← Token.map_bare_eq_iff, ← Stop.upcoming_bare, ← Stop.upcoming_bare]
    exact congrArg (fun r : Reading α => r.stop.upcoming) hbare

end Blind

lemma Token.isDeliverable_bare (token : Token) : token.bare.isDeliverable = token.isDeliverable :=
  rfl

lemma readDeliverable_blind {α : Type} {read : List Token → Except ReadFailure (Reading α)}
    (h : Blind read) : Blind (readDeliverable read) := by
  intro tokens
  have hbare : Token.isDeliverable ∘ Token.bare = Token.isDeliverable :=
    funext Token.isDeliverable_bare
  rw [readDeliverable, readDeliverable, List.takeWhile_map, List.dropWhile_map, hbare, h]
  cases read (tokens.takeWhile Token.isDeliverable) with
  | error failure => rfl
  | ok r =>
    simp only [Except.map, Reading.bare, Stop.bare, List.map_append]

namespace Expression

lemma stopAt_bare (outer : List Pieces) (pieces : Pieces) (problem : Problem) (stop : Stop) :
    stopAt outer pieces problem stop.bare = (stopAt outer pieces problem stop).map .bare := by
  cases outer <;> rfl

lemma withSlip_bare (slip : Slip) (r : Except ReadFailure (Reading String)) :
    withSlip slip (r.map .bare) = (withSlip slip r).map .bare := by
  cases r <;> rfl

lemma readFrom_bare (outer : List Pieces) (pieces : Pieces) (tokens : List Token) :
    readFrom outer pieces (tokens.map Token.bare) =
      (readFrom outer pieces tokens).map Reading.bare := by
  fun_induction readFrom outer pieces tokens <;>
    simp_all [readFrom, ← stopAt_bare, ← withSlip_bare, Stop.bare_mk, Reading.map_bare_error]

lemma readSome_blind (problem : Problem) : Blind (readSome problem) := by
  intro tokens
  have hread : read (tokens.map Token.bare) = (read tokens).map Reading.bare :=
    readFrom_bare [] {} tokens
  rw [readSome, readSome, hread]
  cases read tokens with
  | error problem => rfl
  | ok r =>
    change (if r.value = "" then _ else _) = _
    dsimp only
    split <;> rfl

end Expression

namespace Condition

lemma read_blind : Blind read :=
  (Expression.readSome_blind .conditionExpected).map _

lemma readOptional_blind : Blind readOptional := by
  intro tokens
  cases tokens with
  | nil => rfl
  | cons token rest =>
    rw [List.map_cons, readOptional, readOptional, Token.lexeme_bare]
    split
    · exact (read_blind.map _) rest
    · rfl

end Condition

lemma skipRest_bare (tokens : List Token) :
    skipRest (tokens.map Token.bare) = (skipRest tokens).map fun r => (r.1, r.2.bare) := by
  induction tokens with
  | nil => rfl
  | cons token rest ih =>
    rw [List.map_cons, skipRest, skipRest, Token.lexeme_bare]
    split
    · rfl
    · rw [ih]
      cases skipRest rest <;> rfl

lemma readRest_blind {α : Type} (value : List String → α) : Blind (readRest value) := by
  intro tokens
  rw [readRest, readRest, skipRest_bare]
  cases skipRest tokens <;> rfl

namespace Directive

lemma readPrompt_blind (keyword : String) : Blind (readPrompt keyword) := by
  intro tokens
  cases tokens with
  | nil => rfl
  | cons token rest =>
    obtain ⟨lexeme, n⟩ := token
    cases lexeme with
    | quoted quote text => exact (Condition.readOptional_blind.map _) rest
    | _ => rfl

lemma readConditional_blind (keyword : String) : Blind (readConditional keyword) := by
  intro tokens
  rw [readConditional, readConditional, Expression.readSome_blind]
  cases Expression.readSome (.expressionExpected keyword) tokens with
  | error problem => rfl
  | ok value =>
    simp only [Except.map, bind, Except.bind]
    have hoptional := Condition.readOptional_blind value.stop.upcoming
    rw [← Stop.upcoming_bare] at hoptional
    rw [Reading.bare, hoptional]
    cases Condition.readOptional value.stop.upcoming <;> rfl

lemma readType_blind (type : ValueType) (keyword : String) : Blind (readType type keyword) := by
  intro tokens
  cases tokens with
  | nil => rfl
  | cons token rest =>
    obtain ⟨lexeme, n⟩ := token
    cases lexeme with
    | quoted quote text =>
      exact ((readPrompt_blind keyword).map _) (⟨.quoted quote text, n⟩ :: rest)
    | _ => rfl

lemma readDepends_blind : Blind readDepends := by
  intro tokens
  cases tokens with
  | nil => rfl
  | cons token rest =>
    rw [List.map_cons, readDepends, readDepends, Token.lexeme_bare]
    split
    · exact ((Expression.readSome_blind _).map _) rest
    · rfl

lemma readWord_bare (problem : String → Problem) (tokens : List Token) :
    readWord problem (tokens.map Token.bare) =
      (readWord problem tokens).map fun r => (r.1, r.2.map Token.bare) := by
  cases tokens with
  | nil => rfl
  | cons token rest =>
    rw [List.map_cons, readWord, readWord, Token.lexeme_bare]
    cases token.lexeme.wordText? <;> rfl

lemma readRange_blind : Blind readRange := by
  intro tokens
  rw [readRange, readRange, readWord_bare]
  cases readWord .boundExpected tokens with
  | error problem => rfl
  | ok low =>
    simp only [Except.map, bind, Except.bind]
    rw [readWord_bare]
    cases readWord .boundExpected low.2 with
    | error problem => rfl
    | ok high =>
      simp only [Except.map]
      rw [Condition.readOptional_blind]
      cases Condition.readOptional high.2 <;> rfl

lemma readVariable_blind : Blind readVariable := by
  intro tokens
  match tokens with
  | [] => rfl
  | ⟨.char c, n⟩ :: [] =>
    by_cases hc : c = '='
    · rw [hc]
      rfl
    · simp [readVariable, Token.bare, hc, Except.map]
  | ⟨.char c, n⟩ :: ⟨lexeme, m⟩ :: rest =>
    by_cases hc : c = '='
    · rw [hc]
      cases lexeme <;> rfl
    · simp [readVariable, Token.bare, hc, Except.map]
  | ⟨.word _, _⟩ :: _ => rfl
  | ⟨.number _ _, _⟩ :: _ => rfl
  | ⟨.quoted _ _, _⟩ :: _ => rfl
  | ⟨.lineEnd, _⟩ :: _ => rfl
  | ⟨.fileEnd, _⟩ :: _ => rfl

lemma readOption_blind : Blind readOption := by
  intro tokens
  rw [readOption, readOption, readWord_bare]
  cases readWord .optionNameExpected tokens with
  | error problem => rfl
  | ok name =>
    simp only [Except.map, bind, Except.bind]
    split
    · exact readVariable_blind name.2
    · exact readRest_blind _ name.2

theorem read_blind (kind : DirectiveKind) (keyword : String) : Blind (read kind keyword) := by
  cases kind with
  | prompt => exact (readPrompt_blind keyword).map _
  | type t => exact readType_blind t keyword
  | typedDefault t => exact (readConditional_blind keyword).map _
  | default => exact (readConditional_blind keyword).map _
  | select => exact (readConditional_blind keyword).map _
  | imply => exact (readConditional_blind keyword).map _
  | range => exact readRange_blind
  | depends => exact readDepends_blind
  | option => exact readOption_blind
  | help => exact readRest_blind fun _ => Directive.help none
  | optional => exact readRest_blind fun _ => Directive.optional

lemma readVisible_blind : Blind readVisible := by
  intro tokens
  cases tokens with
  | nil => rfl
  | cons token rest =>
    rw [List.map_cons, readVisible, readVisible, Token.lexeme_bare]
    split
    · exact (Condition.read_blind.map _) rest
    · rfl

end Directive

lemma SourceKind.readPath_blind (kind : SourceKind) : Blind kind.readPath := by
  intro tokens
  cases tokens with
  | nil => rfl
  | cons token rest =>
    obtain ⟨lexeme, n⟩ := token
    cases lexeme with
    | quoted quote text => exact readRest_blind _ rest
    | lineEnd => rfl
    | fileEnd => rfl
    | _ => exact readRest_blind (fun texts => (String.join (Lexeme.text _ :: texts), [])) rest

end Kconfig
