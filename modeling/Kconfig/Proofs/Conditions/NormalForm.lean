import Kconfig.Context.Reads
import Kconfig.Proofs.Complete
import Kconfig.Proofs.Formula
import Kconfig.Proofs.Scanning

/-!
# The normal form of conditions

A condition that is spelled in a line is read from its tokens into its normal form, in which blanks
stand around `&&` and `||` and in quoted texts, and nowhere else.
-/

namespace Kconfig

open Text (isBlank isHexDigit isWideHexDigit)

/-- The operands of conditions: quoted texts and words. Among these are numbers, with as many digits
as can be converted. -/
inductive Operand where
  | word (text : List Char) (ne_nil : text ≠ []) (letters : ∀ c ∈ text, isWordLetter c = true)
    (ne_if : text ≠ "if".toList) (convertible : (Lexeme.ofWord text).excessDigits? = none)
  | quoted (quote : Char) (text : List Char) (quote_isQuote : isQuote quote = true)
    (closed : quote ∉ text)

namespace Operand

/-- The operand as it stands in a file. -/
def written : Operand → List Char
  | word text .. => text
  | quoted quote text .. => quote :: text ++ [quote]

/-- The operand in the normal form of a condition. -/
def normal : Operand → List Char
  | word text .. => text
  | quoted _ text .. => '"' :: text ++ ['"']

def lexeme : Operand → Lexeme
  | word text .. => .ofWord text
  | quoted quote text .. => .quoted quote (.ofList text)

/-- Normal forms show the operand as it is: a word that begins like a hexadecimal number is one, and
a quoted text has no double quotes and no tabs in it. -/
def Faithful : Operand → Prop
  | word text .. => ∀ x digits, text = '0' :: x :: digits → x = 'x' ∨ x = 'X' →
    (∀ c ∈ digits.head?, isHexDigit c = true) → ∀ c ∈ digits, isHexDigit c = true
  | quoted _ text .. => '"' ∉ text ∧ '\t' ∉ text

end Operand

/-- A text spells a formula, with any number of separators around its parts. -/
inductive Spells : List Char → Formula Operand → Prop where
  | operand (o : Operand) : Spells o.written (.operand o)
  | not {text : List Char} {e : Formula Operand} (h : Spells text e) : Spells ('!' :: text) (.not e)
  | compare {left right : List Char} {l r : Formula Operand} (operator : Comparison)
    (hl : Spells left l) (hr : Spells right r) :
    Spells (left ++ (operator.written.toList ++ right)) (.compare operator l r)
  | and {left right : List Char} {l r : Formula Operand} (hl : Spells left l)
    (hr : Spells right r) : Spells (left ++ ("&&".toList ++ right)) (.and l r)
  | or {left right : List Char} {l r : Formula Operand} (hl : Spells left l)
    (hr : Spells right r) : Spells (left ++ ("||".toList ++ right)) (.or l r)
  | group {text : List Char} {e : Formula Operand} (h : Spells text e) :
    Spells ('(' :: (text ++ [')'])) (.group e)
  | before {text : List Char} {e : Formula Operand} (c : Char) (hc : isSeparator c = true)
    (h : Spells text e) : Spells (c :: text) e
  | after {text : List Char} {e : Formula Operand} (c : Char) (hc : isSeparator c = true)
    (h : Spells text e) : Spells (text ++ [c]) e

namespace Formula

def lexemes : Formula Operand → List Lexeme
  | .operand o => [o.lexeme]
  | .not e => .char '!' :: e.lexemes
  | .compare operator l r => l.lexemes ++ (operator.written.toList.map .char ++ r.lexemes)
  | .and l r => l.lexemes ++ (.char '&' :: .char '&' :: r.lexemes)
  | .or l r => l.lexemes ++ (.char '|' :: .char '|' :: r.lexemes)
  | .group e => .char '(' :: (e.lexemes ++ [.char ')'])

lemma deliverable_lexemes (e : Formula Operand) (n : Nat) :
    ∀ token ∈ e.lexemes.map (Token.mk · n), token.isDeliverable = true := by
  have hmarks : ∀ text : List Char, ∀ lexeme ∈ text.map Lexeme.char,
      lexeme.excessDigits? = none := by
    intro text lexeme hmem
    obtain ⟨c, -, rfl⟩ := List.mem_map.1 hmem
    rfl
  have hall : ∀ lexeme ∈ e.lexemes, lexeme.excessDigits? = none := by
    induction e with
    | operand o =>
      refine List.forall_mem_singleton.2 ?_
      cases o with
      | word text ne_nil letters ne_if convertible => exact convertible
      | quoted quote text quote_isQuote closed => rfl
    | not e ih => exact List.forall_mem_cons.2 ⟨rfl, ih⟩
    | compare operator l r ihl ihr =>
      exact List.forall_mem_append.2 ⟨ihl, List.forall_mem_append.2 ⟨hmarks _, ihr⟩⟩
    | and l r ihl ihr =>
      exact List.forall_mem_append.2 ⟨ihl, List.forall_mem_append.2 ⟨hmarks ['&', '&'], ihr⟩⟩
    | or l r ihl ihr =>
      exact List.forall_mem_append.2 ⟨ihl, List.forall_mem_append.2 ⟨hmarks ['|', '|'], ihr⟩⟩
    | group e ih =>
      exact List.forall_mem_cons.2 ⟨rfl, List.forall_mem_append.2 ⟨ih, hmarks [')']⟩⟩
  intro token hmem
  obtain ⟨lexeme, hlexeme, rfl⟩ := List.mem_map.1 hmem
  exact Token.isDeliverable_iff.2 (hall lexeme hlexeme)

/-- The normal form of a formula. -/
def normal : Formula Operand → List Char
  | .operand o => o.normal
  | .not e => '!' :: e.normal
  | .compare operator l r => l.normal ++ (operator.written.toList ++ r.normal)
  | .and l r => l.normal ++ (" && ".toList ++ r.normal)
  | .or l r => l.normal ++ (" || ".toList ++ r.normal)
  | .group e => '(' :: (e.normal ++ [')'])

def Faithful (e : Formula Operand) : Prop :=
  ∀ o ∈ e.operands, o.Faithful

end Formula

section Scan

open Lexeme

lemma Operand.scan_written (o : Operand) {rest : List Char} (hrest : EndsWord rest) :
    scan (o.written ++ rest) = o.lexeme :: scan rest := by
  cases o with
  | word text ne_nil letters ne_if convertible => exact scan_word ne_nil letters hrest
  | quoted quote text quote_isQuote closed =>
    have hassoc : quote :: text ++ [quote] ++ rest = quote :: text ++ quote :: rest := by simp
    rw [written, hassoc, scan_closed quote_isQuote closed]
    rfl

lemma scan_comparison (operator : Comparison) (rest : List Char) :
    scan (operator.written.toList ++ rest) =
      operator.written.toList.map .char ++ scan rest := by
  have heq : scan ('=' :: rest) = .char '=' :: scan rest := scan_single rfl
  have hpair : ∀ c, isSingle c = true →
      scan (c :: '=' :: rest) = .char c :: .char '=' :: scan rest := by
    intro c hc
    rw [scan_single hc, heq]
  cases operator with
  | eq => exact heq
  | ne => exact hpair '!' rfl
  | le => exact hpair '<' rfl
  | ge => exact hpair '>' rfl
  | lt => exact scan_single rfl
  | gt => exact scan_single rfl

lemma endsWord_comparison (operator : Comparison) (rest : List Char) :
    EndsWord (operator.written.toList ++ rest) := by
  intro c hc
  cases operator <;> cases hc <;> rfl

lemma endsWord_cons {c : Char} (hc : isWordLetter c = false) (rest : List Char) :
    EndsWord (c :: rest) := by
  intro d hd
  cases hd
  exact hc

theorem Spells.scan_append {text : List Char} {e : Formula Operand} (h : Spells text e)
    {rest : List Char} (hrest : EndsWord rest) : scan (text ++ rest) = e.lexemes ++ scan rest := by
  induction h generalizing rest with
  | operand o => exact o.scan_written hrest
  | not h ih => rw [List.cons_append, scan_single rfl, ih hrest, Formula.lexemes, List.cons_append]
  | compare operator hl hr ihl ihr =>
    rw [List.append_assoc, List.append_assoc, ihl (endsWord_comparison operator _),
      scan_comparison, ihr hrest, Formula.lexemes, List.append_assoc, List.append_assoc]
  | @and left right l r hl hr ihl ihr =>
    have hamp : scan ("&&".toList ++ (right ++ rest)) =
        .char '&' :: .char '&' :: scan (right ++ rest) :=
      (scan_single rfl).trans (congrArg _ (scan_single rfl))
    have hend : EndsWord ("&&".toList ++ (right ++ rest)) := endsWord_cons rfl _
    rw [List.append_assoc, List.append_assoc, ihl hend, hamp, ihr hrest,
      Formula.lexemes, List.append_assoc, List.cons_append, List.cons_append]
  | @or left right l r hl hr ihl ihr =>
    have hbar : scan ("||".toList ++ (right ++ rest)) =
        .char '|' :: .char '|' :: scan (right ++ rest) :=
      (scan_single rfl).trans (congrArg _ (scan_single rfl))
    have hend : EndsWord ("||".toList ++ (right ++ rest)) := endsWord_cons rfl _
    rw [List.append_assoc, List.append_assoc, ihl hend, hbar, ihr hrest,
      Formula.lexemes, List.append_assoc, List.cons_append, List.cons_append]
  | group h ih =>
    have hclosing : scan ([')'] ++ rest) = .char ')' :: scan rest := scan_single rfl
    have hend : EndsWord ([')'] ++ rest) := endsWord_cons rfl _
    rw [List.cons_append, scan_single rfl, List.append_assoc, ih hend, hclosing, Formula.lexemes,
       List.cons_append, List.append_assoc, List.singleton_append]
  | before c hc h ih => rw [List.cons_append, scan_separator hc, ih hrest]
  | after c hc h ih =>
    have hletter : isWordLetter c = false := by
      by_contra hletter
      rw [Bool.not_eq_false] at hletter
      rw [not_isSeparator_of_isWordLetter hletter] at hc
      cases hc
    have hblank : scan ([c] ++ rest) = scan rest := scan_separator hc
    have hend : EndsWord ([c] ++ rest) := endsWord_cons hletter rest
    rw [List.append_assoc, ih hend, hblank]

end Scan

/-- A normal form begins like an operand. -/
def BeginsNormal (c : Char) : Prop :=
  isWordLetter c = true ∨ c = '"' ∨ c = '!' ∨ c = '('

def EndsNormal (c : Char) : Prop :=
  isWordLetter c = true ∨ c = '"' ∨ c = ')'

section Normal

variable {c : Char}

lemma not_isBlank_of_isWordLetter (h : isWordLetter c = true) : isBlank c = false := by
  rw [isWordLetter_iff] at h
  simp only [isBlank, Bool.or_eq_false_iff, Bool.and_eq_false_iff, decide_eq_false_iff_not,
    beq_eq_false_iff_ne]
  omega

lemma BeginsNormal.not_isBlank (h : BeginsNormal c) : isBlank c = false := by
  obtain h | rfl | rfl | rfl := h
  · exact not_isBlank_of_isWordLetter h
  all_goals rfl

lemma EndsNormal.not_isBlank (h : EndsNormal c) : isBlank c = false := by
  obtain h | rfl | rfl := h
  · exact not_isBlank_of_isWordLetter h
  all_goals rfl

lemma BeginsNormal.ne_equals (h : BeginsNormal c) : c ≠ '=' := by
  rintro rfl
  obtain h | h | h | h := h <;> cases h

lemma trim_eq_self {text : List Char} (hfirst : ∀ c ∈ text.head?, isBlank c = false)
    (hlast : ∀ c ∈ text.getLast?, isBlank c = false) : Text.trim text = text := by
  have hleft : Text.trimLeft text = text := by
    cases text with
    | nil => rfl
    | cons c text => exact List.dropWhile_cons_of_neg (by simp [hfirst c rfl])
  rw [Text.trim, hleft, Text.trimRight]
  cases hreverse : text.reverse with
  | nil => rw [List.reverse_eq_nil_iff.1 hreverse]; rfl
  | cons c front =>
    have hc : c ∈ text.getLast? := by simp [← List.head?_reverse, hreverse]
    rw [List.dropWhile_cons_of_neg (by simp [hlast c hc]), ← hreverse, List.reverse_reverse]

namespace Formula

lemma exists_normal_eq_cons (e : Formula Operand) : ∃ c rest, e.normal = c :: rest ∧
    BeginsNormal c := by
  induction e with
  | operand o =>
    cases o with
    | word text ne_nil letters ne_if convertible =>
      obtain ⟨c, rest, rfl⟩ := List.exists_cons_of_ne_nil ne_nil
      exact ⟨c, rest, rfl, .inl (letters c List.mem_cons_self)⟩
    | quoted quote text quote_isQuote closed => exact ⟨'"', _, rfl, .inr (.inl rfl)⟩
  | not e ih => exact ⟨'!', _, rfl, .inr (.inr (.inl rfl))⟩
  | compare operator l r ihl ihr =>
    obtain ⟨c, rest, hrest, hc⟩ := ihl
    exact ⟨c, _, by rw [normal, hrest, List.cons_append], hc⟩
  | and l r ihl ihr =>
    obtain ⟨c, rest, hrest, hc⟩ := ihl
    exact ⟨c, _, by rw [normal, hrest, List.cons_append], hc⟩
  | or l r ihl ihr =>
    obtain ⟨c, rest, hrest, hc⟩ := ihl
    exact ⟨c, _, by rw [normal, hrest, List.cons_append], hc⟩
  | group e ih => exact ⟨'(', _, rfl, .inr (.inr (.inr rfl))⟩

lemma exists_normal_eq_append (e : Formula Operand) : ∃ front c, e.normal = front ++ [c] ∧
    EndsNormal c := by
  have hright : ∀ {r : Formula Operand} (front : List Char),
      (∃ front c, r.normal = front ++ [c] ∧ EndsNormal c) →
        ∃ front' c, front ++ r.normal = front' ++ [c] ∧ EndsNormal c := by
    intro r front ⟨front', c, hr, hc⟩
    exact ⟨front ++ front', c, by rw [hr, List.append_assoc], hc⟩
  induction e with
  | operand o =>
    cases o with
    | word text ne_nil letters ne_if convertible =>
      refine ⟨text.dropLast, text.getLast ne_nil, ?_, .inl (letters _ (List.getLast_mem ne_nil))⟩
      exact (List.dropLast_concat_getLast ne_nil).symm
    | quoted quote text quote_isQuote closed => exact ⟨'"' :: text, '"', rfl, .inr (.inl rfl)⟩
  | not e ih => exact hright ['!'] ih
  | compare operator l r ihl ihr =>
    rw [normal, ← List.append_assoc]
    exact hright _ ihr
  | and l r ihl ihr =>
    rw [normal, ← List.append_assoc]
    exact hright _ ihr
  | or l r ihl ihr =>
    rw [normal, ← List.append_assoc]
    exact hright _ ihr
  | group e ih => exact ⟨'(' :: e.normal, ')', rfl, .inr (.inr rfl)⟩

lemma trim_normal (e : Formula Operand) : Text.trim e.normal = e.normal := by
  refine trim_eq_self ?_ ?_
  · obtain ⟨c, rest, hnormal, hc⟩ := e.exists_normal_eq_cons
    rw [hnormal]
    rintro d ⟨⟩
    exact hc.not_isBlank
  · obtain ⟨front, c, hnormal, hc⟩ := e.exists_normal_eq_append
    rw [hnormal, List.getLast?_concat]
    rintro d ⟨⟩
    exact hc.not_isBlank

lemma exists_lexemes_eq_cons (e : Formula Operand) :
    ∃ lexeme rest, e.lexemes = lexeme :: rest ∧ lexeme ≠ .char '=' := by
  induction e with
  | operand o =>
    refine ⟨o.lexeme, [], rfl, ?_⟩
    cases o with
    | word text ne_nil letters ne_if convertible =>
      unfold Operand.lexeme Lexeme.ofWord
      dsimp only
      split <;> exact Lexeme.noConfusion
    | quoted quote text quote_isQuote closed => exact Lexeme.noConfusion
  | not e ih => exact ⟨.char '!', _, rfl, by decide⟩
  | compare operator l r ihl ihr =>
    obtain ⟨lexeme, rest, hrest, hne⟩ := ihl
    exact ⟨lexeme, _, by rw [lexemes, hrest, List.cons_append], hne⟩
  | and l r ihl ihr =>
    obtain ⟨lexeme, rest, hrest, hne⟩ := ihl
    exact ⟨lexeme, _, by rw [lexemes, hrest, List.cons_append], hne⟩
  | or l r ihl ihr =>
    obtain ⟨lexeme, rest, hrest, hne⟩ := ihl
    exact ⟨lexeme, _, by rw [lexemes, hrest, List.cons_append], hne⟩
  | group e ih => exact ⟨.char '(', _, rfl, by decide⟩

end Formula

end Normal

namespace Expression

variable {outer : List Pieces} {pieces : Pieces} {token : Token} {rest : List Token}

/-- The pieces after a formula, where the last piece was an operator. -/
def Pieces.put (pieces : Pieces) (e : Formula Operand) : Pieces :=
  { text := pieces.text ++ e.normal, afterOperand := true }

lemma readFrom_operand (o : Operand) (n : Nat) (hpieces : pieces.afterOperand = false)
    (hrest : rest ≠ []) :
    readFrom outer pieces (⟨o.lexeme, n⟩ :: rest) =
      readFrom outer (pieces.put (.operand o)) rest := by
  obtain ⟨next, rest, rfl⟩ := List.exists_cons_of_ne_nil hrest
  have hoperand : ∀ piece, pieces.operand piece =
      { text := pieces.text ++ piece, afterOperand := true } := by
    intro piece
    rw [Pieces.operand, hpieces]
    rfl
  cases o with
  | word text ne_nil letters ne_if convertible =>
    have hif : String.ofList text ≠ "if" := by
      intro h
      exact ne_if (by rw [← h, String.toList_ofList])
    unfold Operand.lexeme Lexeme.ofWord
    dsimp only
    split
    · simp only [readFrom, hoperand, String.toList_ofList]
      rfl
    · simp only [readFrom, if_neg hif, hoperand, String.toList_ofList]
      rfl
  | quoted quote text quote_isQuote closed =>
    simp only [Operand.lexeme, readFrom, hoperand, String.toList_ofList]
    rfl

/-- A comparison operator is read as a whole, as no operand begins with its second character. -/
lemma readFrom_comparison (operator : Comparison) (n : Nat)
    (hnext : ∀ next ∈ rest.head?, next.lexeme ≠ .char '=') (hrest : rest ≠ []) :
    readFrom outer pieces ((operator.written.toList.map .char).map (Token.mk · n) ++ rest) =
      readFrom outer (pieces.operator operator.written.toList) rest := by
  obtain ⟨next, rest, rfl⟩ := List.exists_cons_of_ne_nil hrest
  have hne := hnext next rfl
  have hdouble : ∀ c, c = '!' ∨ c = '<' ∨ c = '>' →
      readFrom outer pieces (⟨.char c, n⟩ :: ⟨.char '=', n⟩ :: next :: rest) =
        readFrom outer (pieces.operator [c, '=']) (next :: rest) := by
    rintro c (rfl | rfl | rfl) <;> rfl
  cases operator with
  | eq => rfl
  | ne => exact hdouble '!' (.inl rfl)
  | le => exact hdouble '<' (.inr (.inl rfl))
  | ge => exact hdouble '>' (.inr (.inr rfl))
  | lt => exact if_neg hne
  | gt => exact if_neg hne

lemma readFrom_not (n : Nat) (hnext : ∀ next ∈ rest.head?, next.lexeme ≠ .char '=')
    (hrest : rest ≠ []) :
    readFrom outer pieces (⟨.char '!', n⟩ :: rest) =
      readFrom outer (pieces.operator ['!']) rest := by
  obtain ⟨next, rest, rfl⟩ := List.exists_cons_of_ne_nil hrest
  exact if_neg (hnext next rfl)

lemma readFrom_double {c : Char} (n : Nat) (hc : c = '&' ∨ c = '|') (hrest : rest ≠ []) :
    readFrom outer pieces (⟨.char c, n⟩ :: ⟨.char c, n⟩ :: rest) =
      readFrom outer (pieces.operator [' ', c, c, ' ']) rest := by
  obtain ⟨next, rest, rfl⟩ := List.exists_cons_of_ne_nil hrest
  obtain rfl | rfl := hc <;> rfl

lemma readFrom_opening (n : Nat) (hrest : rest ≠ []) :
    readFrom outer pieces (⟨.char '(', n⟩ :: rest) = readFrom (pieces :: outer) {} rest := by
  obtain ⟨next, rest, rfl⟩ := List.exists_cons_of_ne_nil hrest
  rfl

lemma readFrom_closing {before : Pieces} (n : Nat) (hrest : rest ≠ []) :
    readFrom (before :: outer) pieces (⟨.char ')', n⟩ :: rest) =
      readFrom outer (before.operand ('(' :: pieces.result ++ [')'])) rest := by
  obtain ⟨next, rest, rfl⟩ := List.exists_cons_of_ne_nil hrest
  rfl

/-- After the lexemes of a formula, its normal form has been written. -/
theorem readFrom_lexemes (e : Formula Operand) (n : Nat) (hpieces : pieces.afterOperand = false)
    (hrest : rest ≠ []) :
    readFrom outer pieces (e.lexemes.map (Token.mk · n) ++ rest) =
      readFrom outer (pieces.put e) rest := by
  have hne : ∀ (e : Formula Operand) (rest : List Token),
      e.lexemes.map (Token.mk · n) ++ rest ≠ [] ∧
        ∀ next ∈ (e.lexemes.map (Token.mk · n) ++ rest).head?, next.lexeme ≠ .char '=' := by
    intro e rest
    obtain ⟨lexeme, lexemes, hlexemes, hequals⟩ := e.exists_lexemes_eq_cons
    rw [hlexemes, List.map_cons, List.cons_append]
    refine ⟨List.cons_ne_nil _ _, ?_⟩
    rintro next ⟨⟩
    exact hequals
  induction e generalizing outer pieces rest with
  | operand o => exact readFrom_operand o n hpieces hrest
  | not e ih =>
    rw [Formula.lexemes, List.map_cons, List.cons_append,
      readFrom_not n (hne e rest).2 (hne e rest).1, ih rfl hrest]
    simp [Pieces.put, Pieces.operator, Formula.normal]
  | compare operator l r ihl ihr =>
    have hright := hne r rest
    rw [Formula.lexemes, List.map_append, List.map_append, List.append_assoc, List.append_assoc,
      ihl hpieces (List.append_ne_nil_of_right_ne_nil _ hright.1),
      readFrom_comparison operator n hright.2 hright.1, ihr rfl hrest]
    simp [Pieces.put, Pieces.operator, Formula.normal]
  | and l r ihl ihr =>
    have hright := hne r rest
    rw [Formula.lexemes, List.map_append, List.append_assoc, List.map_cons, List.map_cons,
      List.cons_append, List.cons_append, ihl hpieces (List.cons_ne_nil _ _),
      readFrom_double n (.inl rfl) hright.1, ihr rfl hrest]
    simp [Pieces.put, Pieces.operator, Formula.normal]
  | or l r ihl ihr =>
    have hright := hne r rest
    rw [Formula.lexemes, List.map_append, List.append_assoc, List.map_cons, List.map_cons,
      List.cons_append, List.cons_append, ihl hpieces (List.cons_ne_nil _ _),
      readFrom_double n (.inr rfl) hright.1, ihr rfl hrest]
    simp [Pieces.put, Pieces.operator, Formula.normal]
  | group e ih =>
    rw [Formula.lexemes, List.map_cons, List.map_append, List.cons_append, List.append_assoc,
      List.map_singleton, List.singleton_append, readFrom_opening n (hne e _).1,
      ih rfl (List.cons_ne_nil _ _), readFrom_closing n hrest]
    simp [Pieces.put, Pieces.operand, Pieces.result, Formula.normal, hpieces, e.trim_normal]

end Expression

end Kconfig
