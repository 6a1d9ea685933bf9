import Kconfig.Json

/-!
# Elements of JSON text

JSON text is a sequence of marks, literals and quoted texts, with blanks between them. Here they are
told apart; how they fit together is for the reader to see.
-/

namespace Kconfig.Json

open Text

/-- A mark, or a value that has no parts. -/
inductive Element where
  | openArray
  | closeArray
  | openObject
  | closeObject
  | comma
  | colon
  | atom (value : Json)
  deriving Repr

/-- The characters that may stand between elements. -/
def isBlank (c : Char) : Bool :=
  c == ' ' || c == '\t' || c == '\n' || c == '\r'

/-- The character that an escape of a single letter stands for. -/
def unescape? (c : Char) : Option Char :=
  match c with
  | '"' => some '"'
  | '\\' => some '\\'
  | '/' => some '/'
  | 'b' => some '\x08'
  | 'f' => some '\x0c'
  | 'n' => some '\n'
  | 'r' => some '\r'
  | 't' => some '\t'
  | _ => none

/-- The UTF-16 units of a text up to its closing quote, and what follows it. Control characters have
to be escaped. -/
def readQuoted : List Char → Option (List Nat × List Char)
  | [] => none
  | '"' :: rest => some ([], rest)
  | '\\' :: 'u' :: a :: b :: c :: d :: rest =>
    if [a, b, c, d].all isHexDigit then
      (readQuoted rest).map fun (units, rest) => (digitsValue 16 [a, b, c, d] :: units, rest)
    else none
  | '\\' :: c :: rest =>
    match unescape? c with
    | some c => (readQuoted rest).map fun (units, rest) => (utf16Units c ++ units, rest)
    | none => none
  | c :: rest =>
    if c < ' ' then none
    else (readQuoted rest).map fun (units, rest) => (utf16Units c ++ units, rest)

def words : List (List Char × Json) :=
  [("null".toList, .null), ("true".toList, .bool true), ("false".toList, .bool false),
    ("NaN".toList, .real .nan), ("Infinity".toList, .real (.infinity false)),
    ("-Infinity".toList, .real (.infinity true))]

/-- A literal word and what follows it. -/
def readWord (text : List Char) : Option (Json × List Char) :=
  (words.find? fun word => word.1.isPrefixOf text).map fun word =>
    (word.2, text.drop word.1.length)

/-- One or more digits, and what follows them. -/
def readDigits (text : List Char) : Option (List Char × List Char) :=
  match text.takeWhile Char.isDigit with
  | [] => none
  | digits => some (digits, text.dropWhile Char.isDigit)

/-- The digits after a point, if there is one. -/
def readFraction : List Char → Option (List Char × List Char)
  | '.' :: text => readDigits text
  | text => some ([], text)

def readExponent : List Char → Option (Option Int × List Char)
  | [] => some (none, [])
  | e :: text =>
    if e = 'e' ∨ e = 'E' then
      match text with
      | '+' :: text => (readDigits text).map fun (digits, rest) =>
        (some (digitsValue 10 digits : Int), rest)
      | '-' :: text => (readDigits text).map fun (digits, rest) =>
        (some (-(digitsValue 10 digits : Int)), rest)
      | text => (readDigits text).map fun (digits, rest) =>
        (some (digitsValue 10 digits : Int), rest)
    else some (none, e :: text)

/-- The number with the given digits before and after the point. It is an integer if it has neither
a point nor an exponent. -/
def number (negative : Bool) (whole fraction : List Char) (exponent : Option Int) : Json :=
  if fraction = [] ∧ exponent = none then
    .int (if negative then -(digitsValue 10 whole : Int) else digitsValue 10 whole)
  else
    .real (.ofDecimal negative (digitsValue 10 (whole ++ fraction))
      (exponent.getD 0 - fraction.length))

/-- A number after its sign, and what follows it. There are no leading zeros. -/
def readUnsigned (negative : Bool) (text : List Char) : Option (Json × List Char) := do
  let (whole, text) ← readDigits text
  if whole.head? = some '0' ∧ whole ≠ ['0'] then none
  else
    let (fraction, text) ← readFraction text
    let (exponent, rest) ← readExponent text
    return (number negative whole fraction exponent, rest)

def readNumber : List Char → Option (Json × List Char)
  | '-' :: text => readUnsigned true text
  | text => readUnsigned false text

/-- The first element of a text that does not begin with a blank, and what follows it. -/
def Element.first? : List Char → Option (Element × List Char)
  | '[' :: rest => some (.openArray, rest)
  | ']' :: rest => some (.closeArray, rest)
  | '\x7b' :: rest => some (.openObject, rest)
  | '\x7d' :: rest => some (.closeObject, rest)
  | ',' :: rest => some (.comma, rest)
  | ':' :: rest => some (.colon, rest)
  | '"' :: rest => (readQuoted rest).map fun (units, rest) =>
    (.atom (.str (.ofUnits units)), rest)
  | text => ((readWord text).or (readNumber text)).map fun (value, rest) => (.atom value, rest)

theorem length_of_readQuoted {text rest : List Char} {units : List Nat}
    (h : readQuoted text = some (units, rest)) : rest.length < text.length := by
  fun_induction readQuoted text generalizing units with
  | case1 => cases h
  | case2 => cases h; simp
  | case3 a b c d tail _ ih =>
    obtain ⟨⟨us, r⟩, hr, he⟩ := Option.map_eq_some_iff.1 h
    cases he
    have := ih hr
    simp only [List.length_cons]
    omega
  | case4 => cases h
  | case5 c tail _ _ _ ih =>
    obtain ⟨⟨us, r⟩, hr, he⟩ := Option.map_eq_some_iff.1 h
    cases he
    have := ih hr
    simp only [List.length_cons]
    omega
  | case6 => cases h
  | case7 => cases h
  | case8 c tail _ _ _ _ ih =>
    obtain ⟨⟨us, r⟩, hr, he⟩ := Option.map_eq_some_iff.1 h
    cases he
    have := ih hr
    simp only [List.length_cons]
    omega

theorem length_of_readWord {text rest : List Char} {value : Json}
    (h : readWord text = some (value, rest)) : rest.length < text.length := by
  obtain ⟨word, hw, he⟩ := Option.map_eq_some_iff.1 h
  cases he
  have hp := List.find?_some hw
  have hlen := (List.isPrefixOf_iff_prefix.1 hp).length_le
  have hpos : 0 < word.1.length := by
    have hm := List.mem_of_find?_eq_some hw
    simp only [words, List.mem_cons, List.not_mem_nil, or_false] at hm
    rcases hm with rfl | rfl | rfl | rfl | rfl | rfl <;> decide
  rw [List.length_drop]
  omega

theorem length_of_readDigits {text digits rest : List Char}
    (h : readDigits text = some (digits, rest)) : rest.length < text.length := by
  unfold readDigits at h
  split at h
  · cases h
  · rename_i hne
    cases h
    have hlen := congrArg List.length
      (List.takeWhile_append_dropWhile (p := Char.isDigit) (l := text))
    have := List.length_pos_iff.2 hne
    rw [List.length_append] at hlen
    omega

theorem length_of_readFraction {text fraction rest : List Char}
    (h : readFraction text = some (fraction, rest)) : rest.length ≤ text.length := by
  unfold readFraction at h
  split at h
  · exact Nat.le_succ_of_le (Nat.le_of_lt (length_of_readDigits h))
  · cases h
    exact Nat.le_refl _

theorem length_of_readExponent {text rest : List Char} {exponent : Option Int}
    (h : readExponent text = some (exponent, rest)) : rest.length ≤ text.length := by
  unfold readExponent at h
  split at h
  · cases h
    exact Nat.le_refl _
  · split at h
    · split at h
      all_goals
        obtain ⟨⟨ds, r⟩, hr, he⟩ := Option.map_eq_some_iff.1 h
        cases he
        have := length_of_readDigits hr
        simp only [List.length_cons]
        omega
    · cases h
      exact Nat.le_refl _

theorem length_of_readUnsigned {negative : Bool} {text rest : List Char} {value : Json}
    (h : readUnsigned negative text = some (value, rest)) : rest.length < text.length := by
  unfold readUnsigned at h
  obtain ⟨⟨whole', t₁⟩, h₁, h⟩ := Option.bind_eq_some_iff.1 h
  dsimp only at h
  split at h
  · cases h
  · obtain ⟨⟨fraction, t₂⟩, h₂, h⟩ := Option.bind_eq_some_iff.1 h
    obtain ⟨⟨exponent, t₃⟩, h₃, h⟩ := Option.bind_eq_some_iff.1 h
    cases h
    exact Nat.lt_of_le_of_lt
      (Nat.le_trans (length_of_readExponent h₃) (length_of_readFraction h₂))
      (length_of_readDigits h₁)

theorem length_of_readNumber {text rest : List Char} {value : Json}
    (h : readNumber text = some (value, rest)) : rest.length < text.length := by
  unfold readNumber at h
  split at h
  · exact Nat.lt_succ_of_lt (length_of_readUnsigned h)
  · exact length_of_readUnsigned h

theorem Element.length_of_first? {text rest : List Char} {element : Element}
    (h : Element.first? text = some (element, rest)) : rest.length < text.length := by
  unfold Element.first? at h
  split at h
  iterate 6
    · cases h
      exact Nat.lt_succ_self _
  · obtain ⟨⟨units, r⟩, hr, he⟩ := Option.map_eq_some_iff.1 h
    cases he
    exact Nat.lt_succ_of_lt (length_of_readQuoted hr)
  · obtain ⟨⟨value, r⟩, hr, he⟩ := Option.map_eq_some_iff.1 h
    cases he
    rcases Option.or_eq_some_iff.1 hr with hw | ⟨_, hn⟩
    · exact length_of_readWord hw
    · exact length_of_readNumber hn

/-- The elements of a text, unless some part of it is none. -/
def Element.scan (text : List Char) : Option (List Element) :=
  match text with
  | [] => some []
  | c :: rest =>
    if isBlank c then scan rest
    else
      match _h : first? (c :: rest) with
      | some (element, rest) => (scan rest).map (element :: ·)
      | none => none
termination_by text.length
decreasing_by
  · exact Nat.lt_succ_self _
  · exact length_of_first? _h

end Kconfig.Json
