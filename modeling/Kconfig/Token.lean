import Kconfig.Text.Hex

/-!
# Tokens

A line consists of words, quoted texts and single characters. Words are made of ASCII letters,
digits, `-` and `_`; a word that is written like a number is one. A quoted text goes to the next
quote of the same sort, or to the end of the line, and has no escapes. A `#` outside of quotes
begins a comment. A decimal number of very many digits is scanned like any other, but there is no
token for it: whoever asks for it meets an error.
-/

namespace Kconfig

open Text

inductive Lexeme where
  | word (text : String)
  | number (text : String) (value : Int)
  | quoted (quote : Char) (text : String)
  | char (c : Char)
  | lineEnd
  | fileEnd
  deriving Repr, DecidableEq

/-- A token and the first physical line of the line it stands in. -/
structure Token where
  lexeme : Lexeme
  linenr : Nat
  deriving Repr, DecidableEq

def isSeparator (c : Char) : Bool :=
  c ≤ ' '

/-- The characters that words are made of. -/
def isWordLetter (c : Char) : Bool :=
  c.isAlphanum || c == '-' || c == '_'

def isQuote (c : Char) : Bool :=
  c == '"' || c == '\''

/-- The value of a word that is written like a number: decimal with an optional sign, or hexadecimal
after `0x`. -/
def numberValue? : List Char → Option Int
  | [] => none
  | '-' :: digits =>
    if digits ≠ [] ∧ digits.all Char.isDigit then some (-(digitsValue 10 digits : Int)) else none
  | c :: digits =>
    if c.isDigit ∧ digits.all Char.isDigit then some (digitsValue 10 (c :: digits))
    else
      match c, digits with
      | '0', x :: hex =>
        if (x = 'x' ∨ x = 'X') ∧ hex ≠ [] ∧ hex.all isHexDigit then some (digitsValue 16 hex)
        else none
      | _, _ => none

/-- The number of digits that a decimal number can have. -/
def digitLimit : Nat := 4300

namespace Lexeme

/-- A word or a number, according to how the word is written. -/
def ofWord (word : List Char) : Lexeme :=
  match numberValue? word with
  | some value => .number (.ofList word) value
  | none => .word (.ofList word)

/-- The first lexeme of a line and the text after it; there is none at the end of the line and in
front of a comment. -/
def first? (line : List Char) : Option (Lexeme × List Char) :=
  match line.dropWhile isSeparator with
  | [] => none
  | c :: cs =>
    if c = '#' then none
    else if isQuote c then
      some (.quoted c (.ofList (cs.takeWhile (· ≠ c))), (cs.dropWhile (· ≠ c)).drop 1)
    else if isWordLetter c then
      some (ofWord (c :: cs.takeWhile isWordLetter), cs.dropWhile isWordLetter)
    else some (.char c, cs)

theorem length_of_first? {line rest : List Char} {lexeme : Lexeme}
    (h : first? line = some (lexeme, rest)) : rest.length < line.length := by
  unfold first? at h
  have hline := (List.dropWhile_suffix isSeparator (l := line)).length_le
  split at h
  · cases h
  · rename_i c cs hcs
    rw [hcs, List.length_cons] at hline
    split at h
    · cases h
    · split at h
      · cases h
        have := (List.dropWhile_suffix (· ≠ c) (l := cs)).length_le
        rw [List.length_drop]
        omega
      · split at h
        · cases h
          have := (List.dropWhile_suffix isWordLetter (l := cs)).length_le
          omega
        · cases h
          omega

/-- The lexemes of a line, up to and including its end. -/
def scan (line : List Char) : List Lexeme :=
  match _h : first? line with
  | none => [.lineEnd]
  | some (lexeme, rest) => lexeme :: scan rest
termination_by line.length
decreasing_by exact length_of_first? _h

/-- The text of a lexeme, without quotes. -/
def text : Lexeme → String
  | .word text => text
  | .number text _ => text
  | .quoted _ text => text
  | .char c => .singleton c
  | .lineEnd => ""
  | .fileEnd => ""

/-- The written form of a lexeme; ends are described in words. -/
def written : Lexeme → String
  | .word text => text
  | .number text _ => text
  | .quoted quote text => .singleton quote ++ text ++ .singleton quote
  | .char c => .singleton c
  | .lineEnd => "end of line"
  | .fileEnd => "end of file"

/-- The text of a word or number. -/
def wordText? : Lexeme → Option String
  | .word text => some text
  | .number text _ => some text
  | _ => none

/-- The number of digits of a decimal number that has more than can be converted. A word that is
written so cannot be delivered. -/
def excessDigits? : Lexeme → Option Nat
  | .number text _ =>
    let digits := text.toList.dropWhile (· = '-')
    if digitLimit < digits.length ∧ digits.all Char.isDigit then some digits.length else none
  | _ => none

/-- The end of a line or of the file. -/
def isEnd : Lexeme → Bool
  | .lineEnd => true
  | .fileEnd => true
  | _ => false

end Lexeme

namespace Token

/-- The token can be delivered. -/
def isDeliverable (token : Token) : Bool :=
  token.lexeme.excessDigits?.isNone

theorem isDeliverable_iff {token : Token} :
    token.isDeliverable = true ↔ token.lexeme.excessDigits? = none :=
  Option.isNone_iff_eq_none

/-- The tokens of a line that begins at the physical line `linenr`. -/
def ofLine (linenr : Nat) (line : List Char) : List Token :=
  (Lexeme.scan line).map fun lexeme => ⟨lexeme, linenr⟩

end Token

end Kconfig
