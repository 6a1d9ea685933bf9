import Kconfig.Text.Blank
import Kconfig.Text.Utf8

/-!
# Lines of a file

The bytes of a file become physical lines, and physical lines become logical ones: while the text
gathered so far ends in a backslash and a line break, the next physical line is joined to it.
-/

namespace Kconfig

/-- A failure to read on in a file. -/
structure Damage where
  error : Text.DecodeError
  /-- The number of physical lines that are read and lost with it. -/
  torn : Nat
  deriving Repr, DecidableEq

/-- A logical line: its text, without a line break at the end, and the number of physical lines it
was made of. -/
structure Line where
  text : List Char
  height : Nat
  deriving Repr, DecidableEq

/-- Writes every kind of line break as a line feed. -/
def foldLineBreaks : List Char → List Char
  | [] => []
  | '\r' :: '\n' :: cs => '\n' :: foldLineBreaks cs
  | '\r' :: cs => '\n' :: foldLineBreaks cs
  | c :: cs => c :: foldLineBreaks cs

/-- Cuts a text after each line feed. -/
def physicalLines : List Char → List (List Char)
  | [] => []
  | c :: cs =>
    if c = '\n' then ['\n'] :: physicalLines cs
    else
      match physicalLines cs with
      | [] => [[c]]
      | line :: lines => (c :: line) :: lines

/-- The text before a backslash and a line feed at the end, if it ends in these. -/
def beforeJoin? (text : List Char) : Option (List Char) :=
  match text.reverse with
  | '\n' :: '\\' :: rest => some rest.reverse
  | _ => none

/-- The text without a line feed at the end. -/
def withoutLineFeed (text : List Char) : List Char :=
  match text.reverse with
  | '\n' :: rest => rest.reverse
  | _ => text

namespace Line

/-- Goes on joining: `text` has been gathered from `height` physical lines. If the file is cut off,
a line that waits for another one is lost. -/
def joinFrom (cut : Bool) (text : List Char) (height : Nat) : List (List Char) → List Line
  | [] =>
    match beforeJoin? text with
    | some start => if cut then [] else [⟨start, height⟩]
    | none => [⟨withoutLineFeed text, height⟩]
  | next :: lines =>
    match beforeJoin? text with
    | some start => joinFrom cut (start ++ next) (height + 1) lines
    | none => ⟨withoutLineFeed text, height⟩ :: joinFrom cut next 1 lines

/-- The logical lines made of physical ones. -/
def ofPhysical (cut : Bool) : List (List Char) → List Line
  | [] => []
  | line :: lines => joinFrom cut line 1 lines

def ofText (text : List Char) : List Line :=
  ofPhysical false (physicalLines (foldLineBreaks text))

/-- The text without a carriage return at its end, and that carriage return. -/
def splitReturn (text : List Char) : List Char × List Char :=
  if text.getLast? = some '\r' then (text.dropLast, ['\r']) else (text, [])

/-- The physical lines that can be read of a text that is cut off: the last line has no end, and a
carriage return at the cut does not end it either. -/
def beforeCut (text : List Char) : List (List Char) :=
  (physicalLines (foldLineBreaks (splitReturn text).1)).filter (·.getLast? = some '\n')

/-- The number of physical lines that are left over when lines have been made of them. -/
def leftOver (physical : List (List Char)) (lines : List Line) : Nat :=
  physical.length - (lines.map (·.height)).foldr (· + ·) 0

end Line

/-- Physical lines that can be read one after the other, and the error that is met after them, if it
is not the end of the file. -/
structure Stretch where
  physical : List (List Char)
  error : Option Text.DecodeError
  deriving Repr, DecidableEq

namespace Stretch

/-- The logical lines in front of the error. -/
def lines (s : Stretch) : List Line :=
  Line.ofPhysical s.error.isSome s.physical

/-- What prevents reading on after the lines. -/
def damage (s : Stretch) : Option Damage :=
  s.error.map fun error => { error, torn := Line.leftOver s.physical s.lines }

/-- The lines of a text that is followed by an error or by the end of the file. -/
def ofText (text : List Char) : Option Text.DecodeError → Stretch
  | none => { physical := physicalLines (foldLineBreaks text), error := none }
  | some error => { physical := Line.beforeCut text, error := some error }

/-- The lines after the first error. A carriage return in front of an error is kept until the text
goes on. -/
def after (text : List Char) : List Text.Passage → List Stretch
  | [] => []
  | passage :: passages =>
    let text := (Line.splitReturn text).2 ++ passage.text
    ofText text passage.error :: after text passages

/-- The lines of a file, up to the first error and after each error. -/
def ofBytes (bytes : List UInt8) : Stretch × List Stretch :=
  let (passage, passages) := Text.passages bytes
  (ofText passage.text passage.error, after passage.text passages)

end Stretch

namespace Line

/-- The logical lines of a file up to the first error, and what prevents reading on after them. -/
def ofBytes (bytes : List UInt8) : List Line × Option Damage :=
  let stretch := (Stretch.ofBytes bytes).1
  (stretch.lines, stretch.damage)

def beforeComment (text : List Char) : List Char :=
  text.takeWhile (· ≠ '#')

/-- A line as help texts see it: without comment and without blanks at the end. -/
def raw (text : List Char) : List Char :=
  Text.trimRight (beforeComment text)

end Line

end Kconfig
