import Kconfig.Json

/-!
# References in text

A dollar sign followed by letters and underscores refers to a value. References are replaced in one
pass from left to right; a reference without a value, or with one that says nothing, stays as it is.
Any other value has to be a text.
-/

namespace Kconfig.Reference

/-- The characters of the name of a reference. -/
def isNameLetter (c : Char) : Bool :=
  c.isAlpha || c == '_'

inductive Piece where
  | char (c : Char)
  | reference (name : List Char)
  deriving Repr, DecidableEq

/-- The pieces of a text; the name of a reference is as long as can be. -/
def pieces : List Char → List Piece
  | [] => []
  | c :: cs =>
    if c = '$' ∧ cs.takeWhile isNameLetter ≠ [] then
      .reference (cs.takeWhile isNameLetter) :: pieces (cs.dropWhile isNameLetter)
    else .char c :: pieces cs
termination_by text => text.length
decreasing_by
  · have := (List.dropWhile_suffix isNameLetter (l := cs)).length_le
    simp only [List.length_cons]
    omega
  · simp

/-- What stands in the place of a piece. -/
def Piece.fill? (lookup : String → Option Json) : Piece → Option Text.Loose
  | .char c => some (.ofChars [c])
  | .reference name =>
    match (lookup (.ofList name)).filter (!·.isVoid) with
    | none => some (.ofChars ('$' :: name))
    | some (.str text) => some text
    | some _ => none

/-- Replaces the references in a text by the values that `lookup` gives to their names, unless one
of these is no text. -/
def substitute? (lookup : String → Option Json) (text : String) : Option Text.Loose :=
  ((pieces text.toList).mapM (Piece.fill? lookup)).map fun parts => ⟨parts.flatMap (·.points)⟩

end Kconfig.Reference
