import Kconfig.Text.Utf16

/-!
# Loose text

Text in which halves of surrogate pairs may stand alone, as the escapes of JSON can write it. Most
text has no such halves and is whole.
-/

namespace Kconfig.Text

/-- A character, or half of a surrogate pair. -/
inductive CodePoint where
  | char (c : Char)
  | half (unit : Nat)
  deriving Repr, DecidableEq

/-- Text in which halves of surrogate pairs may stand alone. -/
structure Loose where
  points : List CodePoint
  deriving Repr, DecidableEq

namespace CodePoint

/-- The code point of a unit that is in no pair. -/
def ofUnit (n : Nat) : CodePoint :=
  if isHighSurrogate n || isLowSurrogate n then .half n else .char (Char.ofNat n)

/-- The code points that units stand for. A half that begins a pair and one that ends a pair are a
character where the one follows the other. -/
def ofUnits : List Nat → List CodePoint
  | [] => []
  | [n] => [ofUnit n]
  | high :: low :: units =>
    if isHighSurrogate high && isLowSurrogate low then .char (charOfPair high low) :: ofUnits units
    else ofUnit high :: ofUnits (low :: units)

def char? : CodePoint → Option Char
  | .char c => some c
  | .half _ => none

/-- Characters as they are, halves as escapes. -/
def shown : CodePoint → List Char
  | .char c => [c]
  | .half n => escapeUnit n

/-- The halves that stand for single bytes in the names of files. -/
def isByte : CodePoint → Bool
  | .char _ => false
  | .half n => 0xDC80 ≤ n && n < 0xDD00

end CodePoint

namespace Loose

def ofChars (text : List Char) : Loose :=
  ⟨text.map .char⟩

def ofString (text : String) : Loose :=
  ofChars text.toList

instance : Coe String Loose := ⟨ofString⟩

instance : Append Loose := ⟨fun a b => ⟨a.points ++ b.points⟩⟩

def ofUnits (units : List Nat) : Loose :=
  ⟨CodePoint.ofUnits units⟩

def whole? (text : Loose) : Option String :=
  (text.points.mapM CodePoint.char?).map .ofList

def shown (text : Loose) : String :=
  .ofList (text.points.flatMap CodePoint.shown)

@[simp]
theorem points_append (a b : Loose) : (a ++ b).points = a.points ++ b.points :=
  rfl

theorem whole?_ofString (text : String) : (ofString text).whole? = some text := by
  have hwhole : ∀ cs : List Char, (cs.map CodePoint.char).mapM CodePoint.char? = some cs := by
    intro cs
    induction cs with
    | nil => rfl
    | cons c cs ih =>
      rw [List.map_cons, List.mapM_cons, ih]
      rfl
  rw [whole?, ofString, ofChars, hwhole, Option.map_some, String.ofList_toList]

theorem ofString_inj {a b : String} : ofString a = ofString b ↔ a = b := by
  refine ⟨fun h => ?_, congrArg ofString⟩
  have hwhole := whole?_ofString a
  rw [h, whole?_ofString] at hwhole
  exact (Option.some.inj hwhole).symm

end Loose

end Kconfig.Text
