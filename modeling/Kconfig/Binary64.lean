/-!
# Binary64 numbers

Numbers with 53 significant binary digits, the two infinities, and the value that is no number. A
decimal number is rounded to the nearest of them, and each is written with the fewest digits that
read back.
-/

namespace Kconfig

inductive Binary64 where
  /-- No number. -/
  | nan
  | infinity (negative : Bool)
  /-- The significand times two to the exponent. It has 53 binary digits, or fewer if the exponent
  is the least one. -/
  | finite (negative : Bool) (significand : Nat) (exponent : Int)
  deriving Repr, DecidableEq

namespace Binary64

def minExponent : Int := -1074

def maxExponent : Int := 971

/-- The least number with 54 binary digits. -/
def limit : Nat := 9007199254740992

/-- Numerator and denominator of a fraction times a power. -/
def scale (base : Nat) (exponent : Int) (num den : Nat) : Nat × Nat :=
  (num * Nat.pow base exponent.toNat, den * Nat.pow base (-exponent).toNat)

/-- The integer next to a quotient; between two it is the even one. -/
def roundDiv (num den : Nat) : Nat :=
  let twice := 2 * (num % den)
  if den < twice ∨ (twice = den ∧ num / den % 2 = 1) then num / den + 1 else num / den

/-- The exponent at which the quotient has 53 binary digits before the point, unless it is below the
least one. -/
def exponentOf (num den : Nat) : Int :=
  let guess : Int := (num.log2 : Int) - den.log2 - 53
  let (n, d) := scale 2 (-guess) num den
  max minExponent (if limit * d ≤ n then guess + 1 else guess)

def ofQuotient (negative : Bool) (num den : Nat) : Binary64 :=
  if num = 0 then .finite negative 0 minExponent
  else
    let exponent := exponentOf num den
    let (n, d) := scale 2 (-exponent) num den
    let significand := roundDiv n d
    let (significand, exponent) :=
      if significand = limit then (limit / 2, exponent + 1) else (significand, exponent)
    if maxExponent < exponent then .infinity negative else .finite negative significand exponent

def digitCount (n : Nat) : Nat :=
  (Nat.toDigits 10 n).length

/-- The number next to `digits` times ten to `exponent`. Whatever has 310 digits before the point is
beyond the greatest number, and whatever begins 330 digits after it is below half the least one. -/
def ofDecimal (negative : Bool) (digits : Nat) (exponent : Int) : Binary64 :=
  let point := digitCount digits + exponent
  if digits = 0 ∨ point < -330 then .finite negative 0 minExponent
  else if 310 < point then .infinity negative
  else
    let (num, den) := scale 10 exponent digits 1
    ofQuotient negative num den

/-- The number of digits that a quotient has before the point; zeros after the point count against
it. -/
def pointOf (num den : Nat) : Int :=
  if den ≤ num then digitCount (num / den) else 1 - digitCount ((den - 1) / num)

/-- Of the two integers next to a quotient, the one that meets a condition; if both do, the nearer
one. -/
def next? (num den : Nat) (accept : Nat → Bool) : Option Nat :=
  let low := num / den
  if accept low && accept (low + 1) then some (roundDiv num den)
  else if accept low then some low
  else if accept (low + 1) then some (low + 1)
  else none

/-- The decimal with the given number of digits that reads back, as its digits and the exponent of
ten. -/
def decimal? (significand : Nat) (exponent : Int) (count : Nat) : Option (Nat × Int) :=
  let (num, den) := scale 2 exponent significand 1
  let place := pointOf num den - count
  let (n, d) := scale 10 (-place) num den
  let readsBack digits := ofDecimal false digits place == .finite false significand exponent
  (next? n d readsBack).map fun digits => (digits, place)

def exactDecimal (significand : Nat) (exponent : Int) : Nat × Int :=
  if exponent < 0 then (significand * Nat.pow 5 (-exponent).toNat, exponent)
  else (significand * Nat.pow 2 exponent.toNat, 0)

/-- The fewest digits that read back; seventeen are enough. -/
def shortest (significand : Nat) (exponent : Int) : Nat × Int :=
  ((List.range 17).findSome? fun n => decimal? significand exponent (n + 1)).getD
    (exactDecimal significand exponent)

/-- An exponent of ten with its sign and at least two digits. -/
def writeExponent (exponent : Int) : List Char :=
  let digits := Nat.toDigits 10 exponent.natAbs
  (if exponent < 0 then '-' else '+') :: (if digits.length < 2 then '0' :: digits else digits)

/-- Digits with the point after `point` of them. -/
def writePlain (digits : List Char) (point : Int) : List Char :=
  let zeros := List.replicate (-point).toNat '0'
  let whole := digits.take point.toNat
  let more := List.replicate (point.toNat - digits.length) '0'
  let fraction := zeros ++ digits.drop point.toNat
  (if whole = [] then ['0'] else whole ++ more) ++
    '.' :: (if fraction = [] then ['0'] else fraction)

/-- Digits with the point after the first one, and the exponent that makes up for it. -/
def writeScientific (digits : List Char) (point : Int) : List Char :=
  let fraction := digits.drop 1
  digits.take 1 ++ (if fraction = [] then [] else '.' :: fraction) ++
    'e' :: writeExponent (point - 1)

/-- The written form of a decimal: with an exponent if it is 10^16 or above, or below 0.0001. -/
def writeDecimal (digits : Nat) (exponent : Int) : List Char :=
  let text := Nat.toDigits 10 digits
  let point := text.length + exponent
  let text := (text.reverse.dropWhile (· = '0')).reverse
  if -4 < point ∧ point ≤ 16 then writePlain text point else writeScientific text point

/-- The sign of a value in front of its written form. -/
def writeSigned (negative : Bool) (text : List Char) : List Char :=
  if negative then '-' :: text else text

def write : Binary64 → List Char
  | .nan => "NaN".toList
  | .infinity negative => writeSigned negative "Infinity".toList
  | .finite negative significand exponent =>
    writeSigned negative <|
      if significand = 0 then "0.0".toList
      else
        let (digits, exponent) := shortest significand exponent
        writeDecimal digits exponent

end Binary64

end Kconfig
