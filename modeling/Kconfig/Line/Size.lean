import Kconfig.Line

/-!
# The size of lines

A measure of what can still be read from lines.
-/

namespace Kconfig

/-- The size of a line exceeds the number of its tokens. -/
def Line.size (line : Line) : Nat :=
  line.text.length + 2

def Line.totalSize : List Line → Nat
  | [] => 0
  | line :: lines => line.size + totalSize lines

namespace Line

theorem length_raw_le (text : List Char) : (raw text).length ≤ text.length := by
  have h₁ := (List.takeWhile_prefix (· ≠ '#') (l := text)).length_le
  have h₂ := (List.dropWhile_suffix Text.isBlank
    (l := (beforeComment text).reverse)).length_le
  simp only [List.length_reverse] at h₂
  simp only [raw, Text.trimRight, List.length_reverse]
  exact Nat.le_trans h₂ h₁

end Line

end Kconfig
