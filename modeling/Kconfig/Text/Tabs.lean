/-!
# Tab expansion

A tab is replaced by the spaces that lead to the next column divisible by the tab width; every other
character takes one column, and a line break begins again at column zero.
-/

namespace Kconfig.Text

/-- Tab stops are eight columns apart. -/
def tabWidth : Nat := 8

/-- Expands the tabs of a text whose first character stands in column `column`. -/
def expandTabsFrom (column : Nat) : List Char → List Char
  | [] => []
  | c :: cs =>
    if c = '\t' then
      let width := tabWidth - column % tabWidth
      List.replicate width ' ' ++ expandTabsFrom (column + width) cs
    else if c = '\n' ∨ c = '\r' then c :: expandTabsFrom 0 cs
    else c :: expandTabsFrom (column + 1) cs

/-- Expands the tabs of a text that begins in column zero. -/
def expandTabs (cs : List Char) : List Char :=
  expandTabsFrom 0 cs

end Kconfig.Text
