/-!
# White space

The characters with the Unicode property of white space, together with the four information
separators, and the removal of such characters at the ends of a text.
-/

namespace Kconfig.Text

/-- A blank is a tab, a line break of any kind, an information separator or a space of any width. -/
def isBlank (c : Char) : Bool :=
  let n := c.toNat
  (0x09 ≤ n && n ≤ 0x0D) || (0x1C ≤ n && n ≤ 0x20) || n == 0x85 || n == 0xA0 || n == 0x1680 ||
    (0x2000 ≤ n && n ≤ 0x200A) || n == 0x2028 || n == 0x2029 || n == 0x202F || n == 0x205F ||
    n == 0x3000

def trimLeft (cs : List Char) : List Char :=
  cs.dropWhile isBlank

def trimRight (cs : List Char) : List Char :=
  (cs.reverse.dropWhile isBlank).reverse

def trim (cs : List Char) : List Char :=
  trimRight (trimLeft cs)

/-- A text is blank if it holds nothing but blanks. -/
def isBlankText (cs : List Char) : Bool :=
  cs.all isBlank

def indentation (cs : List Char) : Nat :=
  (cs.takeWhile isBlank).length

end Kconfig.Text

namespace String

/-- The string without the blanks at both ends. -/
def trimBlanks (s : String) : String :=
  ofList (Kconfig.Text.trim s.toList)

end String
