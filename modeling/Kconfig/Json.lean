import Kconfig.Binary64
import Kconfig.Text.Loose

/-!
# JSON values

Values with the members of objects in order, and their written form: indented by four spaces a
level, in ASCII alone. Texts may hold halves of surrogate pairs.
-/

namespace Kconfig

inductive Json where
  | null
  | bool (value : Bool)
  | int (value : Int)
  /-- A number that is not written as an integer. -/
  | real (value : Binary64)
  | str (value : Text.Loose)
  | arr (items : List Json)
  | obj (members : List (Text.Loose × Json))
  deriving Repr, Inhabited

namespace Json

open Text

mutual

/-- Equality of values is equality of everything in them. -/
def decEq : (a b : Json) → Decidable (a = b)
  | .null, .null => .isTrue rfl
  | .bool a, .bool b => decidable_of_iff (a = b) (by simp)
  | .int a, .int b => decidable_of_iff (a = b) (by simp)
  | .real a, .real b => decidable_of_iff (a = b) (by simp)
  | .str a, .str b => decidable_of_iff (a = b) (by simp)
  | .arr as, .arr bs =>
    have := decEqItems as bs
    decidable_of_iff (as = bs) (by simp)
  | .obj as, .obj bs =>
    have := decEqMembers as bs
    decidable_of_iff (as = bs) (by simp)
  | .null, .bool _ | .null, .int _ | .null, .real _ | .null, .str _ | .null, .arr _
  | .null, .obj _ => .isFalse (by simp)
  | .bool _, .null | .bool _, .int _ | .bool _, .real _ | .bool _, .str _ | .bool _, .arr _
  | .bool _, .obj _ => .isFalse (by simp)
  | .int _, .null | .int _, .bool _ | .int _, .real _ | .int _, .str _ | .int _, .arr _
  | .int _, .obj _ => .isFalse (by simp)
  | .real _, .null | .real _, .bool _ | .real _, .int _ | .real _, .str _ | .real _, .arr _
  | .real _, .obj _ => .isFalse (by simp)
  | .str _, .null | .str _, .bool _ | .str _, .int _ | .str _, .real _ | .str _, .arr _
  | .str _, .obj _ => .isFalse (by simp)
  | .arr _, .null | .arr _, .bool _ | .arr _, .int _ | .arr _, .real _ | .arr _, .str _
  | .arr _, .obj _ => .isFalse (by simp)
  | .obj _, .null | .obj _, .bool _ | .obj _, .int _ | .obj _, .real _ | .obj _, .str _
  | .obj _, .arr _ => .isFalse (by simp)

def decEqItems : (as bs : List Json) → Decidable (as = bs)
  | [], [] => .isTrue rfl
  | [], _ :: _ => .isFalse (by simp)
  | _ :: _, [] => .isFalse (by simp)
  | a :: as, b :: bs =>
    have := decEq a b
    have := decEqItems as bs
    decidable_of_iff (a = b ∧ as = bs) (by simp)

def decEqMembers : (as bs : List (Loose × Json)) → Decidable (as = bs)
  | [], [] => .isTrue rfl
  | [], _ :: _ => .isFalse (by simp)
  | _ :: _, [] => .isFalse (by simp)
  | (k, a) :: as, (l, b) :: bs =>
    have := decEq a b
    have := decEqMembers as bs
    decidable_of_iff ((k = l ∧ a = b) ∧ as = bs) (by simp)

end

instance : DecidableEq Json := decEq

def object (members : List (String × Json)) : Json :=
  .obj (members.map fun member => (.ofString member.1, member.2))

def ofString? : Option String → Json
  | none => .null
  | some text => .str text

def ofStrings (texts : List String) : Json :=
  .arr (texts.map fun (text : String) => .str text)

def present? : Json → Option Json
  | .null => none
  | value => some value

/-- A value that says nothing: none, no, zero, or one without parts. -/
def isVoid : Json → Bool
  | .null => true
  | .bool value => !value
  | .int n => n == 0
  | .real (.finite _ significand _) => significand == 0
  | .real _ => false
  | .str text => text.points.isEmpty
  | .arr items => items.isEmpty
  | .obj members => members.isEmpty

/-- The written form of a character inside a text. Control characters and all beyond ASCII are
escaped, those above U+FFFF as a pair of surrogates. -/
def escapeChar (c : Char) : List Char :=
  if c = '"' then ['\\', '"']
  else if c = '\\' then ['\\', '\\']
  else if c = '\n' then ['\\', 'n']
  else if c = '\r' then ['\\', 'r']
  else if c = '\t' then ['\\', 't']
  else if c = '\x0c' then ['\\', 'f']
  else if c = '\x08' then ['\\', 'b']
  else if ' ' ≤ c ∧ c ≤ '~' then [c]
  else (utf16Units c).flatMap escapeUnit

/-- The written form of a character or half inside a text. -/
def escapePoint : CodePoint → List Char
  | .char c => escapeChar c
  | .half n => escapeUnit n

def quote (text : Loose) : List Char :=
  '"' :: text.points.flatMap escapePoint ++ ['"']

/-- A line break and the indentation of a level. -/
def newLine (level : Nat) : List Char :=
  '\n' :: List.replicate (4 * level) ' '

mutual

/-- The written form of a value on the given level. -/
def writeAt (level : Nat) : Json → List Char
  | .null => "null".toList
  | .bool true => "true".toList
  | .bool false => "false".toList
  | .int n => (toString n).toList
  | .real value => value.write
  | .str text => quote text
  | .arr [] => "[]".toList
  | .arr (item :: items) =>
    '[' :: newLine (level + 1) ++ writeAt (level + 1) item ++ writeItems (level + 1) items ++
      newLine level ++ [']']
  | .obj [] => ['\x7b', '\x7d']
  | .obj ((key, value) :: members) =>
    '\x7b' :: newLine (level + 1) ++ quote key ++ ": ".toList ++ writeAt (level + 1) value ++
      writeMembers (level + 1) members ++ newLine level ++ ['\x7d']

/-- The written form of the items after the first one. -/
def writeItems (level : Nat) : List Json → List Char
  | [] => []
  | item :: items => ',' :: newLine level ++ writeAt level item ++ writeItems level items

/-- The written form of the members after the first one. -/
def writeMembers (level : Nat) : List (Loose × Json) → List Char
  | [] => []
  | (key, value) :: members =>
    ',' :: newLine level ++ quote key ++ ": ".toList ++ writeAt level value ++
      writeMembers level members

end

def write (value : Json) : String :=
  .ofList (writeAt 0 value)

end Json

end Kconfig
