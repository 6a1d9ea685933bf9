import Kconfig.Dump
import Kconfig.Json.Reader

/-!
# Reading dumps

The trees that dumps show are read back from their text. The kind of an entry says which attributes
it has; an attribute that is null has not been set.
-/

namespace Kconfig

open Text

namespace Json

/-- What is read from the member of an object with the given key. -/
def field? {α : Type} (value : Json) (key : String) (read : Json → Option α) : Option α :=
  match value with
  | .obj members => (members.lookup (Loose.ofString key)).bind read
  | _ => none

def text? : Json → Option String
  | .str text => text.whole?
  | _ => none

def flag? : Json → Option Bool
  | .bool value => some value
  | _ => none

/-- An attribute that need not be set. -/
def orNull {α : Type} (read : Json → Option α) : Json → Option (Option α)
  | .null => some none
  | value => (read value).map some

def items? {α : Type} (read : Json → Option α) : Json → Option (List α)
  | .arr items => items.mapM read
  | _ => none

end Json

/-- The line number stands behind the last colon, so that there may be colons in the name of the
file. -/
def Location.ofText? (text : String) : Option Location :=
  let backwards := text.toList.reverse
  let digits := (backwards.takeWhile (· ≠ ':')).reverse
  match backwards.dropWhile (· ≠ ':') with
  | ':' :: file =>
    if !digits.isEmpty && digits.all Char.isDigit then
      some { file := .ofList file.reverse, linenr := Nat.ofDigitChars 10 digits 0 }
    else .none
  | _ => .none

def Condition.ofJson? (value : Json) : Option (Option Condition) :=
  value.orNull fun value => value.text?.map Condition.mk

def Conditional.ofJson? (value : Json) : Option Conditional := do
  return { value := ← value.field? "value" Json.text?
           condition := ← value.field? "condition" Condition.ofJson? }

def Range.ofJson? (value : Json) : Option Range := do
  return { low := ← value.field? "low" Json.text?
           high := ← value.field? "high" Json.text?
           condition := ← value.field? "condition" Condition.ofJson? }

def Prompt.ofJson? (value : Json) : Option Prompt := do
  return { text := ← value.field? "text" Json.text?
           condition := ← value.field? "condition" Condition.ofJson? }

def ValueType.ofName? (name : String) : Option ValueType :=
  [ValueType.bool, .tristate, .string, .int, .hex].find? (·.name = name)

def EntryKind.ofName? (name : String) : Option EntryKind :=
  [EntryKind.config, .menuconfig, .choice, .comment, .menu].find? (·.name = name)

def Heading.ofJson? (value : Json) : Option Heading := do
  return { location := ← value.field? "location" fun value => value.text?.bind Location.ofText?
           symbol := ← value.field? "symbol" (Json.orNull Json.text?)
           prompt := ← value.field? "prompt" (Json.orNull Prompt.ofJson?)
           depends := ← value.field? "depends" (Json.items? fun value =>
             value.text?.map Condition.mk) }

def Value.ofJson? (value : Json) : Option Value := do
  return { type := ← value.field? "type" (Json.orNull fun value =>
             value.text?.bind ValueType.ofName?)
           help := ← value.field? "help" (Json.orNull Json.text?)
           env := ← value.field? "env" fun value => some value.present?
           defaults := ← value.field? "defaults" (Json.items? Conditional.ofJson?) }

def Config.ofJson? (isMenu : Bool) (value : Json) : Option Config := do
  return { head := ← Heading.ofJson? value
           isMenu
           value := ← Value.ofJson? value
           selects := ← value.field? "selects" (Json.items? Conditional.ofJson?)
           implies := ← value.field? "implies" (Json.items? Conditional.ofJson?)
           ranges := ← value.field? "ranges" (Json.items? Range.ofJson?) }

namespace Entry

/-- The entry as an item of a choice, if it can be one. -/
def item? : Entry → Option ChoiceItem
  | .config c => some (.config c)
  | .comment c => some (.comment c)
  | _ => none

/-- The entry of a kind that an object shows, given what stands below it. -/
def build? (value : Json) (children : Option (List Entry)) : EntryKind → Option Entry
  | .config => (Config.ofJson? false value).map .config
  | .menuconfig => (Config.ofJson? true value).map .config
  | .choice => do
    return .choice { head := ← Heading.ofJson? value
                     value := ← Value.ofJson? value
                     optional := ← value.field? "optional" Json.flag?
                     items := ← (← children).mapM item? }
  | .comment => do return .comment { head := ← Heading.ofJson? value }
  | .menu => do
    return .menu (← Heading.ofJson? value) (← value.field? "visible_if" Condition.ofJson?)
      (← children)

mutual

/-- The entry that an object shows. -/
def ofJson? : Json → Option Entry
  | .obj members => do
    let kind ← Json.field? (.obj members) "kind" fun value => value.text?.bind EntryKind.ofName?
    build? (.obj members) (childrenOf? members) kind
  | _ => none

/-- The entries below an object with the given members. -/
def childrenOf? : List (Loose × Json) → Option (List Entry)
  | [] => none
  | (key, value) :: members =>
    if key = .ofString "children" then ofJsonItems? value else childrenOf? members

def ofJsonItems? : Json → Option (List Entry)
  | .arr items => ofJsonAll? items
  | _ => none

def ofJsonAll? : List Json → Option (List Entry)
  | [] => some []
  | item :: items => do return (← ofJson? item) :: (← ofJsonAll? items)

end

end Entry

/-- What a dump says about a tree. -/
structure Dump where
  version : String
  files : List String
  root : Entry
  deriving Repr, DecidableEq

namespace Dump

def ofJson? (value : Json) : Option Dump := do
  return { version := ← value.field? "version" Json.text?
           files := ← value.field? "files" (Json.items? Json.text?)
           root := ← value.field? "root" Entry.ofJson? }

/-- What a text says, if it is a dump. -/
def read? (text : String) : Option Dump := do
  ofJson? (← Json.read? text)

end Dump

end Kconfig
