import Kconfig.Tree

/-!
# Trees as JSON

The JSON view of entries and trees. Attributes that an entry's kind does not have are left out;
those that are not set are null.
-/

namespace Kconfig

namespace Condition

def toJson? (condition : Option Condition) : Json :=
  .ofString? (condition.map (·.text))

end Condition

def Conditional.toJson (c : Conditional) : Json :=
  .object [("value", .str c.value), ("condition", Condition.toJson? c.condition)]

def Range.toJson (r : Range) : Json :=
  .object [("low", .str r.low), ("high", .str r.high), ("condition", Condition.toJson? r.condition)]

def Prompt.toJson (p : Prompt) : Json :=
  .object [("text", .str p.text), ("condition", Condition.toJson? p.condition)]

def Heading.members (kind : EntryKind) (head : Heading) : List (String × Json) :=
  [("kind", .str kind.name),
    ("symbol", .ofString? head.symbol),
    ("location", .str head.location.text),
    ("prompt", match head.prompt with
      | none => .null
      | some prompt => prompt.toJson),
    ("depends", .ofStrings (head.depends.map (·.text)))]

/-- The attributes of kinds with a value. -/
def Value.members (value : Value) : List (String × Json) :=
  [("type", .ofString? (value.type.map (·.name))),
    ("help", .ofString? value.help),
    ("env", value.env.getD .null),
    ("defaults", .arr (value.defaults.map Conditional.toJson))]

def Config.toJson (c : Config) : Json :=
  .object (c.head.members c.kind ++ c.value.members ++
    [("selects", .arr (c.selects.map Conditional.toJson)),
      ("implies", .arr (c.implies.map Conditional.toJson)),
      ("ranges", .arr (c.ranges.map Range.toJson))])

def Comment.toJson (c : Comment) : Json :=
  .object (c.head.members .comment)

/-- An item of a choice as a JSON value. -/
def ChoiceItem.toJson : ChoiceItem → Json
  | .config c => c.toJson
  | .comment c => c.toJson

def Choice.toJson (c : Choice) : Json :=
  .object (c.head.members .choice ++ c.value.members ++
    [("optional", .bool c.optional), ("children", .arr (c.items.map ChoiceItem.toJson))])

namespace Entry

mutual

/-- An entry with everything below it as a JSON value. -/
def toJson : Entry → Json
  | .config c => c.toJson
  | .choice c => c.toJson
  | .comment c => c.toJson
  | .menu head visibleIf children =>
    .object (head.members .menu ++
      [("visible_if", Condition.toJson? visibleIf), ("children", .arr (toJsonAll children))])

def toJsonAll : List Entry → List Json
  | [] => []
  | e :: es => toJson e :: toJsonAll es

end

end Entry

namespace Tree

/-- The version of the format of dumps. -/
def version : String := "1.0.0"

def toJson (tree : Tree) : Json :=
  .object [("version", .str version), ("files", .ofStrings tree.files),
    ("root", tree.root.toEntry.toJson)]

def dump (tree : Tree) : String :=
  tree.toJson.write

end Tree

end Kconfig
