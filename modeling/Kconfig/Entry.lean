import Kconfig.Json

/-!
# Entries

The tree of a configuration language: configs, choices, comments and menus with their directives.
Conditions and values are kept as normalised text. Each kind of entry has only the attributes that
make sense for it.
-/

namespace Kconfig

structure Location where
  file : String
  linenr : Nat
  deriving Repr, DecidableEq

def Location.text (location : Location) : String :=
  location.file ++ ":" ++ toString location.linenr

structure Condition where
  text : String
  deriving Repr, DecidableEq

/-- A value that applies under a condition: a default, or the symbol of a `select` or `imply`. -/
structure Conditional where
  value : String
  condition : Option Condition := none
  deriving Repr, DecidableEq

/-- The bounds of a number under a condition. -/
structure Range where
  low : String
  high : String
  condition : Option Condition := none
  deriving Repr, DecidableEq

/-- The text shown for an entry and the condition under which it is shown. -/
structure Prompt where
  text : String
  condition : Option Condition := none
  deriving Repr, DecidableEq

inductive ValueType where
  | bool
  | tristate
  | string
  | int
  | hex
  deriving Repr, DecidableEq

def ValueType.name : ValueType → String
  | .bool => "bool"
  | .tristate => "tristate"
  | .string => "string"
  | .int => "int"
  | .hex => "hex"

inductive EntryKind where
  | config
  | menuconfig
  | choice
  | comment
  | menu
  deriving Repr, DecidableEq

def EntryKind.name : EntryKind → String
  | .config => "config"
  | .menuconfig => "menuconfig"
  | .choice => "choice"
  | .comment => "comment"
  | .menu => "menu"

structure Heading where
  location : Location
  symbol : Option String := none
  prompt : Option Prompt := none
  /-- The conditions the entry depends on, without repetition. -/
  depends : List Condition := []
  deriving Repr, DecidableEq

structure Value where
  type : Option ValueType := none
  help : Option String := none
  /-- The value taken from the environment. -/
  env : Option Json := none
  defaults : List Conditional := []
  deriving Repr, DecidableEq

structure Config where
  head : Heading
  isMenu : Bool := false
  value : Value := {}
  selects : List Conditional := []
  implies : List Conditional := []
  ranges : List Range := []
  deriving Repr, DecidableEq

structure Comment where
  head : Heading
  deriving Repr, DecidableEq

inductive ChoiceItem where
  | config (config : Config)
  | comment (comment : Comment)
  deriving Repr, DecidableEq

/-- A `choice` entry with what stands in it, in source order. -/
structure Choice where
  head : Heading
  value : Value := {}
  /-- No member has to be selected. -/
  optional : Bool := false
  items : List ChoiceItem := []
  deriving Repr, DecidableEq

inductive Entry where
  | config (config : Config)
  | choice (choice : Choice)
  | comment (comment : Comment)
  | menu (head : Heading) (visibleIf : Option Condition) (children : List Entry)
  deriving Repr

/-- A menu entry, such as the root of a tree. -/
structure Menu where
  head : Heading
  visibleIf : Option Condition := none
  children : List Entry := []
  deriving Repr

/-- Appends an element unless the list holds it already. -/
def addNew {α : Type} [DecidableEq α] (items : List α) (item : α) : List α :=
  if item ∈ items then items else items ++ [item]

namespace Conditional

/-- The written form of a conditional value. -/
def written (c : Conditional) : String :=
  match c.condition with
  | none => c.value
  | some condition => c.value ++ " if " ++ condition.text

end Conditional

namespace Range

def written (r : Range) : String :=
  let bounds := r.low ++ " " ++ r.high
  match r.condition with
  | none => bounds
  | some condition => bounds ++ " if " ++ condition.text

end Range

namespace Prompt

def written (p : Prompt) : String :=
  let quoted := "\"" ++ p.text ++ "\""
  match p.condition with
  | none => quoted
  | some condition => quoted ++ " if " ++ condition.text

end Prompt

namespace Config

/-- A config is of one of two kinds. -/
def kind (c : Config) : EntryKind :=
  if c.isMenu then .menuconfig else .config

end Config

namespace ChoiceItem

def toEntry : ChoiceItem → Entry
  | .config c => .config c
  | .comment c => .comment c

end ChoiceItem

namespace Choice

def members (c : Choice) : List Config :=
  c.items.filterMap fun
    | .config member => some member
    | .comment _ => none

def comments (c : Choice) : List Comment :=
  c.items.filterMap fun
    | .config _ => none
    | .comment comment => some comment

end Choice

namespace Menu

def toEntry (m : Menu) : Entry :=
  .menu m.head m.visibleIf m.children

end Menu

namespace Entry

mutual

/-- Equality of entries is equality of everything in them. -/
def decEq : (a b : Entry) → Decidable (a = b)
  | .config a, .config b => decidable_of_iff (a = b) (by simp)
  | .choice a, .choice b => decidable_of_iff (a = b) (by simp)
  | .comment a, .comment b => decidable_of_iff (a = b) (by simp)
  | .menu h v as, .menu h' v' bs =>
    have := decEqAll as bs
    decidable_of_iff (h = h' ∧ v = v' ∧ as = bs) (by simp)
  | .config _, .choice _ => .isFalse (by simp)
  | .config _, .comment _ => .isFalse (by simp)
  | .config _, .menu _ _ _ => .isFalse (by simp)
  | .choice _, .config _ => .isFalse (by simp)
  | .choice _, .comment _ => .isFalse (by simp)
  | .choice _, .menu _ _ _ => .isFalse (by simp)
  | .comment _, .config _ => .isFalse (by simp)
  | .comment _, .choice _ => .isFalse (by simp)
  | .comment _, .menu _ _ _ => .isFalse (by simp)
  | .menu _ _ _, .config _ => .isFalse (by simp)
  | .menu _ _ _, .choice _ => .isFalse (by simp)
  | .menu _ _ _, .comment _ => .isFalse (by simp)

def decEqAll : (as bs : List Entry) → Decidable (as = bs)
  | [], [] => .isTrue rfl
  | [], _ :: _ => .isFalse (by simp)
  | _ :: _, [] => .isFalse (by simp)
  | a :: as, b :: bs =>
    have := decEq a b
    have := decEqAll as bs
    decidable_of_iff (a = b ∧ as = bs) (by simp)

end

instance : DecidableEq Entry := decEq

/-- What the entry has in common with all others. -/
def head : Entry → Heading
  | .config c => c.head
  | .choice c => c.head
  | .comment c => c.head
  | .menu head _ _ => head

def setHead (head : Heading) : Entry → Entry
  | .config c => .config { c with head }
  | .choice c => .choice { c with head }
  | .comment _ => .comment { head }
  | .menu _ visibleIf children => .menu head visibleIf children

/-- What the entry has in common with the others that carry a value. -/
def value? : Entry → Option Value
  | .config c => some c.value
  | .choice c => some c.value
  | .comment _ => none
  | .menu _ _ _ => none

/-- Replaces the value of an entry that has one. -/
def setValue (value : Value) : Entry → Entry
  | .config c => .config { c with value }
  | .choice c => .choice { c with value }
  | e => e

def kind : Entry → EntryKind
  | .config c => c.kind
  | .choice _ => .choice
  | .comment _ => .comment
  | .menu _ _ _ => .menu

/-- An entry of the given kind in which nothing has been set. -/
def ofKind (kind : EntryKind) (head : Heading) : Entry :=
  match kind with
  | .config => .config { head }
  | .menuconfig => .config { head, isMenu := true }
  | .choice => .choice { head }
  | .comment => .comment { head }
  | .menu => .menu head none []

/-- How messages name an entry: by its symbol, else by its prompt. -/
def title (e : Entry) : String :=
  let name :=
    match e.head.symbol.filter (· ≠ ""), e.head.prompt with
    | some symbol, _ => symbol
    | none, some prompt => "\"" ++ prompt.text ++ "\""
    | none, none => "<unnamed>"
  e.kind.name ++ " " ++ name ++ " (defined at " ++ e.head.location.text ++ ")"

/-- The entry with one more child, where it can have such a child. -/
def addChild (parent child : Entry) : Entry :=
  match parent, child with
  | .menu head visibleIf children, child => .menu head visibleIf (children ++ [child])
  | .choice c, .config member => .choice { c with items := c.items ++ [.config member] }
  | .choice c, .comment note => .choice { c with items := c.items ++ [.comment note] }
  | parent, _ => parent

/-- The entry with one more condition to depend on. -/
def addDepends (e : Entry) (condition : Condition) : Entry :=
  e.setHead { e.head with depends := addNew e.head.depends condition }

/-- Completes an entry: the condition of its prompt and the conditions of the enclosing blocks,
outermost first, follow its own. -/
def finish (e : Entry) (scope : List Condition) : Entry :=
  let own :=
    match e.head.prompt.bind (·.condition) with
    | some condition => e.addDepends condition
    | none => e
  scope.foldl addDepends own

mutual

/-- The entry and all entries below it, each before those below it. -/
def walk : Entry → List Entry
  | .config c => [.config c]
  | .comment c => [.comment c]
  | .choice c => .choice c :: c.items.map ChoiceItem.toEntry
  | .menu head visibleIf children => .menu head visibleIf children :: walkAll children

/-- The entries of a list and all entries below them. -/
def walkAll : List Entry → List Entry
  | [] => []
  | e :: es => walk e ++ walkAll es

end

end Entry

end Kconfig
