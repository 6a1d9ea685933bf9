import Kconfig.Context
import Mathlib.Tactic.Lemma

/-!
# Entries without their locations

Two runs that find the same text in different places build entries that differ in their locations
alone. What is done to entries commutes with leaving the locations out.
-/

namespace Kconfig

/-- The place of an entry of which the place does not matter. -/
def Location.none : Location := ⟨"", 0⟩

def Heading.unlocated (head : Heading) : Heading :=
  { head with location := .none }

def Config.unlocated (c : Config) : Config :=
  { c with head := c.head.unlocated }

def Comment.unlocated (c : Comment) : Comment :=
  { c with head := c.head.unlocated }

def ChoiceItem.unlocated : ChoiceItem → ChoiceItem
  | .config c => .config c.unlocated
  | .comment c => .comment c.unlocated

def Choice.unlocated (c : Choice) : Choice :=
  { c with head := c.head.unlocated, items := c.items.map ChoiceItem.unlocated }

namespace Entry

mutual

/-- The entry without the locations in it. -/
def unlocated : Entry → Entry
  | .config c => .config c.unlocated
  | .choice c => .choice c.unlocated
  | .comment c => .comment c.unlocated
  | .menu head visibleIf children => .menu head.unlocated visibleIf (unlocatedAll children)

def unlocatedAll : List Entry → List Entry
  | [] => []
  | e :: es => e.unlocated :: unlocatedAll es

end

lemma unlocatedAll_eq_map (es : List Entry) : unlocatedAll es = es.map unlocated := by
  induction es with
  | nil => rfl
  | cons e es ih => rw [unlocatedAll, ih, List.map_cons]

@[simp]
lemma kind_unlocated (e : Entry) : e.unlocated.kind = e.kind := by
  cases e <;> rfl

@[simp]
lemma head_unlocated (e : Entry) : e.unlocated.head = e.head.unlocated := by
  cases e <;> rfl

lemma head_of_unlocated {e e' : Entry} (h : e'.unlocated = e.unlocated) :
    e'.head.unlocated = e.head.unlocated := by
  rw [← head_unlocated e', h, head_unlocated]

lemma kind_of_unlocated {e e' : Entry} (h : e'.unlocated = e.unlocated) : e'.kind = e.kind := by
  rw [← kind_unlocated e', h, kind_unlocated]

lemma symbol_of_unlocated {e e' : Entry} (h : e'.unlocated = e.unlocated) :
    e'.head.symbol = e.head.symbol := by
  have hsymbol := congrArg Heading.symbol (head_of_unlocated h)
  exact hsymbol

lemma prompt_of_unlocated {e e' : Entry} (h : e'.unlocated = e.unlocated) :
    e'.head.prompt = e.head.prompt := by
  have hprompt := congrArg Heading.prompt (head_of_unlocated h)
  exact hprompt

@[simp]
lemma value?_unlocated (e : Entry) : e.unlocated.value? = e.value? := by
  cases e <;> rfl

lemma unlocated_setHead (e : Entry) (head : Heading) :
    (e.setHead head).unlocated = e.unlocated.setHead head.unlocated := by
  cases e <;> rfl

lemma unlocated_addChild (parent child : Entry) :
    (parent.addChild child).unlocated = parent.unlocated.addChild child.unlocated := by
  cases parent with
  | menu head visibleIf children =>
    cases child <;> simp [addChild, unlocated, unlocatedAll_eq_map]
  | choice c =>
    cases child with
    | config member => simp [addChild, unlocated, Choice.unlocated, ChoiceItem.unlocated]
    | comment note => simp [addChild, unlocated, Choice.unlocated, ChoiceItem.unlocated]
    | _ => rfl
  | _ => cases child <;> rfl

lemma unlocated_addDepends (e : Entry) (condition : Condition) :
    (e.addDepends condition).unlocated = e.unlocated.addDepends condition := by
  rw [addDepends, addDepends, unlocated_setHead, head_unlocated]
  rfl

lemma unlocated_finish (e : Entry) (scope : List Condition) :
    (e.finish scope).unlocated = e.unlocated.finish scope := by
  have hscope : ∀ (e : Entry), (scope.foldl addDepends e).unlocated =
      scope.foldl addDepends e.unlocated := by
    induction scope with
    | nil => exact fun e => rfl
    | cons condition scope ih =>
      intro e
      rw [List.foldl_cons, List.foldl_cons, ih, unlocated_addDepends]
  have hprompt : e.unlocated.head.prompt = e.head.prompt := by
    rw [head_unlocated]
    rfl
  rw [finish, finish, hscope, hprompt]
  cases e.head.prompt.bind (·.condition) with
  | none => rfl
  | some condition =>
    dsimp only
    rw [unlocated_addDepends]

end Entry

namespace Directive

lemma unlocated_applyPrompt (site site' : Site) (slips slips' : List Slip) (prompt : Prompt)
    (e : Entry) :
    (applyPrompt site slips prompt e).1.unlocated =
      (applyPrompt site' slips' prompt e.unlocated).1 := by
  unfold applyPrompt
  dsimp only
  rw [Entry.unlocated_setHead, Entry.head_unlocated]
  rfl

lemma unlocated_modifyValue (f : Value → Value) (e : Entry) :
    (modifyValue f e).unlocated = modifyValue f e.unlocated := by
  cases e <;> rfl

/-- What a directive does to an entry depends neither on locations nor on slips. -/
theorem unlocated_apply (environment : Environment) (site site' : Site) (slips slips' : List Slip)
    (d : Directive) (e : Entry) :
    (apply environment site slips d e).1.unlocated =
      (apply environment site' slips' d e.unlocated).1 := by
  cases d with
  | prompt p => exact unlocated_applyPrompt _ _ _ _ _ _
  | type t p =>
    cases p with
    | none => exact unlocated_modifyValue _ _
    | some p =>
      refine (unlocated_applyPrompt _ ⟨site'.line, site'.line⟩ _ slips' _ _).trans ?_
      rw [unlocated_modifyValue]
      rfl
  | default t value =>
    cases t with
    | none => exact unlocated_modifyValue _ _
    | some t => exact unlocated_modifyValue _ _
  | depends condition => exact Entry.unlocated_addDepends _ _
  | select value => cases e <;> rfl
  | imply value => cases e <;> rfl
  | range r => cases e <;> rfl
  | env name =>
    unfold apply
    dsimp only
    cases environment.lookup name with
    | none => rfl
    | some value => exact unlocated_modifyValue _ _
  | otherOption name => rfl
  | help text =>
    cases text with
    | none => rfl
    | some text => exact unlocated_modifyValue _ _
  | optional => cases e <;> rfl
  | visible condition => cases e <;> rfl

end Directive

/-- A symbol table without the locations in it. -/
def unlocatedSymbols (symbols : List (String × Entry)) : List (String × Entry) :=
  symbols.map fun p => (p.1, p.2.unlocated)

lemma unlocatedSymbols_setValue (key : String) (e : Entry) (symbols : List (String × Entry)) :
    unlocatedSymbols (setValue key e symbols) =
      setValue key e.unlocated (unlocatedSymbols symbols) := by
  induction symbols with
  | nil => rfl
  | cons p symbols ih =>
    unfold unlocatedSymbols at ih ⊢
    rw [List.map_cons, setValue, setValue]
    split
    · rfl
    · rw [List.map_cons, ih]

lemma lookup_unlocatedSymbols (key : String) (symbols : List (String × Entry)) :
    (unlocatedSymbols symbols).lookup key = (symbols.lookup key).map Entry.unlocated := by
  induction symbols with
  | nil => rfl
  | cons p symbols ih =>
    unfold unlocatedSymbols at ih ⊢
    rw [List.map_cons, List.lookup_cons, List.lookup_cons]
    split
    · rfl
    · exact ih

end Kconfig
