import Kconfig.Proofs.Effect

/-!
# Outlines

The outline of a tree has a row for each entry below the root, in source order: its header, the
conditions that it depends on, and the number of the entry around it. The outline can be read off
the history of the run as well. In between, at each state of a run, the frames give the rows of the
entries that have begun and the rest of the history gives the others. -/

namespace Kconfig

/-- An entry of an outline. Entries are numbered in source order; the root has no number. -/
structure Outline.Row where
  header : Header
  depends : List Condition
  parent : Option Nat
  deriving Repr, DecidableEq

namespace Entry

def children : Entry → List Entry
  | .config _ => []
  | .choice c => c.items.map ChoiceItem.toEntry
  | .comment _ => []
  | .menu _ _ children => children

def row (parent : Option Nat) (e : Entry) : Outline.Row :=
  ⟨e.header, e.head.depends, parent⟩

mutual

/-- The rows of an entry with the number `i` and of the entries below it. -/
def rows (parent : Option Nat) (i : Nat) : Entry → List Outline.Row
  | .config c => [row parent (.config c)]
  | .comment c => [row parent (.comment c)]
  | .choice c => row parent (.choice c) :: c.items.map fun item => row (some i) item.toEntry
  | .menu head visibleIf children =>
    row parent (.menu head visibleIf children) :: rowsAll (some i) (i + 1) children

/-- The rows of the entries of a list, the first of which has the number `i`. -/
def rowsAll (parent : Option Nat) (i : Nat) : List Entry → List Outline.Row
  | [] => []
  | e :: es => rows parent i e ++ rowsAll parent (i + e.walk.length) es

end

lemma rowsAll_items (parent : Option Nat) (i : Nat) (items : List ChoiceItem) :
    rowsAll parent i (items.map ChoiceItem.toEntry) =
      items.map fun item => row parent item.toEntry := by
  induction items generalizing i with
  | nil => rw [List.map_nil, rowsAll, List.map_nil]
  | cons item items ih =>
    rw [List.map_cons, rowsAll, ih, List.map_cons]
    cases item <;> rw [ChoiceItem.toEntry, rows] <;> rfl

lemma rows_eq (parent : Option Nat) (i : Nat) (e : Entry) :
    e.rows parent i = e.row parent :: rowsAll (some i) (i + 1) e.children := by
  cases e with
  | config c => rw [rows, children, rowsAll]
  | comment c => rw [rows, children, rowsAll]
  | choice c => rw [rows, children, rowsAll_items]
  | menu head visibleIf es => rw [rows, children]

lemma walkAll_items (items : List ChoiceItem) :
    walkAll (items.map ChoiceItem.toEntry) = items.map ChoiceItem.toEntry := by
  induction items with
  | nil => rw [List.map_nil, walkAll]
  | cons item items ih =>
    rw [List.map_cons, walkAll, ih]
    cases item <;> rw [ChoiceItem.toEntry, walk] <;> rfl

lemma walk_eq (e : Entry) : e.walk = e :: walkAll e.children := by
  cases e with
  | config c => rw [walk, children, walkAll]
  | comment c => rw [walk, children, walkAll]
  | choice c => rw [walk, children, walkAll_items]
  | menu head visibleIf es => rw [walk, children]

lemma rowsAll_append (parent : Option Nat) (i : Nat) (es es' : List Entry) :
    rowsAll parent i (es ++ es') =
      rowsAll parent i es ++ rowsAll parent (i + (walkAll es).length) es' := by
  induction es generalizing i with
  | nil => rw [List.nil_append, rowsAll, walkAll, List.nil_append, List.length_nil, Nat.add_zero]
  | cons e es ih =>
    rw [List.cons_append, rowsAll, rowsAll, ih, walkAll, List.length_append, List.append_assoc,
      Nat.add_assoc]

lemma walkAll_append (es es' : List Entry) : walkAll (es ++ es') = walkAll es ++ walkAll es' := by
  induction es with
  | nil => rw [List.nil_append, walkAll, List.nil_append]
  | cons e es ih => rw [List.cons_append, walkAll, walkAll, ih, List.append_assoc]

mutual

lemma map_rows (parent : Option Nat) (i : Nat) (e : Entry) :
    (e.rows parent i).map (fun r => (r.header, r.depends)) =
      e.walk.map fun e => (e.header, e.head.depends) := by
  cases e with
  | config c => rw [rows, walk]; rfl
  | comment c => rw [rows, walk]; rfl
  | choice c =>
    rw [rows, walk, List.map_cons, List.map_cons, List.map_map, List.map_map]
    rfl
  | menu head visibleIf es =>
    rw [rows, walk, List.map_cons, List.map_cons, map_rowsAll]
    rfl

lemma map_rowsAll (parent : Option Nat) (i : Nat) (es : List Entry) :
    (rowsAll parent i es).map (fun r => (r.header, r.depends)) =
      (walkAll es).map fun e => (e.header, e.head.depends) := by
  cases es with
  | nil => rw [rowsAll, walkAll]; rfl
  | cons e es => rw [rowsAll, walkAll, List.map_append, List.map_append, map_rows, map_rowsAll]

end

lemma length_rowsAll (parent : Option Nat) (i : Nat) (es : List Entry) :
    (rowsAll parent i es).length = (walkAll es).length := by
  have h := congrArg List.length (map_rowsAll parent i es)
  rwa [List.length_map, List.length_map] at h

end Entry

def Tree.outline (tree : Tree) : List Outline.Row :=
  Entry.rowsAll none 0 tree.root.children

/-- The number of the entry around each entry of a tree, in source order. -/
def Tree.parents (tree : Tree) : List (Option Nat) :=
  tree.outline.map (·.parent)

namespace Entry

@[simp]
lemma head_setHead (head : Heading) (e : Entry) : (e.setHead head).head = head := by
  cases e <;> rfl

@[simp]
lemma kind_setHead (head : Heading) (e : Entry) : (e.setHead head).kind = e.kind := by
  cases e <;> rfl

@[simp]
lemma children_setHead (head : Heading) (e : Entry) : (e.setHead head).children = e.children := by
  cases e <;> rfl

@[simp]
lemma kind_addDepends (e : Entry) (condition : Condition) :
    (e.addDepends condition).kind = e.kind :=
  kind_setHead _ e

@[simp]
lemma children_addDepends (e : Entry) (condition : Condition) :
    (e.addDepends condition).children = e.children :=
  children_setHead _ e

lemma head_addDepends (e : Entry) (condition : Condition) :
    (e.addDepends condition).head =
      { e.head with depends := addNew e.head.depends condition } :=
  head_setHead _ e

lemma kind_addChild (parent child : Entry) : (parent.addChild child).kind = parent.kind := by
  cases parent with
  | choice c => cases child <;> rfl
  | _ => rfl

lemma head_addChild (parent child : Entry) : (parent.addChild child).head = parent.head := by
  cases parent with
  | choice c => cases child <;> rfl
  | _ => rfl

/-- The conditions that a completed entry depends on without its own `depends` directives. -/
def outerConditions (e : Entry) (scope : List Condition) : List Condition :=
  (e.head.prompt.bind (·.condition)).toList ++ scope

lemma finish_eq (e : Entry) (scope : List Condition) :
    e.finish scope = (e.outerConditions scope).foldl addDepends e := by
  rw [finish, outerConditions]
  cases e.head.prompt.bind (·.condition) <;> rfl

lemma children_addChild {parent child : Entry} (h : parent.kind.holds child.kind = true) :
    (parent.addChild child).children = parent.children ++ [child] := by
  cases parent with
  | config c =>
    rw [kind, Config.kind] at h
    split at h <;> cases h
  | comment c => cases h
  | menu head visibleIf es => rfl
  | choice c =>
    cases child with
    | choice c' => cases h
    | menu head visibleIf es => cases h
    | _ => exact List.map_append

end Entry

namespace Header

variable (header : Header)

@[simp]
lemma header_entry : header.entry.header = header := by
  rcases header with ⟨kind, symbol, location⟩
  cases kind <;> rfl

@[simp]
lemma kind_entry : header.entry.kind = header.kind :=
  congrArg Header.kind header.header_entry

@[simp]
lemma head_entry :
    header.entry.head = { location := header.location, symbol := header.symbol } := by
  rcases header with ⟨kind, symbol, location⟩
  cases kind <;> rfl

@[simp]
lemma children_entry : header.entry.children = [] := by
  rcases header with ⟨kind, symbol, location⟩
  cases kind <;> rfl

end Header

namespace Directive

def dependency? : Directive → Option Condition
  | .depends condition => some condition
  | _ => none

def prompt? : Directive → Option Prompt
  | .prompt p => some p
  | .type _ p => p
  | _ => none

/-- The entry `b` arises from `a` by the directive, as far as an outline shows it. -/
structure Shows (d : Directive) (a b : Entry) : Prop where
  header : b.header = a.header
  children : b.children = a.children
  depends : b.head.depends = d.dependency?.toList.foldl addNew a.head.depends
  condition : b.head.prompt.bind (·.condition) =
    match d.prompt? with
    | some p => p.condition
    | none => a.head.prompt.bind (·.condition)

lemma Shows.of_head {d : Directive} {a b : Entry} (hd : d.dependency? = none)
    (hp : d.prompt? = none) (hkind : b.kind = a.kind) (hhead : b.head = a.head)
    (hchildren : b.children = a.children) : Shows d a b where
  header := by rw [Entry.header, Entry.header, hkind, hhead]
  children := hchildren
  depends := by rw [hd, hhead]; rfl
  condition := by rw [hp, hhead]

lemma shows_modifyValue {d : Directive} (hd : d.dependency? = none) (hp : d.prompt? = none)
    (f : Value → Value) (e : Entry) : Shows d e (modifyValue f e) := by
  cases e <;> exact .of_head hd hp rfl rfl rfl

lemma shows_modifyConfig (d : Directive) (hd : d.dependency? = none) (hp : d.prompt? = none)
    (f : Config → Config) (hkind : ∀ c, (f c).kind = c.kind) (hhead : ∀ c, (f c).head = c.head)
    (e : Entry) : Shows d e (modifyConfig f e) := by
  cases e with
  | config c => exact .of_head hd hp (hkind c) (hhead c) rfl
  | _ => exact .of_head hd hp rfl rfl rfl

lemma shows_applyPrompt {d : Directive} {p : Prompt} (hd : d.dependency? = none)
    (hp : d.prompt? = some p) (site : Site) (slips : List Slip) {a b : Entry}
    (hkind : b.kind = a.kind) (hhead : b.head = a.head) (hchildren : b.children = a.children) :
    Shows d a (applyPrompt site slips p b).1 where
  header := by
    rw [applyPrompt, Entry.header, Entry.kind_setHead, Entry.head_setHead, hkind, hhead]
    rfl
  children := by rw [applyPrompt, Entry.children_setHead, hchildren]
  depends := by rw [applyPrompt, Entry.head_setHead, hd, hhead]; rfl
  condition := by rw [applyPrompt, Entry.head_setHead, hp]; rfl

theorem shows_apply (environment : Environment) (site : Site) (slips : List Slip) (d : Directive)
    (e : Entry) : Shows d e (apply environment site slips d e).1 := by
  cases d with
  | prompt p => exact shows_applyPrompt rfl rfl site slips rfl rfl rfl
  | type t p =>
    cases p with
    | none => exact shows_modifyValue rfl rfl _ e
    | some p =>
      refine shows_applyPrompt rfl rfl _ slips ?_ ?_ ?_ <;> cases e <;> rfl
  | default t value =>
    cases t <;> exact shows_modifyValue rfl rfl _ e
  | depends condition =>
    refine ⟨?_, Entry.children_setHead _ e, ?_, ?_⟩
    · rw [apply, Entry.header, Entry.kind_addDepends, Entry.head_addDepends]
      rfl
    · rw [apply, Entry.head_addDepends]
      rfl
    · rw [apply, Entry.head_addDepends]
      rfl
  | select value => refine shows_modifyConfig _ rfl rfl _ ?_ ?_ e <;> intro c <;> rfl
  | imply value => refine shows_modifyConfig _ rfl rfl _ ?_ ?_ e <;> intro c <;> rfl
  | range r => refine shows_modifyConfig _ rfl rfl _ ?_ ?_ e <;> intro c <;> rfl
  | env name =>
    unfold apply
    dsimp only
    split
    · exact shows_modifyValue rfl rfl _ e
    · exact .of_head rfl rfl rfl rfl rfl
  | otherOption name => exact .of_head rfl rfl rfl rfl rfl
  | help text =>
    cases text with
    | none => exact .of_head rfl rfl rfl rfl rfl
    | some text => exact shows_modifyValue rfl rfl _ e
  | optional => cases e <;> exact .of_head rfl rfl rfl rfl rfl
  | visible condition => cases e <;> exact .of_head rfl rfl rfl rfl rfl

end Directive

end Kconfig
