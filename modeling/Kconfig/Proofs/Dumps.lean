import Kconfig.Dump.Reader
import Kconfig.Proofs.JsonText
import Kconfig.Proofs.WellFormed

/-!
# What dumps keep

A dump is read back as what it was written from: the version, the files, and the top-level entry
with everything below it. Each attribute is read from the member that shows it; the keys of an
object, and the kind it states first, tell which attributes there are.
-/

namespace Kconfig

open Text

namespace Json

/-- The value is a text, in which halves of surrogate pairs do not stand side by side. -/
def IsText (value : Json) : Prop :=
  ∃ text : Loose, value = .str text ∧ text.Joined

lemma isText_ofString (text : String) : IsText (.str (Loose.ofString text)) :=
  ⟨_, rfl, Loose.joined_ofString text⟩

lemma lookup_ofString (key : String) (members : List (String × Json)) :
    (members.map fun m => (Loose.ofString m.1, m.2)).lookup (Loose.ofString key) =
      members.lookup key := by
  induction members with
  | nil => rfl
  | cons m members ih =>
    have hkey : (Loose.ofString key == Loose.ofString m.1) = (key == m.1) :=
      decide_eq_decide.2 Loose.ofString_inj
    rw [List.map_cons, List.lookup_cons, hkey, ih]
    rfl

section Fields

variable {α : Type} {read : Json → Option α}

lemma field?_object (members : List (String × Json)) (key : String) :
    (object members).field? key read = (members.lookup key).bind read := by
  rw [object, field?, lookup_ofString]

@[simp]
lemma text?_str (text : String) : (Json.str (Loose.ofString text)).text? = some text :=
  Loose.whole?_ofString text

@[simp]
lemma orNull_null : orNull read .null = some none :=
  rfl

lemma orNull_of_ne {value : Json} (h : value ≠ .null) :
    orNull read value = (read value).map some := by
  cases value with
  | null => exact absurd rfl h
  | _ => rfl

lemma items?_map {β : Type} {write : β → Json} {read : Json → Option β} {items : List β}
    (h : ∀ item ∈ items, read (write item) = some item) :
    items? read (.arr (items.map write)) = some items := by
  rw [items?, List.mapM_map]
  induction items with
  | nil => rfl
  | cons item items ih =>
    obtain ⟨hitem, hitems⟩ := List.forall_mem_cons.1 h
    rw [List.mapM_cons, Function.comp_apply, hitem, ih hitems]
    rfl

end Fields

@[simp]
lemma orNull_ofString? (text : Option String) : orNull text? (ofString? text) = some text := by
  cases text with
  | none => rfl
  | some text => rw [ofString?, orNull_of_ne Json.noConfusion, text?_str, Option.map_some]

lemma items?_ofStrings (texts : List String) : items? text? (ofStrings texts) = some texts :=
  items?_map fun text _ => text?_str text

end Json

/-- No digit is a colon, so that the last colon stands in front of the line number. -/
lemma Location.ofText?_text (location : Location) : ofText? location.text = some location := by
  have hdigits : ∀ c ∈ Nat.toDigits 10 location.linenr, c.isDigit = true :=
    fun c hc => Nat.isDigit_of_mem_toDigits (by decide) (by decide) hc
  have hcolon : ∀ c ∈ (Nat.toDigits 10 location.linenr).reverse, decide (c ≠ ':') = true := by
    intro c hc
    refine decide_eq_true ?_
    rintro rfl
    exact Bool.noConfusion (hdigits ':' (List.mem_reverse.1 hc))
  have hbackwards : location.text.toList.reverse =
      (Nat.toDigits 10 location.linenr).reverse ++ ':' :: location.file.toList.reverse := by
    rw [text, String.toList_append, String.toList_append, Nat.toString_eq_ofList_toDigits,
      List.reverse_append, List.reverse_append, String.toList_ofList]
    rfl
  rw [ofText?, hbackwards, List.takeWhile_append_of_pos hcolon, List.dropWhile_append_of_pos hcolon,
    List.takeWhile_cons_of_neg (by decide), List.dropWhile_cons_of_neg (by decide), List.append_nil,
    List.reverse_reverse]
  change ite _ _ _ = _
  rw [List.reverse_reverse, if_pos (Bool.and_eq_true_iff.2 ⟨?_, List.all_eq_true.2 hdigits⟩),
    Nat.ofDigitChars_ten_toDigits, String.ofList_toList]
  rw [Bool.not_eq_true', List.isEmpty_eq_false_iff]
  exact Nat.toDigits_ne_nil

@[simp]
lemma Condition.ofJson?_toJson? (condition : Option Condition) :
    ofJson? (toJson? condition) = some condition := by
  cases condition with
  | none => rfl
  | some condition =>
    rw [toJson?, Option.map_some, Json.ofString?, ofJson?, Json.orNull_of_ne Json.noConfusion,
      Json.text?_str]
    rfl

lemma Conditional.ofJson?_toJson (c : Conditional) : ofJson? c.toJson = some c := by
  simp [ofJson?, toJson, Json.field?_object, List.lookup_cons]

lemma Range.ofJson?_toJson (r : Range) : ofJson? r.toJson = some r := by
  simp [ofJson?, toJson, Json.field?_object, List.lookup_cons]

lemma Prompt.ofJson?_toJson (p : Prompt) : ofJson? p.toJson = some p := by
  simp [ofJson?, toJson, Json.field?_object, List.lookup_cons]

lemma ValueType.ofName?_name (t : ValueType) : ofName? t.name = some t := by
  cases t <;> rfl

lemma EntryKind.ofName?_name (kind : EntryKind) : ofName? kind.name = some kind := by
  cases kind <;> rfl

section Members

variable {members : List (String × Json)} {kind : EntryKind} {head : Heading} {v : Value}

lemma Heading.ofJson?_object (h : head.members kind <+: members) :
    ofJson? (.object members) = some head := by
  obtain ⟨others, rfl⟩ := h
  obtain ⟨location, symbol, prompt, depends⟩ := head
  have hdepends : Json.items? (fun value => value.text?.map Condition.mk)
      (.ofStrings (depends.map (·.text))) = some depends := by
    rw [Json.ofStrings, List.map_map]
    exact Json.items?_map fun condition _ => by simp
  cases prompt with
  | none =>
    simp [ofJson?, Heading.members, Json.field?_object, List.lookup_cons, hdepends,
      Location.ofText?_text]
  | some p =>
    have hprompt : Json.orNull Prompt.ofJson? p.toJson = some (some p) := by
      rw [Json.orNull_of_ne Json.noConfusion, p.ofJson?_toJson, Option.map_some]
    simp [ofJson?, Heading.members, Json.field?_object, List.lookup_cons, hprompt, hdepends,
      Location.ofText?_text]

lemma Value.ofJson?_object (h : head.members kind ++ v.members <+: members)
    (henv : ∀ value ∈ v.env, value.IsText) : ofJson? (.object members) = some v := by
  obtain ⟨others, rfl⟩ := h
  have htype : Json.orNull (fun value => value.text?.bind ValueType.ofName?)
      (.ofString? (v.type.map (·.name))) = some v.type := by
    cases v.type with
    | none => rfl
    | some t =>
      rw [Option.map_some, Json.ofString?, Json.orNull_of_ne Json.noConfusion, Json.text?_str,
        Option.bind_some, ValueType.ofName?_name, Option.map_some]
  have hpresent : (v.env.getD .null).present? = v.env := by
    cases hv : v.env with
    | none => rfl
    | some value =>
      obtain ⟨text, rfl, -⟩ := henv value hv
      rfl
  have hdefaults : Json.items? Conditional.ofJson? (.arr (v.defaults.map Conditional.toJson)) =
      some v.defaults := Json.items?_map fun d _ => d.ofJson?_toJson
  simp [ofJson?, Heading.members, Value.members, Json.field?_object, List.lookup_cons, htype,
    hpresent, hdefaults]

lemma Config.ofJson?_toJson (c : Config) (henv : ∀ value ∈ c.value.env, value.IsText) :
    ofJson? c.isMenu c.toJson = some c := by
  have hbegins := List.prefix_append (c.head.members c.kind ++ c.value.members)
    [("selects", .arr (c.selects.map Conditional.toJson)),
      ("implies", .arr (c.implies.map Conditional.toJson)),
      ("ranges", .arr (c.ranges.map Range.toJson))]
  have hhead : Heading.ofJson? c.toJson = some c.head :=
    Heading.ofJson?_object ((List.prefix_append _ _).trans hbegins)
  have hvalue : Value.ofJson? c.toJson = some c.value := Value.ofJson?_object hbegins henv
  have hconditionals : ∀ items : List Conditional,
      Json.items? Conditional.ofJson? (.arr (items.map Conditional.toJson)) = some items :=
    fun items => Json.items?_map fun item _ => item.ofJson?_toJson
  have hranges : Json.items? Range.ofJson? (.arr (c.ranges.map Range.toJson)) = some c.ranges :=
    Json.items?_map fun r _ => r.ofJson?_toJson
  rw [ofJson?, hhead, hvalue]
  simp [toJson, Heading.members, Value.members, Json.field?_object, List.lookup_cons, hconditionals,
    hranges]

end Members

namespace Entry

/-- The value that the entry takes from the environment, if it takes one, is a text. -/
def TakesText (e : Entry) : Prop :=
  ∀ v ∈ e.value?, ∀ value ∈ v.env, value.IsText

lemma childrenOf?_eq (members : List (Loose × Json)) :
    childrenOf? members = (members.lookup (.ofString "children")).bind ofJsonItems? := by
  induction members with
  | nil => rw [childrenOf?]; rfl
  | cons m members ih =>
    obtain ⟨key, value⟩ := m
    rw [childrenOf?, List.lookup_cons, ih]
    by_cases hkey : key = .ofString "children"
    · rw [if_pos hkey, hkey, beq_self_eq_true]
      rfl
    · rw [if_neg hkey, beq_false_of_ne (Ne.symm hkey)]

lemma ofJson?_eq {value : Json} {kind : EntryKind}
    (h : value.field? "kind" (fun value => value.text?.bind EntryKind.ofName?) = some kind) :
    ofJson? value = build? value (value.field? "children" ofJsonItems?) kind := by
  cases value with
  | obj members =>
    rw [ofJson?, h, childrenOf?_eq]
    rfl
  | _ => cases h

lemma field?_kind {members : List (String × Json)} {kind : EntryKind} {head : Heading}
    (h : head.members kind <+: members) :
    (Json.object members).field? "kind" (fun value => value.text?.bind EntryKind.ofName?) =
      some kind := by
  obtain ⟨others, rfl⟩ := h
  rw [Json.field?_object]
  change (Json.text? (Json.str (Loose.ofString kind.name))).bind _ = _
  rw [Json.text?_str, Option.bind_some, EntryKind.ofName?_name]

lemma ofJson?_config (c : Config) (h : (config c).TakesText) :
    ofJson? c.toJson = some (.config c) := by
  have hread := c.ofJson?_toJson (h c.value rfl)
  rw [Config.toJson,
    ofJson?_eq (field?_kind ((List.prefix_append _ _).trans (List.prefix_append _ _))),
    ← Config.toJson, Config.kind]
  cases hmenu : c.isMenu with
  | true => exact congrArg (Option.map config) (hmenu ▸ hread)
  | false => exact congrArg (Option.map config) (hmenu ▸ hread)

lemma ofJson?_comment (c : Comment) : ofJson? c.toJson = some (.comment c) := by
  rw [Comment.toJson, ofJson?_eq (field?_kind (List.prefix_refl _)), build?,
    Heading.ofJson?_object (List.prefix_refl _)]
  rfl

lemma mapM_item?_toEntry (items : List ChoiceItem) :
    items.mapM (item? ∘ ChoiceItem.toEntry) = some items := by
  induction items with
  | nil => rfl
  | cons item items ih =>
    rw [List.mapM_cons, ih]
    cases item <;> rfl

lemma toJsonAll_eq_map (es : List Entry) : toJsonAll es = es.map toJson := by
  induction es with
  | nil => rw [toJsonAll, List.map_nil]
  | cons e es ih => rw [toJsonAll, List.map_cons, ih]

lemma toJsonAll_toEntry (items : List ChoiceItem) :
    toJsonAll (items.map ChoiceItem.toEntry) = items.map ChoiceItem.toJson := by
  rw [toJsonAll_eq_map, List.map_map]
  refine List.map_congr_left fun item _ => ?_
  cases item <;> rw [Function.comp_apply, ChoiceItem.toEntry, toJson] <;> rfl

lemma ofJsonItems?_eq_some {es : List Entry} (h : ∀ e ∈ es, ofJson? e.toJson = some e) :
    ofJsonItems? (.arr (toJsonAll es)) = some es := by
  rw [ofJsonItems?]
  induction es with
  | nil => rw [toJsonAll, ofJsonAll?]
  | cons e es ih =>
    obtain ⟨he, hes⟩ := List.forall_mem_cons.1 h
    rw [toJsonAll, ofJsonAll?, he, ih hes]
    rfl

lemma ofJson?_choice (c : Choice) (hc : (choice c).TakesText)
    (hitems : ∀ item ∈ c.items, item.toEntry.TakesText) : ofJson? c.toJson = some (.choice c) := by
  have hbegins := List.prefix_append (c.head.members .choice ++ c.value.members)
    [("optional", .bool c.optional), ("children", .arr (c.items.map ChoiceItem.toJson))]
  have hhead : Heading.ofJson? c.toJson = some c.head :=
    Heading.ofJson?_object ((List.prefix_append _ _).trans hbegins)
  have hvalue : Value.ofJson? c.toJson = some c.value :=
    Value.ofJson?_object hbegins (hc c.value rfl)
  have hchildren : ofJsonItems? (.arr (c.items.map ChoiceItem.toJson)) =
      some (c.items.map ChoiceItem.toEntry) := by
    rw [← toJsonAll_toEntry]
    refine ofJsonItems?_eq_some (List.forall_mem_map.2 fun item hitem => ?_)
    cases item with
    | config member => rw [ChoiceItem.toEntry, toJson, ofJson?_config member (hitems _ hitem)]
    | comment note => rw [ChoiceItem.toEntry, toJson, ofJson?_comment]
  rw [Choice.toJson,
    ofJson?_eq (field?_kind ((List.prefix_append _ _).trans (List.prefix_append _ _))),
    ← Choice.toJson, build?, hhead, hvalue]
  simp [Choice.toJson, Heading.members, Value.members, Json.field?_object, List.lookup_cons,
    hchildren, Json.flag?, mapM_item?_toEntry]

mutual

/-- What an entry is shown as is read back as the entry. -/
theorem ofJson?_toJson (e : Entry) (h : ∀ e' ∈ e.walk, e'.TakesText) :
    ofJson? e.toJson = some e := by
  cases e with
  | config c =>
    rw [walk] at h
    rw [toJson, ofJson?_config c (h _ List.mem_cons_self)]
  | comment c => rw [toJson, ofJson?_comment]
  | choice c =>
    rw [walk] at h
    obtain ⟨hc, hitems⟩ := List.forall_mem_cons.1 h
    rw [toJson, ofJson?_choice c hc (List.forall_mem_map.1 hitems)]
  | menu head visibleIf children =>
    rw [walk] at h
    have hbegins := List.prefix_append (head.members .menu)
      [("visible_if", Condition.toJson? visibleIf), ("children", .arr (toJsonAll children))]
    have hhead := Heading.ofJson?_object hbegins
    have hchildren := ofJsonItems?_eq_some (ofJson?_toJson_of_mem children
      fun e he => h e (List.mem_cons_of_mem _ he))
    rw [toJson, ofJson?_eq (field?_kind hbegins), build?, hhead]
    simp [Heading.members, Json.field?_object, List.lookup_cons, hchildren]

lemma ofJson?_toJson_of_mem (es : List Entry) (h : ∀ e' ∈ walkAll es, e'.TakesText) :
    ∀ e ∈ es, ofJson? e.toJson = some e := by
  cases es with
  | nil => exact fun e he => nomatch he
  | cons e es =>
    rw [walkAll] at h
    obtain ⟨he, hes⟩ := List.forall_mem_append.1 h
    exact List.forall_mem_cons.2 ⟨ofJson?_toJson e he, ofJson?_toJson_of_mem es hes⟩

end

end Entry

namespace Json.Textual

lemma ofString (text : String) : Textual (.str (Loose.ofString text)) :=
  .str (Loose.joined_ofString text)

lemma ofString? (text : Option String) : (Json.ofString? text).Textual := by
  cases text with
  | none => exact .null
  | some text => exact .ofString text

lemma map {α : Type} {items : List α} {write : α → Json}
    (h : ∀ item ∈ items, (write item).Textual) :
    Textual (.arr (items.map write)) :=
  .arr (List.forall_mem_map.2 h)

lemma ofStrings (texts : List String) : (Json.ofStrings texts).Textual :=
  .map fun text _ => .ofString text

lemma object {members : List (String × Json)} (hnodup : (members.map Prod.fst).Nodup)
    (h : ∀ m ∈ members, m.2.Textual) : (Json.object members).Textual := by
  refine .obj ?_ ?_ (List.forall_mem_map.2 h)
  · rw [List.map_map]
    have hkeys := hnodup.map (fun a b hab => Loose.ofString_inj.1 hab)
    rwa [List.map_map] at hkeys
  · exact List.forall_mem_map.2 fun m _ => Loose.joined_ofString m.1

end Json.Textual

namespace Entry

open Json (Textual)

lemma textual_conditional (c : Conditional) : c.toJson.Textual := by
  refine .object (show ["value", "condition"].Nodup by decide) ?_
  simp [Textual.ofString, Condition.toJson?, Textual.ofString?]

lemma textual_range (r : Range) : r.toJson.Textual := by
  refine .object (show ["low", "high", "condition"].Nodup by decide) ?_
  simp [Textual.ofString, Condition.toJson?, Textual.ofString?]

lemma textual_prompt (p : Prompt) : p.toJson.Textual := by
  refine .object (show ["text", "condition"].Nodup by decide) ?_
  simp [Textual.ofString, Condition.toJson?, Textual.ofString?]

lemma textual_heading (kind : EntryKind) (head : Heading) :
    ∀ m ∈ head.members kind, m.2.Textual := by
  obtain ⟨location, symbol, prompt, depends⟩ := head
  simp only [Heading.members, List.forall_mem_cons]
  refine ⟨.ofString _, .ofString? _, .ofString _, ?_, .ofStrings _, List.forall_mem_nil _⟩
  cases prompt with
  | none => exact .null
  | some p => exact textual_prompt p

lemma textual_value {v : Value} (h : ∀ value ∈ v.env, value.IsText) :
    ∀ m ∈ v.members, m.2.Textual := by
  have henv : (v.env.getD .null).Textual := by
    cases hv : v.env with
    | none => exact .null
    | some value =>
      obtain ⟨text, rfl, htext⟩ := h value hv
      exact .str htext
  simp only [Value.members, List.forall_mem_cons]
  exact ⟨.ofString? _, .ofString? _, henv, .map fun d _ => textual_conditional d,
    List.forall_mem_nil _⟩

lemma textual_config {c : Config} (h : (config c).TakesText) : c.toJson.Textual := by
  have hkeys : ["kind", "symbol", "location", "prompt", "depends", "type", "help", "env",
    "defaults", "selects", "implies", "ranges"].Nodup := by decide
  refine .object hkeys (List.forall_mem_append.2 ⟨List.forall_mem_append.2 ⟨?_, ?_⟩, ?_⟩)
  · exact textual_heading c.kind c.head
  · exact textual_value (h c.value rfl)
  · simp only [List.forall_mem_cons]
    exact ⟨.map fun s _ => textual_conditional s, .map fun i _ => textual_conditional i,
      .map fun r _ => textual_range r, List.forall_mem_nil _⟩

lemma textual_comment (c : Comment) : c.toJson.Textual :=
  .object (show ["kind", "symbol", "location", "prompt", "depends"].Nodup by decide)
    (textual_heading .comment c.head)

lemma textual_choice {c : Choice} (hc : (choice c).TakesText)
    (hitems : ∀ item ∈ c.items, item.toEntry.TakesText) : c.toJson.Textual := by
  have hkeys : ["kind", "symbol", "location", "prompt", "depends", "type", "help", "env",
    "defaults", "optional", "children"].Nodup := by decide
  have hitem : ∀ item ∈ c.items, item.toJson.Textual := by
    intro item hmem
    cases item with
    | config member => exact textual_config (hitems _ hmem)
    | comment note => exact textual_comment note
  refine .object hkeys (List.forall_mem_append.2 ⟨List.forall_mem_append.2 ⟨?_, ?_⟩, ?_⟩)
  · exact textual_heading .choice c.head
  · exact textual_value (hc c.value rfl)
  · simp only [List.forall_mem_cons]
    exact ⟨.bool c.optional, .map hitem, List.forall_mem_nil _⟩

mutual

lemma textual_toJson (e : Entry) (h : ∀ e' ∈ e.walk, e'.TakesText) : e.toJson.Textual := by
  cases e with
  | config c =>
    rw [walk] at h
    rw [toJson]
    exact textual_config (h _ List.mem_cons_self)
  | comment c =>
    rw [toJson]
    exact textual_comment c
  | choice c =>
    rw [walk] at h
    obtain ⟨hc, hitems⟩ := List.forall_mem_cons.1 h
    rw [toJson]
    exact textual_choice hc (List.forall_mem_map.1 hitems)
  | menu head visibleIf children =>
    rw [walk] at h
    have hkeys : ["kind", "symbol", "location", "prompt", "depends", "visible_if",
      "children"].Nodup := by decide
    have hchildren := textual_toJson_of_mem children fun e he => h e (List.mem_cons_of_mem _ he)
    rw [toJson, toJsonAll_eq_map]
    refine .object hkeys (List.forall_mem_append.2 ⟨textual_heading .menu head, ?_⟩)
    simp only [List.forall_mem_cons]
    exact ⟨.ofString? _, .map hchildren, List.forall_mem_nil _⟩

lemma textual_toJson_of_mem (es : List Entry) (h : ∀ e' ∈ walkAll es, e'.TakesText) :
    ∀ e ∈ es, e.toJson.Textual := by
  cases es with
  | nil => exact fun e he => nomatch he
  | cons e es =>
    rw [walkAll] at h
    obtain ⟨he, hes⟩ := List.forall_mem_append.1 h
    exact List.forall_mem_cons.2 ⟨textual_toJson e he, textual_toJson_of_mem es hes⟩

end

end Entry

namespace Tree

variable {fs : FileSystem} {settings : Settings} {tree : Tree}

lemma takesText_of_parse
    (henv : ∀ name value, settings.environment.lookup name = some value → value.IsText)
    (h : parse fs settings = .ok tree) : ∀ e ∈ tree.root.toEntry.walk, e.TakesText := by
  rw [Menu.toEntry, Entry.walk]
  refine List.forall_mem_cons.2 ⟨fun v hv => (nomatch hv), fun e he v hv value hvalue => ?_⟩
  obtain ⟨name, hlookup⟩ := ((wellFormed_of_mem_nodes h e he).1.value v hv).env value hvalue
  exact henv name value hlookup

lemma textual_toJson (h : ∀ e ∈ tree.root.toEntry.walk, e.TakesText) : tree.toJson.Textual := by
  refine .object (show ["version", "files", "root"].Nodup by decide) ?_
  simp only [List.forall_mem_cons]
  exact ⟨.ofString version, .ofStrings tree.files, Entry.textual_toJson _ h, List.forall_mem_nil _⟩

lemma ofJson?_toJson (h : ∀ e ∈ tree.root.toEntry.walk, e.TakesText) :
    Dump.ofJson? tree.toJson = some ⟨version, tree.files, tree.root.toEntry⟩ := by
  have hroot := Entry.ofJson?_toJson _ h
  simp [Dump.ofJson?, toJson, Json.field?_object, List.lookup_cons, Json.items?_ofStrings, hroot]

/-- The dump of a tree that reading gives, alone or with a line break behind it, is in ASCII and is
read back as the version, the files and the root with all entries below it. So two such trees are
equal if and only if their dumps show equal roots. -/
theorem dump_lossless
    (henv : ∀ name value, settings.environment.lookup name = some value → value.IsText)
    (h : parse fs settings = .ok tree) :
    (∀ text ∈ [tree.dump, tree.dump ++ "\n"], Json.IsAscii text.toList ∧
      Dump.read? text = some ⟨version, tree.files, tree.root.toEntry⟩) ∧
    ∀ (fs' : FileSystem) (settings' : Settings) (other : Tree),
      (∀ name value, settings'.environment.lookup name = some value → value.IsText) →
      parse fs' settings' = .ok other →
      (tree.isEqual other = true ↔ tree.root.toEntry.toJson = other.root.toEntry.toJson) := by
  have htexts := takesText_of_parse henv h
  have hascii : Json.IsAscii tree.dump.toList := by
    rw [dump, Json.write, String.toList_ofList]
    exact Json.isAscii_writeAt (textual_toJson htexts) 0
  have hread : ∀ blanks : String, (∀ c ∈ blanks.toList, Json.isBlank c = true) →
      Dump.read? (tree.dump ++ blanks) = some ⟨version, tree.files, tree.root.toEntry⟩ := by
    intro blanks hblanks
    rw [Dump.read?, dump, Json.read?_write (textual_toJson htexts) hblanks]
    exact ofJson?_toJson htexts
  refine ⟨?_, ?_⟩
  · refine List.forall_mem_cons.2 ⟨⟨hascii, ?_⟩, List.forall_mem_singleton.2 ⟨?_, ?_⟩⟩
    · have hall := hread "" (by decide)
      rwa [String.append_empty] at hall
    · rw [String.toList_append]
      exact hascii.append (by decide)
    · exact hread "\n" (by decide)
  · intro fs' settings' other henv' h'
    rw [isEqual, decide_eq_true_eq]
    refine ⟨congrArg Entry.toJson, fun hroot => ?_⟩
    -- Equal values are read as equal entries.
    have hback := Entry.ofJson?_toJson _ htexts
    rw [hroot, Entry.ofJson?_toJson _ (takesText_of_parse henv' h')] at hback
    exact (Option.some.inj hback).symm

end Tree

/-- A menu with the given prompt, and a file whose name holds a colon. Texts of both are not in
ASCII. -/
def foreign (prompt : String) : Snapshot where
  files := [
    (["K".toList], ("menu \"" ++ prompt ++ "\"\nsource \"ä:1\"\nendmenu\n").toUTF8.toList),
    (["ä:1".toList], ("choice C\n bool \"\\😀\"\n help\n  ≤ \"\\u0041\"\nconfig A\n string\n" ++
      " option env=\"HOME\"\n default \"ß\" if B\nendchoice\n").toUTF8.toList)]

theorem dump_lossless_foreign : ∃ tree other,
    Tree.parse (foreign "Меню").toFileSystem
        { root := "", file := "K", environment := [("HOME", .str "/ö😀")] } = .ok tree ∧
      Tree.parse (foreign "😀").toFileSystem
          { root := "", file := "K", environment := [("HOME", .str "/ö😀")] } = .ok other ∧
        tree.nodes.map (·.head.location) = [⟨"K", 1⟩, ⟨"ä:1", 1⟩, ⟨"ä:1", 5⟩] ∧
          Dump.read? tree.dump = some ⟨"1.0.0", ["K", "ä:1"], tree.root.toEntry⟩ ∧
            tree.root.toEntry.toJson ≠ other.root.toEntry.toJson := by
  have hrun : (Tree.parseFor (foreign "Меню").toFileSystem
      { root := "", file := "K", environment := [("HOME", .str "/ö😀")] } 60).any (fun tree =>
        (Tree.parseFor (foreign "😀").toFileSystem
          { root := "", file := "K", environment := [("HOME", .str "/ö😀")] } 60).any fun other =>
            tree.nodes.map (·.head.location) = [⟨"K", 1⟩, ⟨"ä:1", 1⟩, ⟨"ä:1", 5⟩] ∧
              tree.files = ["K", "ä:1"] ∧ tree.isEqual other = false) = true := by decide +kernel
  obtain ⟨tree, htree, hrun⟩ := (Option.any_eq_true _ _).1 hrun
  obtain ⟨other, hother, hrun⟩ := (Option.any_eq_true _ _).1 hrun
  obtain ⟨hlocations, hfiles, hdiffer⟩ := of_decide_eq_true hrun
  have htree := Tree.parse_of_parseFor htree
  have hother := Tree.parse_of_parseFor hother
  have henv : ∀ name value, [("HOME", Json.str (Loose.ofString "/ö😀"))].lookup name = some value →
      value.IsText := by
    intro name value hlookup
    rw [List.lookup_cons] at hlookup
    split at hlookup <;> cases hlookup
    exact Json.isText_ofString _
  obtain ⟨hread, hequal⟩ := Tree.dump_lossless henv htree
  refine ⟨tree, other, htree, hother, hlocations, ?_, fun hroot => ?_⟩
  · rw [← hfiles]
    exact (hread tree.dump List.mem_cons_self).2
  · rw [(hequal _ _ other henv hother).2 hroot] at hdiffer
    cases hdiffer

end Kconfig
