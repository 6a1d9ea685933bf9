import Kconfig.FileSystem.Snapshot
import Kconfig.Proofs.Construction
import Kconfig.Proofs.Restoration
import Mathlib.Data.List.Nodup

/-!
# Well-formed trees

What consumers of a tree rely on holds of each of its entries: nothing is listed twice, no condition
or value is empty, symbols are words and stand where they belong, and texts have no blanks around
them. Every directive keeps an entry well-formed, whichever come before it, and so do its completion
and the children that are added.
-/

namespace Kconfig

/-- Whether entries of a kind can have the symbol. -/
def EntryKind.Names (symbol : Option String) : EntryKind → Prop
  | .config => ∃ word, symbol = some word ∧ IsWord word
  | .menuconfig => ∃ word, symbol = some word ∧ IsWord word
  | .choice => ∀ word ∈ symbol, IsWord word
  | .comment => symbol = none
  | .menu => symbol = none

structure Heading.WellFormed (kind : EntryKind) (head : Heading) : Prop where
  symbol : kind.Names head.symbol
  prompt : ∀ p ∈ head.prompt, p.Stated ∧ p.text.trimBlanks = p.text
  nodup : head.depends.Nodup
  depends : ∀ condition ∈ head.depends, condition.Stated

structure Value.WellFormed (environment : Environment) (v : Value) : Prop where
  type : ∀ t ∈ v.type, t.name ∈ ["bool", "tristate", "string", "int", "hex"]
  help : ∀ text ∈ v.help, IsHelpText text
  env : ∀ value ∈ v.env, ∃ name, environment.lookup name = some value
  defaults : ∀ d ∈ v.defaults, d.Stated

/-- What a config selects, implies and ranges over. -/
structure Config.WellFormed (c : Config) : Prop where
  selects : c.selects.Nodup ∧ ∀ s ∈ c.selects, s.Stated
  implies : c.implies.Nodup ∧ ∀ i ∈ c.implies, i.Stated
  ranges : c.ranges.Nodup ∧ ∀ r ∈ c.ranges, r.Stated

namespace Entry

def config? : Entry → Option Config
  | .config c => some c
  | _ => none

def visibleIf? : Entry → Option Condition
  | .menu _ visibleIf _ => visibleIf
  | _ => none

structure WellFormed (environment : Environment) (e : Entry) : Prop where
  head : e.head.WellFormed e.kind
  value : ∀ v ∈ e.value?, v.WellFormed environment
  config : ∀ c ∈ e.config?, c.WellFormed
  visibleIf : ∀ condition ∈ e.visibleIf?, condition.Stated
  children : e.kind = .choice →
    ∀ child ∈ e.children, child.kind ∈ [EntryKind.config, .menuconfig, .comment]

/-- Menus and comments have prompts, apart from the top-level menu. -/
def Prompted (e : Entry) : Prop :=
  e.kind = .menu ∨ e.kind = .comment → e.head.prompt.isSome = true

end Entry

lemma nodup_addNew {α : Type} [DecidableEq α] {items : List α} (h : items.Nodup) (item : α) :
    (addNew items item).Nodup := by
  unfold addNew
  split
  · exact h
  · rename_i hnew
    exact List.nodup_append.2 ⟨h, List.nodup_singleton item, by
      rintro a ha b hb rfl
      exact hnew (List.mem_singleton.1 hb ▸ ha)⟩

lemma forall_mem_addNew {α : Type} [DecidableEq α] {P : α → Prop} {items : List α} {item : α}
    (h : ∀ a ∈ items, P a) (hitem : P item) : ∀ a ∈ addNew items item, P a := by
  unfold addNew
  split
  · exact h
  · intro a ha
    rcases List.mem_append.1 ha with ha | ha
    · exact h a ha
    · exact List.mem_singleton.1 ha ▸ hitem

lemma addNew_keeps {α : Type} [DecidableEq α] {P : α → Prop} {items : List α} {item : α}
    (h : items.Nodup ∧ ∀ a ∈ items, P a) (hitem : P item) :
    (addNew items item).Nodup ∧ ∀ a ∈ addNew items item, P a :=
  ⟨nodup_addNew h.1 item, forall_mem_addNew h.2 hitem⟩

lemma Text.trim_trim (cs : List Char) : Text.trim (Text.trim cs) = Text.trim cs := by
  have hleft : Text.trimLeft (Text.trim cs) = Text.trim cs := by
    cases htrim : Text.trim cs with
    | nil => rfl
    | cons c rest =>
      -- The first character is that of the text without the blanks in front.
      have hprefix : Text.trim cs <+: cs.dropWhile isBlank := List.rdropWhile_prefix isBlank _
      rw [htrim] at hprefix
      obtain ⟨more, hmore⟩ := hprefix
      have hnot := List.head?_dropWhile_not isBlank cs
      rw [← hmore] at hnot
      exact List.dropWhile_cons_of_neg (by simpa using hnot)
  conv_lhs => rw [Text.trim, hleft]
  exact List.rdropWhile_idempotent isBlank _

lemma trimBlanks_trimBlanks (text : String) : text.trimBlanks.trimBlanks = text.trimBlanks := by
  rw [String.trimBlanks, String.trimBlanks, String.toList_ofList, Text.trim_trim]

namespace Heading.WellFormed

variable {kind : EntryKind} {head : Heading}

lemma location (h : head.WellFormed kind) (location : Location) :
    Heading.WellFormed kind { head with location } :=
  ⟨h.symbol, h.prompt, h.nodup, h.depends⟩

lemma addDepends (h : head.WellFormed kind) {condition : Condition} (hc : condition.Stated) :
    Heading.WellFormed kind { head with depends := addNew head.depends condition } :=
  ⟨h.symbol, h.prompt, nodup_addNew h.nodup condition, forall_mem_addNew h.depends hc⟩

lemma setPrompt (h : head.WellFormed kind) {p : Prompt} (hp : p.Stated) :
    Heading.WellFormed kind { head with prompt := some { p with text := p.text.trimBlanks } } := by
  refine ⟨h.symbol, ?_, h.nodup, h.depends⟩
  rintro q ⟨⟩
  exact ⟨hp, trimBlanks_trimBlanks p.text⟩

lemma ofSymbol (location : Location) {symbol : Option String} (h : kind.Names symbol) :
    Heading.WellFormed kind { location, symbol } where
  symbol := h
  prompt := fun _ hp => nomatch hp
  nodup := List.nodup_nil
  depends := fun _ hc => nomatch hc

end Heading.WellFormed

lemma Value.WellFormed.empty {environment : Environment} : Value.WellFormed environment {} where
  type := fun _ h => nomatch h
  help := fun _ h => nomatch h
  env := fun _ h => nomatch h
  defaults := fun _ h => nomatch h

namespace Entry

variable {environment : Environment} {e : Entry}

namespace WellFormed

lemma setHead (h : e.WellFormed environment) {head : Heading} (hhead : head.WellFormed e.kind) :
    (e.setHead head).WellFormed environment := by
  refine ⟨?_, ?_, ?_, ?_, ?_⟩
  · rw [head_setHead, kind_setHead]
    exact hhead
  · have hvalue : (e.setHead head).value? = e.value? := by cases e <;> rfl
    rw [hvalue]
    exact h.value
  · intro c hc
    cases e with
    | config c' =>
      cases hc
      have hc' := h.config c' rfl
      exact ⟨hc'.selects, hc'.implies, hc'.ranges⟩
    | _ => cases hc
  · have hvisible : (e.setHead head).visibleIf? = e.visibleIf? := by cases e <;> rfl
    rw [hvisible]
    exact h.visibleIf
  · rw [kind_setHead, children_setHead]
    exact h.children

lemma modifyValue (h : e.WellFormed environment) {f : Value → Value}
    (hf : ∀ v, v.WellFormed environment → (f v).WellFormed environment) :
    (Directive.modifyValue f e).WellFormed environment := by
  cases e with
  | config c =>
    refine ⟨h.head, ?_, ?_, fun c hc => (nomatch hc), fun hkind => h.children hkind⟩
    · rintro v ⟨⟩
      exact hf c.value (h.value c.value rfl)
    · rintro c' ⟨⟩
      have hc := h.config c rfl
      exact ⟨hc.selects, hc.implies, hc.ranges⟩
  | choice c =>
    refine ⟨h.head, ?_, fun c hc => (nomatch hc), fun c hc => (nomatch hc), h.children⟩
    rintro v ⟨⟩
    exact hf c.value (h.value c.value rfl)
  | comment c => exact h
  | menu head visibleIf children => exact h

lemma modifyConfig (h : e.WellFormed environment) {f : Config → Config}
    (hf : ∀ c : Config, c.WellFormed → (f c).WellFormed) (hhead : ∀ c, (f c).head = c.head)
    (hkind : ∀ c, (f c).kind = c.kind) (hvalue : ∀ c, (f c).value = c.value) :
    (Directive.modifyConfig f e).WellFormed environment := by
  cases e with
  | config c =>
    refine ⟨?_, ?_, ?_, fun c hc => (nomatch hc), fun _ child hchild => (nomatch hchild)⟩
    · change (f c).head.WellFormed (f c).kind
      rw [hhead, hkind]
      exact h.head
    · rintro v ⟨⟩
      rw [hvalue]
      exact h.value c.value rfl
    · rintro c' ⟨⟩
      exact hf c (h.config c rfl)
  | _ => exact h

lemma addDepends (h : e.WellFormed environment) {condition : Condition} (hc : condition.Stated) :
    (e.addDepends condition).WellFormed environment :=
  h.setHead (h.head.addDepends hc)

lemma foldl_addDepends (h : e.WellFormed environment) {conditions : List Condition}
    (hc : ∀ c ∈ conditions, c.Stated) :
    (conditions.foldl Entry.addDepends e).WellFormed environment := by
  induction conditions generalizing e with
  | nil => exact h
  | cons condition conditions ih =>
    obtain ⟨hcondition, hconditions⟩ := List.forall_mem_cons.1 hc
    exact ih (h.addDepends hcondition) hconditions

lemma finish (h : e.WellFormed environment) {scope : List Condition}
    (hscope : ∀ c ∈ scope, c.Stated) : (e.finish scope).WellFormed environment := by
  rw [finish_eq]
  refine h.foldl_addDepends fun c hc => ?_
  rcases List.mem_append.1 hc with hc | hc
  · obtain ⟨p, hp, hcondition⟩ := Option.bind_eq_some_iff.1 (Option.mem_toList.1 hc)
    exact (h.head.prompt p hp).1 c hcondition
  · exact hscope c hc

lemma applyPrompt (h : e.WellFormed environment) (site : Directive.Site) (slips : List Slip)
    {p : Prompt} (hp : p.Stated) :
    (Directive.applyPrompt site slips p e).1.WellFormed environment :=
  h.setHead (h.head.setPrompt hp)

end WellFormed

lemma mem_typeNames (t : ValueType) :
    t.name ∈ ["bool", "tristate", "string", "int", "hex"] := by
  cases t <;> simp [ValueType.name]

theorem WellFormed.apply (h : e.WellFormed environment) (site : Directive.Site) (slips : List Slip)
    {d : Directive} (hd : d.Stated) :
    (Directive.apply environment site slips d e).1.WellFormed environment := by
  have htype : ∀ (t : ValueType) (v : Value), v.WellFormed environment →
      Value.WellFormed environment { v with type := some t } := by
    intro t v hv
    refine ⟨?_, hv.help, hv.env, hv.defaults⟩
    rintro t' ⟨⟩
    exact mem_typeNames t
  have hdefaults : ∀ (value : Conditional) (v : Value), value.Stated → v.WellFormed environment →
      Value.WellFormed environment { v with defaults := v.defaults ++ [value] } := by
    intro value v hvalue hv
    exact ⟨hv.type, hv.help, hv.env, List.forall_mem_append.2
      ⟨hv.defaults, List.forall_mem_singleton.2 hvalue⟩⟩
  cases d with
  | prompt p => exact h.applyPrompt site slips hd
  | type t p =>
    cases p with
    | none => exact h.modifyValue (htype t)
    | some p => exact (h.modifyValue (htype t)).applyPrompt _ slips (hd p rfl)
  | default t value =>
    cases t with
    | none => exact h.modifyValue fun v hv => hdefaults value v hd hv
    | some t => exact h.modifyValue fun v hv => htype t _ (hdefaults value v hd hv)
  | depends condition => exact h.addDepends hd
  | select value =>
    refine h.modifyConfig (fun c hc => ?_) (fun _ => rfl) (fun _ => rfl) (fun _ => rfl)
    exact ⟨addNew_keeps hc.selects hd, hc.implies, hc.ranges⟩
  | imply value =>
    refine h.modifyConfig (fun c hc => ?_) (fun _ => rfl) (fun _ => rfl) (fun _ => rfl)
    exact ⟨hc.selects, addNew_keeps hc.implies hd, hc.ranges⟩
  | range r =>
    refine h.modifyConfig (fun c hc => ?_) (fun _ => rfl) (fun _ => rfl) (fun _ => rfl)
    exact ⟨hc.selects, hc.implies, addNew_keeps hc.ranges hd⟩
  | env name =>
    unfold Directive.apply
    dsimp only
    split
    · rename_i value hlookup
      refine h.modifyValue fun v hv => ⟨hv.type, hv.help, ?_, hv.defaults⟩
      intro value' hvalue'
      have hsame : value = value' := by cases value <;> cases hvalue' <;> rfl
      exact ⟨name, hsame ▸ hlookup⟩
    · exact h
  | otherOption name => exact h
  | help text =>
    cases text with
    | none => exact h
    | some text =>
      refine h.modifyValue fun v hv => ⟨hv.type, ?_, hv.env, hv.defaults⟩
      rintro text' ⟨⟩
      exact hd text rfl
  | optional =>
    cases e with
    | choice c =>
      exact ⟨h.head, h.value, fun c hc => (nomatch hc), fun c hc => (nomatch hc), h.children⟩
    | _ => exact h
  | visible condition =>
    cases e with
    | menu head visibleIf children =>
      refine ⟨h.head, h.value, h.config, ?_, h.children⟩
      rintro c ⟨⟩
      exact hd
    | _ => exact h

lemma WellFormed.addChild (h : e.WellFormed environment) (child : Entry) :
    (e.addChild child).WellFormed environment := by
  cases e with
  | config c => exact h
  | comment c => exact h
  | menu head visibleIf children =>
    exact ⟨h.head, fun v hv => (nomatch hv), fun c hc => (nomatch hc), h.visibleIf,
      fun hkind => (nomatch hkind)⟩
  | choice c =>
    have hitem : ∀ item : ChoiceItem,
        item.toEntry.kind ∈ [EntryKind.config, .menuconfig, .comment] →
        (Entry.choice { c with items := c.items ++ [item] }).WellFormed environment := by
      intro item hkind
      refine ⟨h.head, h.value, fun c hc => (nomatch hc), fun c hc => (nomatch hc), ?_⟩
      intro _ child hchild
      change child ∈ (c.items ++ [item]).map ChoiceItem.toEntry at hchild
      rw [List.map_append] at hchild
      rcases List.mem_append.1 hchild with hchild | hchild
      · exact h.children rfl child hchild
      · exact List.mem_singleton.1 hchild ▸ hkind
    cases child with
    | config member =>
      refine hitem (.config member) ?_
      cases hmenu : member.isMenu <;> simp [ChoiceItem.toEntry, kind, Config.kind, hmenu]
    | comment note => exact hitem (.comment note) (by simp [ChoiceItem.toEntry, kind])
    | _ => exact h

lemma wellFormed_declared (isMenu : Bool) {symbol : String} (location : Location)
    (h : IsWord symbol) : (declared isMenu symbol location).WellFormed environment := by
  refine ⟨?_, ?_, ?_, fun c hc => (nomatch hc), fun _ child hchild => (nomatch hchild)⟩
  · refine .ofSymbol location ?_
    cases isMenu <;> exact ⟨symbol, rfl, h⟩
  · rintro v ⟨⟩
    exact .empty
  · rintro c ⟨⟩
    exact ⟨⟨List.nodup_nil, fun s hs => (nomatch hs)⟩, ⟨List.nodup_nil, fun i hi => (nomatch hi)⟩,
      ⟨List.nodup_nil, fun r hr => (nomatch hr)⟩⟩

lemma wellFormed_choice {symbol : Option String} (location : Location)
    (h : ∀ word ∈ symbol, IsWord word) :
    (choice { head := { location, symbol } }).WellFormed environment := by
  refine ⟨.ofSymbol location h, ?_, fun c hc => (nomatch hc), fun c hc => (nomatch hc),
    fun _ child hchild => (nomatch hchild)⟩
  rintro v ⟨⟩
  exact .empty

lemma wellFormed_comment (location : Location) :
    (comment { head := { location } }).WellFormed environment :=
  ⟨.ofSymbol location rfl, fun _ hv => (nomatch hv), fun _ hc => (nomatch hc),
    fun _ hc => (nomatch hc), fun hkind => (nomatch hkind)⟩

lemma wellFormed_menu (location : Location) :
    (menu { location } none []).WellFormed environment :=
  ⟨.ofSymbol location rfl, fun _ hv => (nomatch hv), fun _ hc => (nomatch hc),
    fun _ hc => (nomatch hc), fun hkind => (nomatch hkind)⟩

lemma Prompted.congr {a b : Entry} (ha : a.Prompted) (hkind : b.kind = a.kind)
    (h : a.head.prompt.isSome = true → b.head.prompt.isSome = true) : b.Prompted :=
  fun hb => h (ha (hkind ▸ hb))

lemma Prompted.apply (h : e.Prompted) (site : Directive.Site) (slips : List Slip) (d : Directive) :
    (Directive.apply environment site slips d e).1.Prompted := by
  refine h.congr (Directive.shows_apply environment site slips d e).kind fun hprompt => ?_
  cases d with
  | prompt p => exact head_setHead _ e ▸ rfl
  | type t p =>
    cases p with
    | none => cases e <;> exact hprompt
    | some p => cases e <;> rfl
  | default t value => cases t <;> cases e <;> exact hprompt
  | env name =>
    unfold Directive.apply
    dsimp only
    split
    · cases e <;> exact hprompt
    · exact hprompt
  | help text => cases text <;> cases e <;> exact hprompt
  | _ => cases e <;> exact hprompt

lemma prompt_finish (e : Entry) (scope : List Condition) :
    (e.finish scope).head.prompt = e.head.prompt := by
  rw [finish_eq]
  generalize e.outerConditions scope = conditions
  induction conditions generalizing e with
  | nil => rfl
  | cons condition conditions ih => rw [List.foldl_cons, ih, head_addDepends]

lemma Prompted.finish (h : e.Prompted) (scope : List Condition) : (e.finish scope).Prompted :=
  h.congr (kind_finish e scope) fun hprompt => (prompt_finish e scope).symm ▸ hprompt

lemma Prompted.addChild (h : e.Prompted) (child : Entry) : (e.addChild child).Prompted :=
  h.congr (kind_addChild e child) fun hprompt => (head_addChild e child).symm ▸ hprompt

end Entry

/-- An entry is well-formed so far, and those below it are finished. -/
structure Frame.WellFormed (environment : Environment) (f : Frame) : Prop where
  scope : ∀ condition ∈ f.scope, condition.Stated
  entry : f.entry.WellFormed environment
  prompted : f.isTop = false → f.entry.Prompted
  below : ∀ e ∈ Entry.walkAll f.entry.children, e.WellFormed environment ∧ e.Prompted

structure State.WellFormed (environment : Environment) (s : State) : Prop where
  scope : ∀ condition ∈ s.ctx.scope, condition.Stated
  frames : ∀ f ∈ s.frame :: s.outer, f.WellFormed environment

namespace Frame.WellFormed

variable {environment : Environment} {f g : Frame} {e : Entry}

lemma withEntry (h : f.WellFormed environment) (he : e.WellFormed environment)
    (hprompted : f.entry.Prompted → e.Prompted) (hchildren : e.children = f.entry.children) :
    (f.withEntry e).WellFormed environment := by
  refine ⟨h.scope, he, fun htop => hprompted (h.prompted htop), ?_⟩
  change ∀ e' ∈ Entry.walkAll e.children, _
  rw [hchildren]
  exact h.below

lemma opening {s : State} (hscope : ∀ condition ∈ s.ctx.scope, condition.Stated)
    (he : e.WellFormed environment) (hprompted : e.Prompted) (hchildren : e.children = []) :
    (s.opening e).WellFormed environment := by
  refine ⟨hscope, he, fun _ => hprompted, ?_⟩
  change ∀ e' ∈ Entry.walkAll e.children, _
  rw [hchildren, Entry.walkAll]
  exact fun e' he' => nomatch he'

lemma close (hf : f.WellFormed environment) (hg : g.WellFormed environment)
    (htop : f.isTop = false) (hholds : g.entry.kind.holds f.entry.kind = true) :
    (g.withEntry (g.entry.addChild (f.entry.finish f.scope))).WellFormed environment := by
  refine ⟨hg.scope, hg.entry.addChild _, fun htop => (hg.prompted htop).addChild _, ?_⟩
  have hholds' : g.entry.kind.holds (f.entry.finish f.scope).kind = true := by
    rw [Entry.kind_finish]
    exact hholds
  change ∀ e ∈ Entry.walkAll (g.entry.addChild (f.entry.finish f.scope)).children, _
  rw [Entry.children_addChild hholds', Entry.walkAll_append, Entry.walkAll, Entry.walkAll,
    List.append_nil, Entry.walk_eq, Entry.children_finish]
  refine List.forall_mem_append.2 ⟨hg.below, List.forall_mem_cons.2 ⟨?_, hf.below⟩⟩
  exact ⟨hf.entry.finish hf.scope, (hf.prompted htop).finish f.scope⟩

end Frame.WellFormed

namespace State

variable {environment : Environment} {s s' : State} {p : Progress}

lemma WellFormed.update (h : s.WellFormed environment) {ctx : Context} {e : Entry}
    (hscope : ctx.scope = s.ctx.scope) (he : e.WellFormed environment)
    (hprompted : s.frame.entry.Prompted → e.Prompted)
    (hchildren : e.children = s.frame.entry.children) :
    State.WellFormed environment { s with ctx, frame := s.frame.withEntry e } := by
  obtain ⟨hframe, houter⟩ := List.forall_mem_cons.1 h.frames
  refine ⟨hscope ▸ h.scope, ?_⟩
  exact List.forall_mem_cons.2 ⟨hframe.withEntry he hprompted hchildren, houter⟩

lemma WellFormed.descend (h : s.WellFormed environment) {ctx : Context} {e : Entry}
    (hscope : ctx.scope = s.ctx.scope) (he : e.WellFormed environment) (hprompted : e.Prompted)
    (hchildren : e.children = []) :
    State.WellFormed environment { ctx, frame := s.opening e, outer := s.frame :: s.outer } := by
  refine ⟨hscope ▸ h.scope, ?_⟩
  exact List.forall_mem_cons.2 ⟨.opening h.scope he hprompted hchildren, h.frames⟩

/-- A step keeps all entries well-formed. -/
theorem WellFormed.step (h : s.WellFormed environment) (hn : Nested s.frame s.outer)
    (henvironment : s.ctx.environment = environment) (hb : Builds s p) (hp : p = .running s') :
    s'.WellFormed environment := by
  have hentry := (h.frames s.frame List.mem_cons_self).entry
  cases hb with
  | pass hquiet =>
    cases hp
    exact ⟨hquiet.scope ▸ h.scope, h.frames⟩
  | @directive ctx site slips d hd hquiet =>
    cases hp
    rw [henvironment]
    exact h.update hquiet.scope (hentry.apply site slips hd) (·.apply site slips d)
      (Directive.shows_apply environment site slips d _).children
  | @mainMenu ctx site slips d location hkind hd hquiet =>
    cases hp
    rw [henvironment]
    have hmoved := hentry.setHead (hentry.head.location location)
    refine h.update hquiet.scope (hmoved.apply site slips hd) (fun hprompted => ?_) ?_
    · refine Entry.Prompted.apply (hprompted.congr (Entry.kind_setHead _ _) ?_) site slips d
      rw [Entry.head_setHead]
      exact id
    · rw [(Directive.shows_apply environment site slips d _).children, Entry.children_setHead]
  | openIf hcondition hquiet =>
    cases hp
    exact ⟨List.forall_mem_append.2 ⟨h.scope, List.forall_mem_singleton.2 hcondition⟩, h.frames⟩
  | closeIf hquiet =>
    cases hp
    exact ⟨fun c hc => h.scope c ((List.dropLast_prefix _).subset hc), h.frames⟩
  | config isMenu location hsymbol hquiet =>
    cases hp
    refine h.descend ?_ (Entry.wellFormed_declared isMenu location hsymbol) ?_ rfl
    · rw [Context.scope_define, hquiet.scope]
    · cases isMenu <;> rintro (hkind | hkind) <;> cases hkind
  | choice location hsymbol hquiet =>
    cases hp
    refine h.descend hquiet.scope (Entry.wellFormed_choice location hsymbol) ?_ rfl
    rintro (hkind | hkind) <;> cases hkind
  | prompted hkind location site slips hprompt hquiet =>
    cases hp
    rcases hkind with rfl | rfl
    · exact h.descend hquiet.scope
        ((Entry.wellFormed_comment location).applyPrompt site slips hprompt) (fun _ => rfl) rfl
    · exact h.descend hquiet.scope
        ((Entry.wellFormed_menu location).applyPrompt site slips hprompt) (fun _ => rfl) rfl
  | close hquiet =>
    obtain ⟨g, outer, houter, houter', hscope, hframe⟩ := close_eq_running hp
    have hframes := h.frames
    rw [houter] at hn hframes
    obtain ⟨hf, hframes⟩ := List.forall_mem_cons.1 hframes
    obtain ⟨hg, hframes⟩ := List.forall_mem_cons.1 hframes
    refine ⟨?_, ?_⟩
    · rw [hscope, hquiet.scope]
      exact h.scope
    · rw [hframe, houter']
      exact List.forall_mem_cons.2 ⟨hf.close hg hn.1 hn.2.1, hframes⟩

end State

theorem Reachable.wellFormed {fs : FileSystem} {settings : Settings} {s : State}
    (h : Reachable fs settings s) : s.WellFormed settings.environment := by
  induction h with
  | start hstart =>
    obtain ⟨bytes, -, rfl⟩ := Settings.start_eq_ok.1 hstart
    have hscope : ∀ condition ∈ ([] : List Condition), condition.Stated := by simp
    refine ⟨hscope, List.forall_mem_singleton.2 ⟨hscope, Entry.wellFormed_menu _, ?_, ?_⟩⟩
    · exact fun htop => nomatch htop
    · change ∀ e ∈ Entry.walkAll [], _
      rw [Entry.walkAll]
      exact fun e he => nomatch he
  | step hs hstep ih =>
    exact ih.step hs.nested hs.sound.environment (State.step_builds hs.spelled hstep) rfl

lemma Tree.toEntry_root_ofRun {e : Entry} (h : e.kind = .menu) (ctx : Context) :
    (ofRun e ctx).root.toEntry = e := by
  obtain ⟨head, visibleIf, children, rfl⟩ := Entry.eq_menu_of_kind h
  rfl

lemma Tree.exists_last_close {fs : FileSystem} {settings : Settings} {tree : Tree}
    (h : parse fs settings = .ok tree) : ∃ last ctx, Reachable fs settings last ∧
      last.step fs = .ok (.finished (last.frame.entry.finish last.frame.scope) ctx) ∧
        last.outer = [] ∧ (last.frame.entry.finish last.frame.scope).kind = .menu ∧
          tree = ofRun (last.frame.entry.finish last.frame.scope) ctx := by
  obtain ⟨s, e, ctx, hstart, hrun, rfl⟩ := parse_eq_ok.1 h
  rcases State.exists_last_step (Reachable.start hstart) with
    ⟨last, fault, -, -, herror⟩ | ⟨last, e', ctx', hreachable, hstep, hrun'⟩
  · rw [hrun] at herror
    cases herror
  · rw [hrun] at hrun'
    cases hrun'
    obtain ⟨-, houter, rfl⟩ := State.effect_finished (State.step_effect hstep) rfl
    refine ⟨last, ctx, hreachable, hstep, houter, ?_, rfl⟩
    have hnested := hreachable.nested
    rw [houter] at hnested
    rw [Entry.kind_finish]
    exact hnested.2

lemma Tree.wellFormed_of_mem_nodes {fs : FileSystem} {settings : Settings} {tree : Tree}
    (h : parse fs settings = .ok tree) :
    ∀ e ∈ tree.nodes, e.WellFormed settings.environment ∧ e.Prompted := by
  obtain ⟨last, ctx, hreachable, -, -, hkind, rfl⟩ := exists_last_close h
  rw [nodes, (root_ofRun hkind ctx).2, Entry.children_finish]
  exact (hreachable.wellFormed.frames last.frame List.mem_cons_self).below

/-- Every tree that reading gives is well-formed: its root, and all entries below it, of which the
menus and comments have prompts. -/
theorem Tree.wellFormed_of_parse {fs : FileSystem} {settings : Settings} {tree : Tree}
    (h : parse fs settings = .ok tree) :
    tree.root.toEntry.WellFormed settings.environment ∧
      ∀ e ∈ tree.nodes, e.WellFormed settings.environment ∧ e.Prompted := by
  refine ⟨?_, wellFormed_of_mem_nodes h⟩
  obtain ⟨last, ctx, hreachable, -, -, hkind, rfl⟩ := exists_last_close h
  rw [toEntry_root_ofRun hkind]
  have hframe := hreachable.wellFormed.frames last.frame List.mem_cons_self
  exact hframe.entry.finish hframe.scope

/-- Directives that repeat others, a prompt with blanks around it, and a choice. -/
def furnished : Snapshot where
  files := [
    (["K".toList],
      ("config A\n bool \" a \"\n default y if B\n select B\n select B\n depends on B\n" ++
        " depends on B\n option env=\"HOME\"\n help\n\n   text\n\nchoice C\nmenuconfig D\n" ++
        "comment \"note\"\nendchoice\nmenu \"m\"\nendmenu\n").toUTF8.toList)]

theorem wellFormed_furnished : ∃ tree,
    Tree.parse furnished.toFileSystem
        { root := "", file := "K", environment := [("HOME", .str "/root")] } = .ok tree ∧
      tree.nodes.map Entry.kind =
          [EntryKind.config, .choice, .menuconfig, .comment, .menu] ∧
        tree.nodes.head?.bind Entry.value? =
            some { type := some .bool, help := some "text\n", env := some (.str "/root"),
                   defaults := [⟨"y", some ⟨"B"⟩⟩] } ∧
          ∀ e ∈ tree.nodes, e.WellFormed [("HOME", .str "/root")] ∧ e.Prompted := by
  have hrun : (Tree.parseFor furnished.toFileSystem
      { root := "", file := "K", environment := [("HOME", .str "/root")] } 60).any (fun tree =>
        tree.nodes.map Entry.kind =
            [EntryKind.config, .choice, .menuconfig, .comment, .menu] ∧
          tree.nodes.head?.bind Entry.value? =
            some { type := some .bool, help := some "text\n", env := some (.str "/root"),
                   defaults := [⟨"y", some ⟨"B"⟩⟩] }) = true := by decide +kernel
  obtain ⟨tree, htree, hnodes⟩ := (Option.any_eq_true _ _).1 hrun
  have hparse := Tree.parse_of_parseFor htree
  obtain ⟨hkinds, hvalue⟩ := of_decide_eq_true hnodes
  exact ⟨tree, hparse, hkinds, hvalue, (Tree.wellFormed_of_parse hparse).2⟩

end Kconfig
