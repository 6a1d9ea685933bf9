import Kconfig.Proofs.WellFormed

/-!
# Symbol tables

The table of a tree gives for each symbol the entry that was registered last under it. A config is
registered when its symbol has been read and again, completed, at its end; a choice is registered at
its end, after its members. So the table gives the last entry in source order, unless a choice and
one of its members have the same symbol.
-/

namespace Kconfig

lemma lookup_setValue {α : Type} (key a : String) (value : α) (items : List (String × α)) :
    (setValue key value items).lookup a = if a = key then some value else items.lookup a := by
  induction items with
  | nil =>
    by_cases h : a = key
    · simp [setValue, h]
    · simp [setValue, List.lookup_cons, beq_eq_false_iff_ne.2 h, h]
  | cons item items ih =>
    obtain ⟨k, v⟩ := item
    rw [setValue]
    by_cases hk : k = key
    · rw [if_pos hk, hk, List.lookup_cons, List.lookup_cons]
      by_cases h : a = key
      · simp [h]
      · simp [beq_eq_false_iff_ne.2 h, h]
    · rw [if_neg hk, List.lookup_cons, List.lookup_cons, ih]
      by_cases h : a = k
      · have hne : ¬a = key := fun heq => hk (h.symm.trans heq)
        simp [h, hk]
      · simp [beq_eq_false_iff_ne.2 h]

lemma map_fst_setValue {α : Type} (key : String) (value : α) (items : List (String × α)) :
    (setValue key value items).map Prod.fst = addNew (items.map Prod.fst) key := by
  induction items with
  | nil => rfl
  | cons item items ih =>
    obtain ⟨k, v⟩ := item
    rw [setValue]
    by_cases hk : k = key
    · rw [if_pos hk, addNew, if_pos (by simp [hk])]
      simp [hk]
    · have hne : ¬key = k := fun h => hk h.symm
      rw [if_neg hk, List.map_cons, ih, addNew, addNew, List.map_cons]
      by_cases hmem : key ∈ items.map Prod.fst
      · rw [if_pos hmem, if_pos (List.mem_cons_of_mem _ hmem)]
      · rw [if_neg hmem, if_neg (by simp [hne] at hmem ⊢; exact hmem)]
        rfl

lemma mem_keys_iff {α : Type} (a : String) (items : List (String × α)) :
    a ∈ items.map Prod.fst ↔ (items.lookup a).isSome = true := by
  induction items with
  | nil => simp
  | cons item items ih =>
    obtain ⟨k, v⟩ := item
    rw [List.map_cons, List.mem_cons, List.lookup_cons, ih]
    by_cases h : a = k
    · simp [h]
    · simp [h, beq_eq_false_iff_ne.2 h]

namespace Entry

def Carries (a : String) (e : Entry) : Prop :=
  e.head.symbol = some a

instance (a : String) (e : Entry) : Decidable (e.Carries a) :=
  inferInstanceAs (Decidable (e.head.symbol = some a))

/-- The entry, if it is of a kind that is registered. -/
def registered (e : Entry) : List Entry :=
  match e with
  | .config _ => [e]
  | .choice _ => [e]
  | .comment _ => []
  | .menu _ _ _ => []

mutual

/-- The entry and the entries below it that are registered, in the order in which they end. -/
def registrations : Entry → List Entry
  | .config c => [.config c]
  | .comment _ => []
  | .choice c => c.members.map .config ++ [.choice c]
  | .menu _ _ children => registrationsAll children

def registrationsAll : List Entry → List Entry
  | [] => []
  | e :: es => registrations e ++ registrationsAll es

end

lemma registrationsAll_append (es es' : List Entry) :
    registrationsAll (es ++ es') = registrationsAll es ++ registrationsAll es' := by
  induction es with
  | nil => rw [List.nil_append, registrationsAll, List.nil_append]
  | cons e es ih =>
    rw [List.cons_append, registrationsAll, registrationsAll, ih, List.append_assoc]

lemma registrationsAll_items (c : Choice) :
    registrationsAll (c.items.map ChoiceItem.toEntry) = c.members.map .config := by
  obtain ⟨head, value, optional, items⟩ := c
  induction items with
  | nil =>
    rw [List.map_nil, registrationsAll]
    rfl
  | cons item items ih =>
    rw [List.map_cons, registrationsAll, ih]
    cases item with
    | config member =>
      rw [ChoiceItem.toEntry, registrations]
      rfl
    | comment comment =>
      rw [ChoiceItem.toEntry, registrations]
      rfl

lemma registrations_eq (e : Entry) :
    e.registrations = registrationsAll e.children ++ e.registered := by
  cases e with
  | config c => rw [registrations, children, registrationsAll, registered, List.nil_append]
  | comment c => rw [registrations, children, registrationsAll, registered, List.nil_append]
  | choice c =>
    rw [registrations, children, registrationsAll_items, registered]
  | menu head visibleIf es => rw [registrations, children, registered, List.append_nil]

mutual

lemma children_of_induction {motive : List Entry → Prop} (nil : motive [])
    (cons : ∀ e es, motive e.children → motive es → motive (e :: es)) (e : Entry) :
    motive e.children := by
  cases e with
  | config c => exact nil
  | comment c => exact nil
  | menu head visibleIf es => exact children_induction nil cons es
  | choice c =>
    rw [children]
    induction c.items with
    | nil => exact nil
    | cons item items ih =>
      refine cons item.toEntry _ ?_ ih
      cases item <;> exact nil

/-- A property of lists of entries holds if it does whenever it holds of the children of the first
entry and of the other entries. -/
theorem children_induction {motive : List Entry → Prop} (nil : motive [])
    (cons : ∀ e es, motive e.children → motive es → motive (e :: es)) (es : List Entry) :
    motive es := by
  cases es with
  | nil => exact nil
  | cons e es => exact cons e es (children_of_induction nil cons e) (children_induction nil cons es)

end

/-- The last of the entries that carry a symbol. -/
def last? (a : String) (es : List Entry) : Option Entry :=
  (es.filter (Carries a)).getLast?

lemma last?_append (a : String) (es es' : List Entry) :
    last? a (es ++ es') = (last? a es').or (last? a es) := by
  rw [last?, List.filter_append, List.getLast?_append]
  rfl

lemma last?_singleton (a : String) (e : Entry) :
    last? a [e] = if e.Carries a then some e else none := by
  by_cases h : e.Carries a <;> simp [last?, h]

lemma isSome_last?_iff (a : String) (es : List Entry) :
    (last? a es).isSome = true ↔ ∃ e ∈ es, e.Carries a := by
  rw [last?, List.getLast?_isSome, ne_eq, List.filter_eq_nil_iff]
  simp

lemma mem_registrationsAll {x : Entry} (es : List Entry) :
    x ∈ registrationsAll es ↔ x ∈ walkAll es ∧ x.registered = [x] := by
  induction es using children_induction with
  | nil => simp [registrationsAll, walkAll]
  | cons e es ihbelow ih =>
    have hself : x ∈ e.registered ↔ x = e ∧ x.registered = [x] := by
      constructor
      · intro hx
        cases e with
        | config c =>
          rw [List.mem_singleton.1 hx]
          exact ⟨rfl, rfl⟩
        | choice c =>
          rw [List.mem_singleton.1 hx]
          exact ⟨rfl, rfl⟩
        | comment c => cases hx
        | menu head visibleIf children => cases hx
      · rintro ⟨rfl, hx⟩
        rw [hx]
        exact List.mem_singleton_self x
    rw [registrationsAll, walkAll, registrations_eq, walk_eq, List.mem_append, List.mem_append,
      List.mem_append, List.mem_cons, ih, ihbelow, hself]
    tauto

/-- The entry has the symbol for itself among its children. -/
def Apart (a : String) (e : Entry) : Prop :=
  e.Carries a → ∀ child ∈ e.children, ¬child.Carries a

instance (a : String) (e : Entry) : Decidable (e.Apart a) :=
  inferInstanceAs (Decidable (e.Carries a → ∀ child ∈ e.children, ¬child.Carries a))

lemma filter_registrations {a : String} {e : Entry}
    (hbelow : (registrationsAll e.children).filter (Carries a) =
      (walkAll e.children).filter (Carries a))
    (hregistered : e.Carries a → e.registered = [e]) (hapart : e.Apart a) :
    e.registrations.filter (Carries a) = e.walk.filter (Carries a) := by
  rw [registrations_eq, walk_eq, List.filter_append]
  by_cases h : e.Carries a
  · have hnone : (registrationsAll e.children).filter (Carries a) = [] := by
      rw [List.filter_eq_nil_iff]
      intro x hx
      cases e with
      | choice c =>
        have hchild := ((mem_registrationsAll _).1 hx).1
        rw [children, walkAll_items] at hchild
        simpa using hapart h x hchild
      | config c => cases hx
      | comment c => cases hregistered h
      | menu head visibleIf es => cases hregistered h
    rw [hnone, List.nil_append, hregistered h, List.filter_cons_of_pos (by simpa using h),
      List.filter_cons_of_pos (by simpa using h), ← hbelow, hnone, List.filter_nil]
  · have hself : e.registered.filter (Carries a) = [] := by
      cases e <;> simp [registered, h]
    rw [hself, List.append_nil, hbelow, List.filter_cons_of_neg (by simpa using h)]

lemma filter_registrationsAll {a : String} (es : List Entry)
    (hregistered : ∀ x ∈ walkAll es, x.Carries a → x.registered = [x])
    (hapart : ∀ x ∈ walkAll es, x.Apart a) :
    (registrationsAll es).filter (Carries a) = (walkAll es).filter (Carries a) := by
  induction es using children_induction with
  | nil => rfl
  | cons e es ihbelow ih =>
    rw [walkAll] at hregistered hapart
    obtain ⟨hfirst, hrest⟩ := List.forall_mem_append.1 hregistered
    obtain ⟨hfirst', hrest'⟩ := List.forall_mem_append.1 hapart
    rw [walk_eq] at hfirst hfirst'
    obtain ⟨hself, hbelow⟩ := List.forall_mem_cons.1 hfirst
    obtain ⟨hself', hbelow'⟩ := List.forall_mem_cons.1 hfirst'
    rw [registrationsAll, walkAll, List.filter_append, List.filter_append, ih hrest hrest',
      filter_registrations (ihbelow hbelow hbelow') hself hself']

lemma symbol_finish (e : Entry) (scope : List Condition) :
    (e.finish scope).head.symbol = e.head.symbol :=
  congrArg Header.symbol (header_finish e scope)

lemma registered_of_kind {e : Entry} (hcomment : e.kind ≠ .comment) (hmenu : e.kind ≠ .menu) :
    e.registered = [e] := by
  cases e with
  | comment c => exact absurd rfl hcomment
  | menu head visibleIf es => exact absurd rfl hmenu
  | _ => rfl

lemma registered_of_menu {e : Entry} (h : e.kind = .menu) : e.registered = [] := by
  obtain ⟨head, visibleIf, children, rfl⟩ := eq_menu_of_kind h
  rfl

/-- The symbol of a config that is being read. The table has an entry for it that is not completed
yet. -/
def pending? (e : Entry) : Option String :=
  if e.kind = .config ∨ e.kind = .menuconfig then e.head.symbol else none

lemma pending?_congr {a b : Entry} (h : b.header = a.header) : b.pending? = a.pending? := by
  have hkind : b.kind = a.kind := congrArg Header.kind h
  have hsymbol : b.head.symbol = a.head.symbol := congrArg Header.symbol h
  rw [pending?, pending?, hkind, hsymbol]

lemma pending?_of_isBlock {e : Entry} (h : e.kind.isBlock = true) : e.pending? = none := by
  refine if_neg ?_
  rintro (hkind | hkind) <;>
  · rw [hkind] at h
    cases h

lemma last?_of_pending {e : Entry} {a : String} (h : e.pending? = some a)
    (scope : List Condition) : last? a (e.finish scope).registered = some (e.finish scope) := by
  unfold pending? at h
  split at h
  · rename_i hkind
    have hcarries : (e.finish scope).Carries a := (symbol_finish e scope).trans h
    have hregistered : (e.finish scope).registered = [e.finish scope] := by
      refine registered_of_kind ?_ ?_ <;>
      · rw [kind_finish]
        rcases hkind with hkind | hkind <;> simp [hkind]
    rw [hregistered, last?_singleton, if_pos hcarries]
  · cases h

end Entry

lemma Heading.WellFormed.symbol_ne {kind : EntryKind} {head : Heading} (h : head.WellFormed kind)
    {symbol : String} (hsymbol : head.symbol = some symbol) : symbol ≠ "" := by
  have hnames := h.symbol
  rw [hsymbol] at hnames
  cases kind with
  | config =>
    obtain ⟨word, hword, hspelled⟩ := hnames
    cases hword
    exact hspelled.nonempty
  | menuconfig =>
    obtain ⟨word, hword, hspelled⟩ := hnames
    cases hword
    exact hspelled.nonempty
  | choice => exact (hnames symbol rfl).nonempty
  | comment => cases hnames
  | menu => cases hnames

namespace Context

variable {ctx : Context} {e : Entry}

lemma symbols_define (ctx : Context) (e : Entry) :
    (ctx.define e).symbols = (ctx.setSymbol e).symbols := by
  unfold define setSymbol
  cases hsymbol : e.head.symbol.filter (· ≠ "") with
  | none => rfl
  | some symbol => rfl

lemma lookup_setSymbol (hsymbol : ∀ symbol, e.head.symbol = some symbol → symbol ≠ "")
    (a : String) :
    (ctx.setSymbol e).symbols.lookup a = (Entry.last? a [e]).or (ctx.symbols.lookup a) := by
  rw [Entry.last?_singleton]
  cases hhead : e.head.symbol with
  | none =>
    have hcarries : ¬e.Carries a := by simp [Entry.Carries, hhead]
    rw [if_neg hcarries, setSymbol, hhead]
    rfl
  | some symbol =>
    have hcarries : e.Carries a ↔ a = symbol := by simp [Entry.Carries, hhead, eq_comm]
    rw [setSymbol, hhead, Option.filter_some, if_pos (by simpa using hsymbol symbol hhead)]
    dsimp only
    rw [lookup_setValue]
    by_cases ha : a = symbol
    · rw [if_pos ha, if_pos (hcarries.2 ha)]
      rfl
    · rw [if_neg ha, if_neg (mt hcarries.1 ha)]
      rfl

lemma nodup_setSymbol (h : (ctx.symbols.map Prod.fst).Nodup) (e : Entry) :
    ((ctx.setSymbol e).symbols.map Prod.fst).Nodup := by
  unfold setSymbol
  split
  · exact h
  · dsimp only
    rw [map_fst_setValue]
    exact nodup_addNew h _

end Context

/-- The registrations of the completed entries in a frame and those around it. -/
def completed (f : Frame) : List Frame → List Entry
  | [] => Entry.registrationsAll f.entry.children
  | g :: outer => completed g outer ++ Entry.registrationsAll f.entry.children

lemma exists_completed_eq (outer : List Frame) : ∃ before, ∀ f,
    completed f outer = before ++ Entry.registrationsAll f.entry.children := by
  cases outer with
  | nil => exact ⟨[], fun f => rfl⟩
  | cons g outer => exact ⟨completed g outer, fun f => rfl⟩

lemma completed_congr {f f' : Frame} (h : f'.entry.children = f.entry.children)
    (outer : List Frame) : completed f' outer = completed f outer := by
  obtain ⟨before, hcompleted⟩ := exists_completed_eq outer
  rw [hcompleted, hcompleted, h]

lemma completed_addChild {g : Frame} {child : Entry} (h : g.entry.kind.holds child.kind = true)
    (outer : List Frame) :
    completed (g.withEntry (g.entry.addChild child)) outer =
      completed g outer ++ Entry.registrationsAll child.children ++ child.registered := by
  have hchildren : (g.withEntry (g.entry.addChild child)).entry.children =
      g.entry.children ++ [child] := Entry.children_addChild h
  have hlast : Entry.registrationsAll [child] =
      Entry.registrationsAll child.children ++ child.registered := by
    rw [Entry.registrationsAll, Entry.registrationsAll, List.append_nil, Entry.registrations_eq]
  obtain ⟨before, hcompleted⟩ := exists_completed_eq outer
  rw [hcompleted, hcompleted, hchildren, Entry.registrationsAll_append, hlast, List.append_assoc,
    List.append_assoc]

/-- The table of a state gives the last entry that was completed for each symbol, apart from that of
the config that is being read. -/
structure State.Tabled (s : State) : Prop where
  keys : (s.ctx.symbols.map Prod.fst).Nodup
  last : ∀ a, s.frame.entry.pending? ≠ some a →
    s.ctx.symbols.lookup a = Entry.last? a (completed s.frame s.outer)

namespace State

variable {s s' : State} {ctx : Context} {p : Progress}

lemma lookup_close
    (hsymbol : ∀ symbol, s.frame.entry.head.symbol = some symbol → symbol ≠ "") (a : String) :
    (s.close ctx).ctx.symbols.lookup a =
      (Entry.last? a (s.frame.entry.finish s.frame.scope).registered).or
        (ctx.symbols.lookup a) := by
  have hsymbol' : ∀ symbol, (s.frame.entry.finish s.frame.scope).head.symbol = some symbol →
      symbol ≠ "" := by
    intro symbol h
    rw [Entry.symbol_finish] at h
    exact hsymbol symbol h
  unfold close
  dsimp only
  split
  all_goals
    dsimp only [Progress.ctx]
    cases hentry : s.frame.entry.finish s.frame.scope with
    | config c => exact Context.lookup_setSymbol (hentry ▸ hsymbol') a
    | choice c =>
      dsimp only
      rw [Context.symbols_define]
      exact Context.lookup_setSymbol (hentry ▸ hsymbol') a
    | comment c => rfl
    | menu head visibleIf children => rfl

lemma nodup_close (h : (ctx.symbols.map Prod.fst).Nodup) :
    ((s.close ctx).ctx.symbols.map Prod.fst).Nodup := by
  unfold close
  dsimp only
  split
  all_goals
    dsimp only [Progress.ctx]
    split
    · exact Context.nodup_setSymbol h _
    · rw [Context.symbols_define]
      exact Context.nodup_setSymbol h _
    · exact h

lemma Tabled.lookup_close (h : s.Tabled)
    (hsymbol : ∀ symbol, s.frame.entry.head.symbol = some symbol → symbol ≠ "")
    (hctx : ctx.symbols = s.ctx.symbols) (a : String) :
    (s.close ctx).ctx.symbols.lookup a =
      Entry.last? a (completed s.frame s.outer ++
        (s.frame.entry.finish s.frame.scope).registered) := by
  rw [State.lookup_close hsymbol, hctx, Entry.last?_append]
  by_cases hpending : s.frame.entry.pending? = some a
  · rw [Entry.last?_of_pending hpending]
    rfl
  · rw [h.last a hpending]

lemma isBlock_of_nested {f g : Frame} {outer : List Frame} (hn : Nested f (g :: outer)) :
    g.entry.kind.isBlock = true := by
  have hholds := hn.2.1
  cases hkind : g.entry.kind <;> simp_all [EntryKind.isBlock, EntryKind.holds]

lemma completed_close (hn : Nested s.frame s.outer) (hclose : s.close ctx = .running s') :
    s'.frame.entry.kind.isBlock = true ∧ completed s'.frame s'.outer =
      completed s.frame s.outer ++ (s.frame.entry.finish s.frame.scope).registered := by
  obtain ⟨g, outer, houter, houter', -, hframe⟩ := close_eq_running hclose
  rw [houter] at hn
  have hholds : g.entry.kind.holds (s.frame.entry.finish s.frame.scope).kind = true := by
    rw [Entry.kind_finish]
    exact hn.2.1
  constructor
  · rw [hframe]
    exact (congrArg EntryKind.isBlock (Entry.kind_addChild _ _)).trans (isBlock_of_nested hn)
  · rw [houter, houter', hframe, completed_addChild hholds, completed, Entry.children_finish]

lemma Tabled.close (h : s.Tabled) (hn : Nested s.frame s.outer)
    (hsymbol : ∀ symbol, s.frame.entry.head.symbol = some symbol → symbol ≠ "")
    (hctx : ctx.symbols = s.ctx.symbols) (hclose : s.close ctx = .running s') : s'.Tabled := by
  have hsymbols : (s.close ctx).ctx.symbols = s'.ctx.symbols := by rw [hclose]; rfl
  refine ⟨?_, ?_⟩
  · rw [← hsymbols]
    exact nodup_close (hctx ▸ h.keys)
  · intro a _
    rw [← hsymbols, h.lookup_close hsymbol hctx, (completed_close hn hclose).2]

lemma Tabled.congr (h : s.Tabled) (hsymbols : s'.ctx.symbols = s.ctx.symbols)
    (hpending : s'.frame.entry.pending? = s.frame.entry.pending?)
    (hcompleted : completed s'.frame s'.outer = completed s.frame s.outer) : s'.Tabled := by
  refine ⟨hsymbols ▸ h.keys, fun a ha => ?_⟩
  rw [hsymbols, hcompleted]
  exact h.last a (hpending ▸ ha)

lemma completed_opening (s : State) {e : Entry} (hchildren : e.children = []) :
    completed (s.opening e) (s.frame :: s.outer) = completed s.frame s.outer := by
  rw [completed, opening, hchildren, Entry.registrationsAll, List.append_nil]

lemma Tabled.descend (h : s.Tabled) {ctx : Context} {e : Entry}
    (hn : Nested (s.opening e) (s.frame :: s.outer)) (hchildren : e.children = [])
    (hkeys : (ctx.symbols.map Prod.fst).Nodup)
    (hlookup : ∀ a, e.pending? ≠ some a → ctx.symbols.lookup a = s.ctx.symbols.lookup a) :
    State.Tabled { ctx, frame := s.opening e, outer := s.frame :: s.outer } := by
  have hpending : s.frame.entry.pending? = none :=
    Entry.pending?_of_isBlock (isBlock_of_nested hn)
  refine ⟨hkeys, fun a ha => ?_⟩
  rw [hlookup a ha, completed_opening s hchildren]
  exact h.last a (by simp [hpending])

/-- A step keeps the table in accordance with the entries. -/
theorem Tabled.step {environment : Environment} (h : s.Tabled) (hw : s.WellFormed environment)
    (hn : Nested s.frame s.outer) (hn' : Nested s'.frame s'.outer) (hb : Builds s p)
    (hp : p = .running s') : s'.Tabled := by
  cases hb with
  | pass hquiet =>
    cases hp
    exact h.congr hquiet.symbols rfl rfl
  | @directive ctx site slips d hd hquiet =>
    cases hp
    have hshows := Directive.shows_apply s.ctx.environment site slips d s.frame.entry
    exact h.congr hquiet.symbols (Entry.pending?_congr hshows.header)
      (completed_congr hshows.children _)
  | @mainMenu ctx site slips d location hkind hd hquiet =>
    cases hp
    have hshows := Directive.shows_apply s.ctx.environment site slips d
      (s.frame.entry.setHead { s.frame.entry.head with location })
    refine h.congr hquiet.symbols ?_ (completed_congr ?_ _)
    · change Entry.pending? (Directive.apply _ _ _ _ _).1 = _
      rw [Entry.pending?_congr hshows.header, Entry.pending?, Entry.pending?, Entry.kind_setHead,
        Entry.head_setHead]
    · exact hshows.children.trans (Entry.children_setHead _ _)
  | openIf hcondition hquiet =>
    cases hp
    exact h.congr hquiet.symbols rfl rfl
  | closeIf hquiet =>
    cases hp
    exact h.congr hquiet.symbols rfl rfl
  | @config ctx isMenu symbol location hsymbol hquiet =>
    cases hp
    refine h.descend hn' rfl ?_ fun a ha => ?_
    · rw [Context.symbols_define]
      exact Context.nodup_setSymbol (hquiet.symbols ▸ h.keys) _
    · have hpending : (Entry.declared isMenu symbol location).pending? = some symbol := by
        cases isMenu <;> rfl
      have hcarries : ¬(Entry.declared isMenu symbol location).Carries a := by
        rw [hpending] at ha
        exact ha
      rw [Context.symbols_define, Context.lookup_setSymbol, Entry.last?_singleton,
        if_neg hcarries, hquiet.symbols]
      · rfl
      · rintro symbol' ⟨⟩
        exact hsymbol.nonempty
  | choice location hsymbol hquiet =>
    cases hp
    exact h.descend hn' rfl (hquiet.symbols ▸ h.keys) fun a _ => by rw [hquiet.symbols]
  | prompted hkind location site slips hprompt hquiet =>
    cases hp
    refine h.descend hn' ?_ (hquiet.symbols ▸ h.keys) fun a _ => by rw [hquiet.symbols]
    rcases hkind with rfl | rfl <;> rfl
  | close hquiet =>
    exact h.close hn (fun _ => (hw.frames s.frame List.mem_cons_self).entry.head.symbol_ne)
      hquiet.symbols hp

end State

theorem Reachable.tabled {fs : FileSystem} {settings : Settings} {s : State}
    (h : Reachable fs settings s) : s.Tabled := by
  induction h with
  | start hstart =>
    obtain ⟨bytes, -, rfl⟩ := Settings.start_eq_ok.1 hstart
    exact ⟨List.nodup_nil, fun a _ => rfl⟩
  | step hs hstep ih =>
    exact ih.step hs.wellFormed hs.nested (hs.step hstep).nested
      (State.step_builds hs.spelled hstep) rfl

namespace Tree

variable {fs : FileSystem} {settings : Settings} {tree : Tree}

/-- The entries of a tree in the order in which they are registered for the last time. -/
def registrations (tree : Tree) : List Entry :=
  Entry.registrationsAll tree.root.children

lemma lookup_of_parse (h : parse fs settings = .ok tree) :
    (tree.symbols.map Prod.fst).Nodup ∧
      ∀ a, tree.symbols.lookup a = Entry.last? a tree.registrations := by
  obtain ⟨last, ctx, hreachable, hstep, houter, hmenu, rfl⟩ := exists_last_close h
  have htabled := hreachable.tabled
  have hentry := (hreachable.wellFormed.frames last.frame List.mem_cons_self).entry
  generalize hp : Progress.finished (last.frame.entry.finish last.frame.scope) ctx = p at hstep
  cases State.step_builds hreachable.spelled hstep with
  | @close mid hquiet =>
    have hsymbols : (last.close mid).ctx.symbols = ctx.symbols := by
      rw [← hp]
      rfl
    refine ⟨?_, fun a => ?_⟩
    · change (ctx.symbols.map Prod.fst).Nodup
      rw [← hsymbols]
      exact State.nodup_close (hquiet.symbols ▸ htabled.keys)
    · change ctx.symbols.lookup a = _
      rw [← hsymbols, htabled.lookup_close (fun _ => hentry.head.symbol_ne) hquiet.symbols,
        Entry.registered_of_menu hmenu, houter, completed, List.append_nil, registrations,
        (root_ofRun hmenu _).2, Entry.children_finish]
  | _ => cases hp

lemma registered_of_carries (h : parse fs settings = .ok tree) (a : String) :
    ∀ e ∈ tree.nodes, e.Carries a → e.registered = [e] := by
  intro e he hcarries
  have hnames := (wellFormed_of_mem_nodes h e he).1.head.symbol
  rw [show e.head.symbol = some a from hcarries] at hnames
  refine Entry.registered_of_kind ?_ ?_ <;>
  · intro hkind
    rw [hkind] at hnames
    cases hnames

/-- The table has the symbols that entries carry, each once, and gives for each the entry that was
registered last. That is the last one in source order, if no choice with the symbol has a member
with it. -/
theorem symbols_of_parse (h : parse fs settings = .ok tree) :
    (tree.symbols.map Prod.fst).Nodup ∧
      (∀ a, a ∈ tree.symbols.map Prod.fst ↔ ∃ e ∈ tree.nodes, e.Carries a) ∧
        ∀ a, tree.symbols.lookup a = Entry.last? a tree.registrations ∧
          ((∀ e ∈ tree.nodes, e.Apart a) → tree.symbols.lookup a = Entry.last? a tree.nodes) := by
  obtain ⟨hkeys, hlookup⟩ := lookup_of_parse h
  have hregistered := registered_of_carries h
  refine ⟨hkeys, fun a => ?_, fun a => ⟨hlookup a, fun hapart => ?_⟩⟩
  · rw [mem_keys_iff, hlookup, Entry.isSome_last?_iff]
    constructor
    · rintro ⟨e, he, hcarries⟩
      exact ⟨e, ((Entry.mem_registrationsAll _).1 he).1, hcarries⟩
    · rintro ⟨e, he, hcarries⟩
      exact ⟨e, (Entry.mem_registrationsAll _).2 ⟨he, hregistered a e he hcarries⟩, hcarries⟩
  · rw [hlookup, Entry.last?, registrations, Entry.filter_registrationsAll _ (hregistered a) hapart]
    rfl

end Tree

/-- A config that is defined twice, and a choice with a member. -/
def redefinition : Snapshot where
  files := [
    (["K".toList],
      "config A\nchoice C\nconfig B\nconfig A\nendchoice\nconfig B\n".toUTF8.toList)]

theorem symbols_of_parse_redefinition : ∃ tree,
    Tree.parse redefinition.toFileSystem { root := "", file := "K" } = .ok tree ∧
      tree.symbols.map (fun p => (p.1, p.2.head.location.linenr)) =
          [("A", 4), ("B", 6), ("C", 2)] ∧
        ∀ a ∈ ["A", "B", "C"], tree.symbols.lookup a = Entry.last? a tree.nodes := by
  have hrun : (Tree.parseFor redefinition.toFileSystem { root := "", file := "K" } 40).any
      (fun tree =>
        tree.symbols.map (fun p => (p.1, p.2.head.location.linenr)) =
            [("A", 4), ("B", 6), ("C", 2)] ∧
          ∀ a ∈ ["A", "B", "C"], ∀ e ∈ tree.nodes, e.Apart a) = true := by decide +kernel
  obtain ⟨tree, htree, hnodes⟩ := (Option.any_eq_true _ _).1 hrun
  have hparse := Tree.parse_of_parseFor htree
  obtain ⟨hsymbols, hapart⟩ := of_decide_eq_true hnodes
  exact ⟨tree, hparse, hsymbols, fun a ha => ((Tree.symbols_of_parse hparse).2.2 a).2 (hapart a ha)⟩

/-- A choice and its only member have the same symbol. -/
def choiceOfItself : Snapshot where
  files := [(["K".toList], "choice A\nconfig A\nendchoice\n".toUTF8.toList)]

/-- The choice is registered after its member, which comes last in source order. -/
theorem symbols_ne_of_choice : ∃ tree,
    Tree.parse choiceOfItself.toFileSystem { root := "", file := "K" } = .ok tree ∧
      (tree.symbols.lookup "A").map Entry.kind = some .choice ∧
        (Entry.last? "A" tree.nodes).map Entry.kind = some .config := by
  have hrun : (Tree.parseFor choiceOfItself.toFileSystem { root := "", file := "K" } 40).any
      (fun tree =>
        (tree.symbols.lookup "A").map Entry.kind = some .choice ∧
          (Entry.last? "A" tree.nodes).map Entry.kind = some .config) = true := by decide +kernel
  obtain ⟨tree, htree, hnodes⟩ := (Option.any_eq_true _ _).1 hrun
  exact ⟨tree, Tree.parse_of_parseFor htree, of_decide_eq_true hnodes⟩

end Kconfig
