import Kconfig.Proofs.Outline
import Mathlib.Data.List.Induction

/-!
# Outlines from histories

The rows of the outline that a history leads to are read off the events alone: an entry depends on
the conditions of its own directives, which end with the entry, and on those of the `if` blocks that
are open in front of its header. At each state of a run, the frames together with the rest of the
history forecast the whole outline. No step changes the forecast.
-/

namespace Kconfig

lemma foldl_addNew_nil {α : Type} [DecidableEq α] (items : List α) :
    items.foldl addNew [] = items.eraseDups := by
  induction items using List.reverseRecOn with
  | nil => rfl
  | append_singleton items item ih =>
    rw [List.foldl_append, List.foldl_cons, List.foldl_nil, ih, List.eraseDups_append, addNew]
    by_cases h : item ∈ items
    · rw [if_pos (List.mem_eraseDups.2 h)]
      simp [List.removeAll, h]
    · rw [if_neg (mt List.mem_eraseDups.1 h)]
      simp [List.removeAll, h, List.eraseDups_cons]

namespace Entry

lemma header_foldl_addDepends (scope : List Condition) (e : Entry) :
    (scope.foldl addDepends e).header = e.header := by
  induction scope generalizing e with
  | nil => rfl
  | cons condition scope ih =>
    rw [List.foldl_cons, ih, header, header, kind_addDepends, head_addDepends]

lemma children_foldl_addDepends (scope : List Condition) (e : Entry) :
    (scope.foldl addDepends e).children = e.children := by
  induction scope generalizing e with
  | nil => rfl
  | cons condition scope ih => rw [List.foldl_cons, ih, children_addDepends]

lemma depends_foldl_addDepends (scope : List Condition) (e : Entry) :
    (scope.foldl addDepends e).head.depends = scope.foldl addNew e.head.depends := by
  induction scope generalizing e with
  | nil => rfl
  | cons condition scope ih => rw [List.foldl_cons, ih, head_addDepends, List.foldl_cons]

@[simp]
lemma header_finish (e : Entry) (scope : List Condition) : (e.finish scope).header = e.header := by
  rw [finish_eq, header_foldl_addDepends]

@[simp]
lemma kind_finish (e : Entry) (scope : List Condition) : (e.finish scope).kind = e.kind :=
  congrArg Header.kind (header_finish e scope)

@[simp]
lemma children_finish (e : Entry) (scope : List Condition) :
    (e.finish scope).children = e.children := by
  rw [finish_eq, children_foldl_addDepends]

end Entry

namespace Event

def header? : Event → Option Header
  | .header h => some h
  | _ => none

lemma filterMap_header (h : Header) (events : List Event) :
    (Event.header h :: events).filterMap header? = h :: events.filterMap header? :=
  rfl

/-- What an event does to the conditions of the open `if` blocks, the outermost first. -/
def conditions (open' : List Condition) : Event → List Condition
  | .openIf condition => open' ++ [condition]
  | .closeIf => open'.dropLast
  | _ => open'

end Event

/-- The directives of the entry that is the innermost but `n` in front of the events; they end with
the entry. -/
def ownDirectives : Nat → List Event → List Directive
  | _, [] => []
  | n, .header _ :: events => ownDirectives (n + 1) events
  | 0, .directive d :: events => d :: ownDirectives 0 events
  | n + 1, .directive _ :: events => ownDirectives (n + 1) events
  | n, .openIf _ :: events => ownDirectives n events
  | n, .closeIf :: events => ownDirectives n events
  | 0, .close _ :: _ => []
  | n + 1, .close _ :: events => ownDirectives n events

/-- The conditions of the `if` blocks that are open after the events. -/
def openConditions (events : List Event) : List Condition :=
  events.foldl Event.conditions []

/-- The condition of the last prompt that directives give an entry with a prompt under the condition
`before`. -/
def promptCondition (before : Option Condition) (directives : List Directive) : Option Condition :=
  match (directives.filterMap Directive.prompt?).getLast? with
  | some p => p.condition
  | none => before

/-- The conditions that directives give an entry: those of its `depends` directives, and that of the
last prompt. -/
def ownConditions (directives : List Directive) : List Condition :=
  directives.filterMap Directive.dependency? ++ (promptCondition none directives).toList

/-- What an entry depends on, given the events before its header and those after it, with
repetitions. -/
def dependencies (before after : List Event) : List Condition :=
  ownConditions (ownDirectives 0 after) ++ openConditions before

/-- What an entry depends on once it has taken the directives and is completed. -/
def Entry.dependsAfter (e : Entry) (directives : List Directive) (scope : List Condition) :
    List Condition :=
  (directives.filterMap Directive.dependency? ++
    (promptCondition (e.head.prompt.bind (·.condition)) directives).toList ++ scope).foldl addNew
      e.head.depends

lemma promptCondition_cons (before : Option Condition) (d : Directive)
    (directives : List Directive) :
    promptCondition before (d :: directives) =
      promptCondition (match d.prompt? with | some p => p.condition | none => before)
        directives := by
  unfold promptCondition
  rw [List.filterMap_cons]
  cases d.prompt? with
  | none => rfl
  | some p =>
    dsimp only
    rw [List.getLast?_cons]
    cases (directives.filterMap Directive.prompt?).getLast? <;> rfl

namespace Entry

lemma dependsAfter_nil (e : Entry) (scope : List Condition) :
    e.dependsAfter [] scope = (e.finish scope).head.depends := by
  rw [finish_eq, depends_foldl_addDepends]
  rfl

lemma dependsAfter_cons {d : Directive} {e e' : Entry} (h : d.Shows e e')
    (directives : List Directive) (scope : List Condition) :
    e.dependsAfter (d :: directives) scope = e'.dependsAfter directives scope := by
  unfold dependsAfter
  rw [h.depends, h.condition, ← List.foldl_append, List.filterMap_cons, promptCondition_cons]
  cases d.dependency? <;> rfl

lemma dependsAfter_header (header : Header) (directives : List Directive)
    (scope : List Condition) :
    header.entry.dependsAfter directives scope = (ownConditions directives ++ scope).eraseDups := by
  unfold dependsAfter
  rw [Header.head_entry]
  exact foldl_addNew_nil _

end Entry

/-- The rows of the entries that begin in the events. The conditions `scope` are open before them,
as are the blocks with the numbers `blocks`, the innermost first; `i` is the first free number. -/
def eventRows (scope : List Condition) (blocks : List Nat) (i : Nat) : List Event → List Outline.Row
  | [] => []
  | .header h :: events =>
    ⟨h, (ownConditions (ownDirectives 0 events) ++ scope).eraseDups, blocks.head?⟩ ::
      eventRows scope (if h.kind.isBlock then i :: blocks else blocks) (i + 1) events
  | .directive _ :: events => eventRows scope blocks i events
  | .openIf condition :: events => eventRows (scope ++ [condition]) blocks i events
  | .closeIf :: events => eventRows scope.dropLast blocks i events
  | .close kind :: events =>
    eventRows scope (if kind.isBlock then blocks.tail else blocks) i events

/-- What an event does to the numbers of the open blocks, the innermost first, and to the first free
number. -/
def Event.blocks (state : List Nat × Nat) : Event → List Nat × Nat
  | .header h => (if h.kind.isBlock then state.2 :: state.1 else state.1, state.2 + 1)
  | .close kind => (if kind.isBlock then state.1.tail else state.1, state.2)
  | _ => state

/-- The numbers of the menus and choices that are open after the events, the innermost first.
Headers are numbered in the order of the events. -/
def openBlocks (events : List Event) : List Nat :=
  (events.foldl Event.blocks ([], 0)).1

lemma getElem?_eventRows (scope : List Condition) (blocks : List Nat) (i : Nat)
    (before : List Event) (h : Header) (after : List Event) :
    (eventRows scope blocks i (before ++ .header h :: after))[
        (before.filterMap Event.header?).length]? =
      some ⟨h,
        (ownConditions (ownDirectives 0 after) ++ before.foldl Event.conditions scope).eraseDups,
        (before.foldl Event.blocks (blocks, i)).1.head?⟩ := by
  induction before generalizing scope blocks i with
  | nil => rfl
  | cons event before ih =>
    cases event with
    | header h' =>
      rw [List.cons_append, eventRows, Event.filterMap_header, List.length_cons,
        List.getElem?_cons_succ, ih]
      rfl
    | _ =>
      rw [List.cons_append, eventRows, List.filterMap_cons_none rfl, ih]
      rfl

lemma map_header_eventRows (scope : List Condition) (blocks : List Nat) (i : Nat)
    (events : List Event) :
    (eventRows scope blocks i events).map (·.header) = events.filterMap Event.header? := by
  induction events generalizing scope blocks i with
  | nil => rfl
  | cons event events ih =>
    cases event with
    | header h => rw [eventRows, Event.filterMap_header, List.map_cons, ih]
    | _ => rw [eventRows, List.filterMap_cons_none rfl, ih]

lemma exists_header {events : List Event} {k : Nat} {h : Header}
    (hk : (events.filterMap Event.header?)[k]? = some h) :
    ∃ before after, events = before ++ .header h :: after ∧
      (before.filterMap Event.header?).length = k := by
  induction events generalizing k with
  | nil => cases hk
  | cons event events ih =>
    cases event with
    | header h' =>
      rw [Event.filterMap_header] at hk
      cases k with
      | zero =>
        cases hk
        exact ⟨[], events, rfl, rfl⟩
      | succ k =>
        obtain ⟨before, after, rfl, hbefore⟩ := ih hk
        refine ⟨.header h' :: before, after, rfl, ?_⟩
        rw [Event.filterMap_header, List.length_cons, hbefore]
    | _ =>
      rw [List.filterMap_cons_none rfl] at hk
      obtain ⟨before, after, rfl, hbefore⟩ := ih hk
      refine ⟨_ :: before, after, rfl, ?_⟩
      rw [List.filterMap_cons_none rfl, hbefore]

/-- The number of rows that a frame and those around it have. -/
def rowCount (f : Frame) : List Frame → Nat
  | [] => (Entry.walkAll f.entry.children).length
  | g :: outer => rowCount g outer + 1 + (Entry.walkAll f.entry.children).length

def number? : List Frame → Option Nat
  | [] => none
  | g :: outer => some (rowCount g outer)

/-- The numbers of a frame and those around it as far as they are blocks. -/
def blockNumbers (f : Frame) : List Frame → List Nat
  | [] => []
  | g :: outer =>
    if f.entry.kind.isBlock then rowCount g outer :: blockNumbers g outer else blockNumbers g outer

/-- The rows of the entries that have begun before the events. The frame `f` is the innermost but
`n`. -/
def frameRows (events : List Event) (n : Nat) (f : Frame) : List Frame → List Outline.Row
  | [] => Entry.rowsAll none 0 f.entry.children
  | g :: outer =>
    frameRows events (n + 1) g outer ++
      ⟨f.entry.header, f.entry.dependsAfter (ownDirectives n events) f.scope, number? outer⟩ ::
        Entry.rowsAll (some (rowCount g outer)) (rowCount g outer + 1) f.entry.children

/-- What the outermost entry depends on in the end. -/
def rootDepends (events : List Event) (n : Nat) (f : Frame) : List Frame → List Condition
  | [] => f.entry.dependsAfter (ownDirectives n events) f.scope
  | g :: outer => rootDepends events (n + 1) g outer

/-- The conditions of the root and the outline that a state and the events after it lead to. -/
def State.forecast (s : State) (events : List Event) : List Condition × List Outline.Row :=
  (rootDepends events 0 s.frame s.outer,
    frameRows events 0 s.frame s.outer ++
      eventRows s.ctx.scope (blockNumbers s.frame s.outer) (rowCount s.frame s.outer) events)

/-- Each frame can stand in the next, and the last is the top-level menu. -/
def Nested (f : Frame) : List Frame → Prop
  | [] => f.isTop = true ∧ f.entry.kind = .menu
  | g :: outer => f.isTop = false ∧ g.entry.kind.holds f.entry.kind = true ∧ Nested g outer

lemma rowCount_congr {f f' : Frame} (h : f'.entry.children = f.entry.children)
    (outer : List Frame) : rowCount f' outer = rowCount f outer := by
  cases outer <;> rw [rowCount, rowCount, h]

lemma blockNumbers_congr {f f' : Frame} (h : f'.entry.kind = f.entry.kind) (outer : List Frame) :
    blockNumbers f' outer = blockNumbers f outer := by
  cases outer <;> rw [blockNumbers, blockNumbers]
  rw [h]

lemma Nested.outer_eq_nil {f : Frame} {outer : List Frame} (hn : Nested f outer)
    (htop : f.isTop = true) : outer = [] := by
  cases outer with
  | nil => rfl
  | cons g outer =>
    rw [hn.1] at htop
    cases htop

lemma Nested.congr {f f' : Frame} (htop : f'.isTop = f.isTop) (h : f'.entry.kind = f.entry.kind)
    {outer : List Frame} (hn : Nested f outer) : Nested f' outer := by
  cases outer with
  | nil => exact ⟨htop.trans hn.1, h.trans hn.2⟩
  | cons g outer => exact ⟨htop.trans hn.1, h ▸ hn.2.1, hn.2.2⟩

lemma frameRows_shift {events events' : List Event} {m n : Nat} (f : Frame) (outer : List Frame)
    (h : ∀ k, ownDirectives (m + k) events = ownDirectives (n + k) events') :
    frameRows events m f outer = frameRows events' n f outer := by
  induction outer generalizing f m n with
  | nil => rfl
  | cons g outer ih =>
    have htail : ∀ k, ownDirectives (m + 1 + k) events = ownDirectives (n + 1 + k) events' := by
      intro k
      rw [Nat.add_assoc, h (1 + k), Nat.add_assoc]
    rw [frameRows, frameRows, ih g htail]
    rw [show ownDirectives m events = ownDirectives n events' from h 0]

lemma rootDepends_shift {events events' : List Event} {m n : Nat} (f : Frame) (outer : List Frame)
    (h : ∀ k, ownDirectives (m + k) events = ownDirectives (n + k) events') :
    rootDepends events m f outer = rootDepends events' n f outer := by
  induction outer generalizing f m n with
  | nil =>
    rw [rootDepends, rootDepends]
    rw [show ownDirectives m events = ownDirectives n events' from h 0]
  | cons g outer ih =>
    apply ih
    intro k
    rw [Nat.add_assoc, h (1 + k), Nat.add_assoc]

lemma ownDirectives_inner (d : Directive) (events : List Event) (k : Nat) :
    ownDirectives (1 + k) (.directive d :: events) = ownDirectives (1 + k) events := by
  rw [Nat.add_comm, ownDirectives]

lemma frameRows_directive {d : Directive} {f f' : Frame} (hd : d.Shows f.entry f'.entry)
    (hscope : f'.scope = f.scope) (events : List Event) (outer : List Frame) :
    frameRows (.directive d :: events) 0 f outer = frameRows events 0 f' outer := by
  cases outer with
  | nil => rw [frameRows, frameRows, hd.children]
  | cons g outer =>
    have hshift := frameRows_shift g outer (ownDirectives_inner d events)
    rw [frameRows, frameRows, hshift, hd.header, hd.children, hscope, ownDirectives,
      Entry.dependsAfter_cons hd]

lemma rootDepends_directive {d : Directive} {f f' : Frame} (hd : d.Shows f.entry f'.entry)
    (hscope : f'.scope = f.scope) (events : List Event) (outer : List Frame) :
    rootDepends (.directive d :: events) 0 f outer = rootDepends events 0 f' outer := by
  cases outer with
  | nil => rw [rootDepends, rootDepends, ownDirectives, Entry.dependsAfter_cons hd, hscope]
  | cons g outer => exact rootDepends_shift g outer (ownDirectives_inner d events)

lemma Directive.Shows.kind {d : Directive} {a b : Entry} (h : d.Shows a b) : b.kind = a.kind :=
  congrArg Header.kind h.header

namespace State

variable {s s' : State} {events : List Event}

lemma forecast_directive {d : Directive} (hd : d.Shows s.frame.entry s'.frame.entry)
    (hframe : s'.frame.scope = s.frame.scope) (houter : s'.outer = s.outer)
    (hscope : s'.ctx.scope = s.ctx.scope) :
    s.forecast (.directive d :: events) = s'.forecast events := by
  unfold forecast
  rw [houter, hscope, rootDepends_directive hd hframe, frameRows_directive hd hframe, eventRows,
    rowCount_congr hd.children, blockNumbers_congr hd.kind]

lemma forecast_header {header : Header} (hentry : s'.frame.entry = header.entry)
    (hholds : s.frame.entry.kind.holds header.kind = true)
    (hframe : s'.frame.scope = s.ctx.scope) (houter : s'.outer = s.frame :: s.outer)
    (hscope : s'.ctx.scope = s.ctx.scope) :
    s.forecast (.header header :: events) = s'.forecast events := by
  have hshift : ∀ k, ownDirectives (0 + k) (.header header :: events) =
      ownDirectives (1 + k) events := by
    intro k
    rw [ownDirectives, Nat.add_right_comm]
  have hparent : (blockNumbers s.frame s.outer).head? = number? s.outer := by
    cases houter : s.outer with
    | nil => rfl
    | cons g outer =>
      rw [blockNumbers, if_pos]
      · rfl
      · revert hholds
        cases s.frame.entry.kind <;> first | exact fun _ => rfl | exact fun h => h
  unfold forecast
  rw [houter, hscope, rootDepends, rootDepends_shift _ _ hshift, frameRows,
    frameRows_shift _ _ hshift, hentry, Header.header_entry, Entry.dependsAfter_header, hframe,
    Header.children_entry, Entry.rowsAll, eventRows, hparent, rowCount, hentry,
    Header.children_entry, Entry.walkAll, List.append_assoc, blockNumbers, hentry,
    Header.kind_entry]
  rfl

lemma close_eq_running {ctx : Context} (h : s.close ctx = .running s') :
    ∃ g outer, s.outer = g :: outer ∧ s'.outer = outer ∧ s'.ctx.scope = ctx.scope ∧
      s'.frame = g.withEntry (g.entry.addChild (s.frame.entry.finish s.frame.scope)) := by
  unfold close at h
  dsimp only at h
  split at h
  · cases h
  · rename_i g outer houter
    cases h
    refine ⟨g, outer, houter, rfl, ?_, rfl⟩
    dsimp only
    split
    · exact Context.scope_setSymbol _ _
    · exact Context.scope_define _ _
    · rfl

lemma close_eq_finished {ctx ctx' : Context} {e : Entry} (h : s.close ctx = .finished e ctx') :
    s.outer = [] ∧ e = s.frame.entry.finish s.frame.scope := by
  unfold close at h
  dsimp only at h
  split at h
  · rename_i houter
    cases h
    exact ⟨houter, rfl⟩
  · cases h

end State

lemma Nested.withEntry {f : Frame} {e : Entry} {outer : List Frame} (hn : Nested f outer)
    (h : e.kind = f.entry.kind) : Nested (f.withEntry e) outer := by
  refine Nested.congr ?_ h hn
  rfl

lemma frameRows_addChild {g : Frame} {child : Entry}
    (h : g.entry.kind.holds child.kind = true) (events : List Event) (n : Nat)
    (outer : List Frame) :
    frameRows events n (g.withEntry (g.entry.addChild child)) outer =
      frameRows events n g outer ++ child.rows (number? outer) (rowCount g outer) := by
  have hchildren : (g.withEntry (g.entry.addChild child)).entry.children =
      g.entry.children ++ [child] := Entry.children_addChild h
  have hheader : (g.withEntry (g.entry.addChild child)).entry.header = g.entry.header := by
    rw [Frame.withEntry, Entry.header, Entry.header, Entry.kind_addChild, Entry.head_addChild]
  have hdepends : ∀ ds scope, (g.withEntry (g.entry.addChild child)).entry.dependsAfter ds scope =
      g.entry.dependsAfter ds scope := by
    intro ds scope
    rw [Frame.withEntry, Entry.dependsAfter, Entry.dependsAfter, Entry.head_addChild]
  cases outer with
  | nil =>
    rw [frameRows, frameRows, hchildren, Entry.rowsAll_append, Entry.rowsAll, Entry.rowsAll,
      List.append_nil, number?, rowCount, Nat.zero_add]
  | cons k outer =>
    rw [frameRows, frameRows, hchildren, hheader, hdepends, Entry.rowsAll_append, Entry.rowsAll,
      Entry.rowsAll, List.append_nil, number?, rowCount, List.append_assoc, List.cons_append]
    rfl

lemma rowCount_addChild {g : Frame} {child : Entry}
    (h : g.entry.kind.holds child.kind = true) (outer : List Frame) :
    rowCount (g.withEntry (g.entry.addChild child)) outer =
      rowCount g outer + 1 + (Entry.walkAll child.children).length := by
  have hchildren : (g.withEntry (g.entry.addChild child)).entry.children =
      g.entry.children ++ [child] := Entry.children_addChild h
  cases outer <;>
  · rw [rowCount, rowCount, hchildren, Entry.walkAll_append, List.length_append, Entry.walkAll,
      Entry.walkAll, List.append_nil, Entry.walk_eq, List.length_cons]
    omega

lemma rootDepends_addChild {g : Frame} (child : Entry) (events : List Event) (n : Nat)
    (outer : List Frame) :
    rootDepends events n (g.withEntry (g.entry.addChild child)) outer =
      rootDepends events n g outer := by
  cases outer with
  | nil =>
    rw [rootDepends, rootDepends, Entry.dependsAfter, Entry.dependsAfter]
    dsimp only [Frame.withEntry]
    rw [Entry.head_addChild]
  | cons k outer => rfl

namespace State

variable {s s' : State} {events : List Event}

lemma forecast_close {ctx : Context} (hnested : Nested s.frame s.outer)
    (hscope : ctx.scope = s.ctx.scope) (h : s.close ctx = .running s') :
    s.forecast (.close s.frame.entry.kind :: events) = s'.forecast events := by
  obtain ⟨g, outer, houter, houter', hscope', hframe⟩ := close_eq_running h
  rw [houter] at hnested
  have hholds : g.entry.kind.holds (s.frame.entry.finish s.frame.scope).kind = true := by
    rw [Entry.kind_finish]
    exact hnested.2.1
  have hshift : ∀ k, ownDirectives (1 + k) (.close s.frame.entry.kind :: events) =
      ownDirectives (0 + k) events := by
    intro k
    rw [Nat.add_comm, ownDirectives, Nat.zero_add]
  have hblocks : (if s.frame.entry.kind.isBlock then (blockNumbers s.frame (g :: outer)).tail
      else blockNumbers s.frame (g :: outer)) = blockNumbers g outer := by
    rw [blockNumbers]
    split <;> rfl
  have hkind : (g.withEntry (g.entry.addChild (s.frame.entry.finish s.frame.scope))).entry.kind =
      g.entry.kind := Entry.kind_addChild _ _
  unfold forecast
  rw [houter, houter', hframe, hscope', hscope, rootDepends, rootDepends_addChild,
    rootDepends_shift _ _ hshift, frameRows, frameRows_addChild hholds, frameRows_shift _ _ hshift,
    rowCount_addChild hholds, blockNumbers_congr hkind, Entry.rows_eq, eventRows, hblocks, rowCount,
    Entry.children_finish, Entry.row, Entry.header_finish, ownDirectives, Entry.dependsAfter_nil]

lemma effect_nested {p : Progress} (h : Effect s events p) (hn : Nested s.frame s.outer)
    (hp : p = .running s') : Nested s'.frame s'.outer := by
  cases h with
  | pass hscope => cases hp; exact hn
  | openIf condition hscope => cases hp; exact hn
  | closeIf hscope => cases hp; exact hn
  | directive environment site slips d hscope =>
    cases hp
    exact hn.withEntry (Directive.shows_apply environment site slips d _).kind
  | mainMenu environment site slips d location htop hscope =>
    cases hp
    refine hn.withEntry ?_
    rw [(Directive.shows_apply environment site slips d _).kind, Entry.kind_setHead]
  | header header hholds hentry hframe htop hscope =>
    cases hp
    refine ⟨htop, ?_, hn⟩
    rw [hentry, Header.kind_entry]
    exact hholds
  | headerWith header environment site slips d hholds hentry hframe htop hscope =>
    cases hp
    refine ⟨htop, ?_, hn⟩
    rw [hentry, (Directive.shows_apply environment site slips d _).kind, Header.kind_entry]
    exact hholds
  | close hscope =>
    obtain ⟨g, outer, houter, houter', -, hframe⟩ := close_eq_running hp
    rw [houter] at hn
    rw [houter', hframe]
    exact hn.2.2.withEntry (Entry.kind_addChild _ _)

lemma forecast_setLocation (houter : s.outer = []) (location : Location) (events : List Event) :
    s.forecast events =
      State.forecast
        { s with
          frame := s.frame.withEntry
            (s.frame.entry.setHead { s.frame.entry.head with location }) } events := by
  unfold forecast
  rw [houter, rootDepends, rootDepends, frameRows, frameRows, rowCount, rowCount, blockNumbers,
    blockNumbers]
  dsimp only [Frame.withEntry]
  rw [Entry.children_setHead, Entry.dependsAfter, Entry.dependsAfter, Entry.head_setHead]

lemma effect_forecast {p : Progress} {events' : List Event} (h : Effect s events p)
    (hn : Nested s.frame s.outer) (hp : p = .running s') :
    s.forecast (events ++ events') = s'.forecast events' := by
  cases h with
  | pass hscope =>
    cases hp
    unfold forecast
    rw [List.nil_append, hscope]
  | openIf condition hscope =>
    cases hp
    have hshift : ∀ k, ownDirectives (0 + k) (.openIf condition :: events') =
        ownDirectives (0 + k) events' := by
      intro k
      rw [ownDirectives]
    unfold forecast
    rw [List.singleton_append, rootDepends_shift _ _ hshift, frameRows_shift _ _ hshift, eventRows,
      hscope]
  | closeIf hscope =>
    cases hp
    have hshift : ∀ k, ownDirectives (0 + k) (.closeIf :: events') =
        ownDirectives (0 + k) events' := by
      intro k
      rw [ownDirectives]
    unfold forecast
    rw [List.singleton_append, rootDepends_shift _ _ hshift, frameRows_shift _ _ hshift, eventRows,
      hscope]
  | directive environment site slips d hscope =>
    cases hp
    exact forecast_directive (Directive.shows_apply environment site slips d _) rfl rfl hscope
  | mainMenu environment site slips d location htop hscope =>
    cases hp
    rw [forecast_setLocation (hn.outer_eq_nil htop) location]
    exact forecast_directive (Directive.shows_apply environment site slips d _) rfl rfl hscope
  | header header hholds hentry hframe htop hscope =>
    cases hp
    exact forecast_header hentry hholds hframe rfl hscope
  | @headerWith ctx frame header environment site slips d hholds hentry hframe htop hscope =>
    cases hp
    let opened : State :=
      { ctx := s.ctx, frame := { frame with entry := header.entry }, outer := s.frame :: s.outer }
    have hheader : s.forecast (.header header :: .directive d :: events') =
        opened.forecast (.directive d :: events') := forecast_header rfl hholds hframe rfl rfl
    rw [List.cons_append, List.cons_append, List.nil_append, hheader]
    refine forecast_directive ?_ rfl rfl hscope
    rw [hentry]
    exact Directive.shows_apply environment site slips d _
  | close hscope => exact forecast_close hn hscope hp

lemma effect_finished {p : Progress} {e : Entry} {ctx : Context} (h : Effect s events p)
    (hp : p = .finished e ctx) :
    events = [.close s.frame.entry.kind] ∧ s.outer = [] ∧
      e = s.frame.entry.finish s.frame.scope := by
  cases h with
  | close hscope => exact ⟨rfl, close_eq_finished hp⟩
  | _ => cases hp

lemma forecast_finished {e : Entry} {ctx : Context} (h : Effect s events (.finished e ctx)) :
    s.forecast events = (e.head.depends, Entry.rowsAll none 0 e.children) := by
  obtain ⟨rfl, houter, rfl⟩ := effect_finished h rfl
  unfold forecast
  rw [houter, rootDepends, frameRows, ownDirectives, Entry.dependsAfter_nil, Entry.children_finish,
    eventRows, eventRows, List.append_nil]

theorem run_forecast {fs : FileSystem} {e : Entry} {ctx : Context} (hn : Nested s.frame s.outer)
    (h : s.run fs = .ok (e, ctx)) :
    e.kind = .menu ∧
      s.forecast (s.history fs) = (e.head.depends, Entry.rowsAll none 0 e.children) := by
  -- The induction is along the run: no step changes the forecast, and the last one fulfils it.
  revert hn h
  induction s using step_induction fs with
  | next s ih =>
    intro hn h
    cases hstep : s.step fs with
    | error fault =>
      rw [run_of_error hstep] at h
      cases h
    | ok p =>
      have heffect := step_effect hstep
      cases p with
      | finished e' ctx' =>
        rw [run_of_finished hstep] at h
        cases h
        rw [history_of_finished hstep]
        refine ⟨?_, forecast_finished heffect⟩
        obtain ⟨-, houter, rfl⟩ := effect_finished heffect rfl
        rw [houter] at hn
        rw [Entry.kind_finish]
        exact hn.2
      | running s' =>
        rw [run_of_running hstep] at h
        rw [history_of_running hstep, effect_forecast heffect hn rfl]
        exact ih s' hstep (effect_nested heffect hn rfl) h

end State

lemma Tree.root_ofRun {e : Entry} (h : e.kind = .menu) (ctx : Context) :
    (ofRun e ctx).root.head = e.head ∧ (ofRun e ctx).root.children = e.children := by
  obtain ⟨head, visibleIf, children, rfl⟩ := Entry.eq_menu_of_kind h
  exact ⟨rfl, rfl⟩

lemma Settings.nested_opened (settings : Settings) (bytes : List UInt8) :
    Nested (settings.opened bytes).frame (settings.opened bytes).outer :=
  ⟨rfl, rfl⟩

lemma Settings.forecast_opened (settings : Settings) (bytes : List UInt8) (events : List Event) :
    (settings.opened bytes).forecast events =
      ((dependencies [] events).eraseDups, eventRows [] [] 0 events) := by
  apply Prod.ext
  · exact Entry.dependsAfter_header ⟨.menu, none, ⟨settings.file, 1⟩⟩ _ _
  · rfl

namespace Tree

variable {fs : FileSystem} {settings : Settings} {tree : Tree}

/-- The conditions of the root and the outline of a tree are those of the history of its run. -/
theorem forecast_of_parse (h : parse fs settings = .ok tree) :
    tree.root.head.depends = (dependencies [] (settings.history fs)).eraseDups ∧
      tree.outline = eventRows [] [] 0 (settings.history fs) := by
  obtain ⟨s, e, ctx, hstart, hrun, rfl⟩ := parse_eq_ok.1 h
  obtain ⟨bytes, -, rfl⟩ := Settings.start_eq_ok.1 hstart
  obtain ⟨hkind, hforecast⟩ := State.run_forecast (settings.nested_opened bytes) hrun
  obtain ⟨hhead, hchildren⟩ := root_ofRun hkind ctx
  have hhistory : settings.history fs = (settings.opened bytes).history fs := by
    rw [Settings.history, hstart]
  rw [Settings.forecast_opened, Prod.mk.injEq] at hforecast
  rw [outline, hhead, hchildren, hhistory]
  exact ⟨hforecast.1.symm, hforecast.2.symm⟩

lemma map_nodes_of_parse (h : parse fs settings = .ok tree) :
    tree.nodes.map (fun e => (e.header, e.head.depends)) =
      (eventRows [] [] 0 (settings.history fs)).map fun r => (r.header, r.depends) := by
  rw [← (forecast_of_parse h).2, outline, Entry.map_rowsAll, nodes]

lemma map_header_of_parse (h : parse fs settings = .ok tree) :
    tree.nodes.map Entry.header = (settings.history fs).filterMap Event.header? := by
  have hrows := congrArg (List.map Prod.fst) (map_nodes_of_parse h)
  rw [List.map_map, List.map_map] at hrows
  rw [← map_header_eventRows [] [] 0]
  exact hrows

end Tree

end Kconfig
