import Kconfig.FileSystem.Snapshot
import Kconfig.Proofs.Restoration

/-!
# Nesting of `if` blocks and bodies

The bodies of menus and choices and the `if` blocks are followed through the history of a run, each
by the number of the event that opens it. At the end of a body the parser compares the conditions of
the open `if` blocks with those at its beginning, and no more than the conditions. So an `endif` in
a body closes an `if` of that body, or an outer one that another `if` with the same condition
replaces before the body ends.
-/

namespace Kconfig

open Context

/-- An open `if` block: the number of the event that has opened it, and its condition. -/
structure IfBlock where
  number : Nat
  condition : Condition
  deriving Repr, DecidableEq

/-- The body of an open menu or choice: the number of the event that has opened it, and the `if`
blocks that were open then. -/
structure Body where
  number : Nat
  around : List IfBlock
  deriving Repr, DecidableEq

/-- What is open after some events. -/
structure Nesting where
  /-- The number of the events. -/
  count : Nat := 0
  /-- The open `if` blocks, the outermost first. -/
  ifs : List IfBlock := []
  /-- The open bodies, the innermost first; that of the top-level menu has no header and is left
  out. -/
  bodies : List Body := []
  deriving Repr, DecidableEq

namespace Nesting

def take (n : Nesting) (event : Event) : Nesting :=
  { count := n.count + 1
    ifs :=
      match event with
      | .openIf condition => n.ifs ++ [⟨n.count, condition⟩]
      | .closeIf => n.ifs.dropLast
      | _ => n.ifs
    bodies :=
      match event with
      | .header h => if h.kind.isBlock then ⟨n.count, n.ifs⟩ :: n.bodies else n.bodies
      | .close kind => if kind.isBlock then n.bodies.tail else n.bodies
      | _ => n.bodies }

def conditions (n : Nesting) : List Condition :=
  n.ifs.map (·.condition)

end Nesting

def Body.conditions (body : Body) : List Condition :=
  body.around.map (·.condition)

/-- What is open after the events of a run. -/
def Nesting.after (events : List Event) : Nesting :=
  events.foldl Nesting.take {}

lemma Nesting.after_concat (events : List Event) (event : Event) :
    Nesting.after (events ++ [event]) = (Nesting.after events).take event := by
  rw [Nesting.after, List.foldl_append]
  rfl

/-- An `endif` needs an open `if`, and a body ends under conditions that read as those at its
beginning. -/
def Nesting.Allows (n : Nesting) : Event → Prop
  | .closeIf => n.ifs ≠ []
  | .close kind => kind.isBlock = true → ∀ body ∈ n.bodies.head?, n.conditions = body.conditions
  | _ => True

/-- Every event is allowed, and no body is open in the end. -/
def Nesting.Kept : Nesting → List Event → Prop
  | n, [] => n.bodies = []
  | n, event :: events => n.Allows event ∧ (n.take event).Kept events

/-- The conditions at the beginning of the blocks among a frame and those around it, without the
top-level menu. -/
def blockScopes (f : Frame) : List Frame → List (List Condition)
  | [] => []
  | g :: outer =>
    if f.entry.kind.isBlock then f.scope :: blockScopes g outer else blockScopes g outer

lemma blockScopes_withEntry {f : Frame} {e : Entry} (hkind : e.kind = f.entry.kind)
    (outer : List Frame) : blockScopes (f.withEntry e) outer = blockScopes f outer := by
  cases outer with
  | nil => rfl
  | cons g outer =>
    rw [blockScopes, blockScopes]
    unfold Frame.withEntry
    rw [hkind]

/-- The state and the nesting have the same conditions. -/
structure State.Matches (s : State) (n : Nesting) : Prop where
  ifs : n.conditions = s.ctx.scope
  bodies : n.bodies.map Body.conditions = blockScopes s.frame s.outer

namespace State

variable {fs : FileSystem} {s s' : State} {n : Nesting} {ctx : Context} {events : List Event}
  {p : Progress}

lemma ends_of_close (hmotion : Motion s p) (hclose : p = s.close ctx) :
    ∃ ctx', Remains s.ctx ctx' ∧ s.Ends ctx' := by
  have hshorter : ∀ s' : State, p = .running s' → s'.outer.length < s.outer.length := by
    intro s' hp
    obtain ⟨g, outer, houter, houter', -⟩ := close_eq_running (hclose.symm.trans hp)
    rw [houter, houter', List.length_cons]
    exact Nat.lt_succ_self _
  cases hmotion with
  | close hctx hends => exact ⟨_, hctx, hends⟩
  | call hholds hopened =>
    have h := hshorter _ rfl
    rw [List.length_cons] at h
    omega
  | _ => exact absurd (hshorter _ rfl) (lt_irrefl _)

lemma scope_of_close (hstep : s.step fs = .ok p) (hclose : p = s.close ctx)
    (hblock : s.frame.entry.kind.isBlock = true) (htop : s.frame.isTop = false) :
    s.ctx.scope = s.frame.scope := by
  obtain ⟨ctx', hctx, hends⟩ := ends_of_close (step_motion hstep) hclose
  cases hends with
  | leaf hleaf hpending hlex =>
    rw [hblock] at hleaf
    cases hleaf
  | block hahead hword hkeyword htop' hdepth hscope => rw [← hctx.scope, hscope]
  | top htop' hdepth hscope =>
    rw [htop] at htop'
    cases htop'

lemma Matches.congr (h : s.Matches n) {n' : Nesting} (hifs : n'.conditions = s'.ctx.scope)
    (hbodies : n'.bodies = n.bodies)
    (hframes : blockScopes s'.frame s'.outer = blockScopes s.frame s.outer) : s'.Matches n' :=
  ⟨hifs, by rw [hbodies, h.bodies, hframes]⟩

lemma Matches.header (h : s.Matches n) {header : Header} {frame : Frame}
    (hkind : frame.entry.kind = header.kind) (hframe : frame.scope = s.ctx.scope)
    (hscope : ctx.scope = s.ctx.scope) :
    State.Matches { ctx, frame, outer := s.frame :: s.outer } (n.take (.header header)) := by
  refine ⟨h.ifs.trans hscope.symm, ?_⟩
  change (if header.kind.isBlock then Body.mk n.count n.ifs :: n.bodies else n.bodies).map
    Body.conditions = blockScopes frame (s.frame :: s.outer)
  rw [blockScopes, hkind]
  cases header.kind.isBlock with
  | false => exact h.bodies
  | true =>
    have hifs : (Body.mk n.count n.ifs).conditions = frame.scope := h.ifs.trans hframe.symm
    rw [if_pos rfl, if_pos rfl, List.map_cons, hifs, h.bodies]

lemma Matches.step (h : s.Matches n) (heffect : Effect s events (.running s')) :
    s'.Matches (events.foldl Nesting.take n) := by
  generalize hp : Progress.running s' = p at heffect
  cases heffect with
  | pass hscope =>
    cases hp
    exact ⟨h.ifs.trans hscope.symm, h.bodies⟩
  | directive environment site slips d hscope =>
    cases hp
    exact h.congr (h.ifs.trans hscope.symm) rfl
      (blockScopes_withEntry (Directive.shows_apply environment site slips d _).kind _)
  | mainMenu environment site slips d location htop hscope =>
    cases hp
    refine h.congr (h.ifs.trans hscope.symm) rfl (blockScopes_withEntry ?_ _)
    exact (Directive.shows_apply environment site slips d _).kind.trans (Entry.kind_setHead _ _)
  | openIf condition hscope =>
    cases hp
    refine h.congr ?_ rfl rfl
    change (n.ifs ++ [IfBlock.mk n.count condition]).map IfBlock.condition = _
    rw [List.map_append, ← Nesting.conditions, h.ifs]
    exact hscope.symm
  | closeIf hscope =>
    cases hp
    refine h.congr ?_ rfl rfl
    change n.ifs.dropLast.map IfBlock.condition = _
    rw [List.map_dropLast, ← Nesting.conditions, h.ifs]
    exact hscope.symm
  | header header hholds hentry hframe htop hscope =>
    cases hp
    refine h.header ?_ hframe hscope
    rw [hentry, Header.kind_entry]
  | @headerWith _ frame header environment site slips d hholds hentry hframe htop hscope =>
    cases hp
    have hkind := (Directive.shows_apply environment site slips d header.entry).kind
    have hentry' : frame.entry.kind = header.kind := hentry ▸ hkind.trans header.kind_entry
    have hbegun := h.header hentry' hframe hscope
    exact hbegun.congr hbegun.ifs rfl rfl
  | close hscope =>
    obtain ⟨g, outer, houter, houter', hscope', hframe⟩ := close_eq_running hp.symm
    have hbodies := h.bodies
    rw [houter, blockScopes] at hbodies
    refine ⟨h.ifs.trans (hscope.symm.trans hscope'.symm), ?_⟩
    rw [hframe, houter', blockScopes_withEntry (Entry.kind_addChild _ _)]
    change (if s.frame.entry.kind.isBlock then n.bodies.tail else n.bodies).map _ = _
    cases hblock : s.frame.entry.kind.isBlock with
    | false =>
      rw [hblock] at hbodies
      exact hbodies
    | true =>
      rw [hblock] at hbodies
      rw [if_pos rfl, List.map_tail, hbodies]
      rfl

lemma eq_closeIf_of_mem {word : String} {keyword : BlockKeyword}
    (h : .closeIf ∈ ctx.keywordEvents word keyword) : keyword = .closeIf := by
  cases keyword <;> simp [keywordEvents, headerEvents, promptEvents] at h ⊢

lemma scope_ne_nil_of_closeIf (hstep : s.step fs = .ok p) (hmem : .closeIf ∈ s.events p) :
    s.ctx.scope ≠ [] := by
  obtain ⟨token, ctx, hnext, htakes⟩ := takes_of_step hstep
  have hword : ∃ word, token.lexeme = .word word ∧ BlockKeyword.ofWord? word = some .closeIf ∧
      p.ctx.ahead ≠ s.ctx.ahead := by
    rw [events, hnext] at hmem
    dsimp only at hmem
    split at hmem
    · split at hmem <;> simp at hmem
    · rename_i word hlex
      split at hmem
      · rename_i keyword hkeyword
        rcases List.mem_append.1 hmem with hmem | hmem
        · split at hmem <;> simp at hmem
        · split at hmem
          · cases hmem
          · rename_i htaken
            exact ⟨word, hlex, hkeyword.trans (congrArg some (eq_closeIf_of_mem hmem)), htaken⟩
      · simp at hmem
    · cases hmem
  obtain ⟨word, hlex, hword, htaken⟩ := hword
  have hsame : ∀ {word' : String} {keyword : Option BlockKeyword}, token.lexeme = .word word' →
      BlockKeyword.ofWord? word' = keyword → keyword = some .closeIf := by
    intro word' keyword hlex' hword'
    rw [hlex] at hlex'
    cases hlex'
    rw [← hword', hword]
  cases htakes with
  | closeIf hlex' hword' hblock h =>
    rw [← (next_quiet hnext).scope]
    exact (readEndif_eq_ok h).1
  | leafEnd hleaf hlex' h =>
    refine absurd ?_ htaken
    rw [ahead_congr (close_files s _)]
    exact ahead_of_pushBack hnext h
  | lineEnd hlex' =>
    rw [hlex] at hlex'
    cases hlex'
  | fileEnd hlex' hblock hdepth =>
    rw [hlex] at hlex'
    cases hlex'
  | topEnd hlex' hkind htop hdepth hscope =>
    rw [hlex] at hlex'
    cases hlex'
  | skip hlex' h =>
    rw [hlex] at hlex'
    simp [Entry.unknown?, hword] at hlex'
  | directive hlex' hword' hvisible hdirective hknown h => cases hsame hlex' hword'
  | visible hlex' hkind h => cases hsame hlex' rfl
  | mainMenu hlex' hword' hkind htop hprompt hlocation h => cases hsame hlex' hword'
  | header hlex' hword' hopening hholds h =>
    cases hsame hlex' hword'
    cases hopening
  | source hlex' hword' hblock h => cases hsame hlex' hword'
  | openIf hlex' hword' hblock h => cases hsame hlex' hword'
  | blockEnd hlex' hword' hkeyword htop h =>
    cases hsame hlex' hword'
    cases hkind : s.frame.entry.kind <;> rw [hkind] at hkeyword <;> cases hkeyword

end State

namespace Nesting

variable {n : Nesting} {events rest : List Event}

lemma Kept.append (h : (events.foldl take n).Kept rest) (hallows : ∀ event ∈ events, ∀ n : Nesting,
    n.Allows event) : n.Kept (events ++ rest) := by
  induction events generalizing n with
  | nil => exact h
  | cons event events ih =>
    obtain ⟨hevent, hevents⟩ := List.forall_mem_cons.1 hallows
    exact ⟨hevent n, ih h hevents⟩

end Nesting

namespace State

variable {fs : FileSystem} {s : State} {n : Nesting} {ctx : Context} {p : Progress}

lemma kept_of_step {s' : State} {rest : List Event} (hn : Nested s.frame s.outer)
    (hm : s.Matches n) (hstep : s.step fs = .ok (.running s'))
    (h : ((s.events (.running s')).foldl Nesting.take n).Kept rest) :
    n.Kept (s.events (.running s') ++ rest) := by
  have heffect := step_effect hstep
  have hcloseIf := scope_ne_nil_of_closeIf hstep
  generalize s.events (.running s') = events at h heffect hcloseIf
  generalize hp : Progress.running s' = p at heffect
  cases heffect with
  | closeIf hscope =>
    refine ⟨?_, h⟩
    intro hnil
    refine hcloseIf (List.mem_singleton_self _) ?_
    rw [← hm.ifs, Nesting.conditions, hnil, List.map_nil]
  | close hscope =>
    refine ⟨fun hblock body hbody => ?_, h⟩
    obtain ⟨g, outer, houter, -, -, -⟩ := close_eq_running hp.symm
    rw [houter] at hn
    have hbodies := hm.bodies
    rw [houter, blockScopes, if_pos hblock] at hbodies
    obtain ⟨below, hbelow⟩ : ∃ below, n.bodies = body :: below := by
      cases hn' : n.bodies with
      | nil =>
        rw [hn'] at hbody
        cases hbody
      | cons b below =>
        rw [hn'] at hbody
        cases hbody
        exact ⟨below, rfl⟩
    rw [hbelow, List.map_cons] at hbodies
    rw [hm.ifs, (List.cons.inj hbodies).1]
    exact scope_of_close hstep hp hblock hn.1
  | _ =>
    refine Nesting.Kept.append h ?_
    simp [Nesting.Allows]

/-- A run that succeeds allows all its events. -/
theorem kept_of_run {e : Entry} (hn : Nested s.frame s.outer) (hm : s.Matches n)
    (h : s.run fs = .ok (e, ctx)) : n.Kept (s.history fs) := by
  revert hn hm h
  induction s using step_induction fs generalizing n with
  | next s ih =>
    intro hn hm h
    cases hstep : s.step fs with
    | error fault =>
      rw [run_of_error hstep] at h
      cases h
    | ok p =>
      have heffect := step_effect hstep
      cases p with
      | finished e' ctx' =>
        rw [history_of_finished hstep]
        obtain ⟨hevents, houter, -⟩ := effect_finished heffect rfl
        have hbodies := hm.bodies
        rw [houter, blockScopes, List.map_eq_nil_iff] at hbodies
        rw [hevents]
        refine ⟨fun _ body hbody => ?_, ?_⟩
        · rw [hbodies] at hbody
          cases hbody
        · change (if _ then n.bodies.tail else n.bodies) = []
          rw [hbodies, List.tail_nil, ite_self]
      | running s' =>
        rw [run_of_running hstep] at h
        rw [history_of_running hstep]
        exact kept_of_step hn hm hstep
          (ih s' hstep (effect_nested heffect hn rfl) (hm.step heffect) h)

end State

namespace Nesting

variable {n : Nesting} {events : List Event}

/-- The `if` blocks that are open in a body directly, when the bodies `inner` are open in it. -/
def level (ifs : List IfBlock) : List Body → List IfBlock
  | [] => ifs
  | b :: inner => level b.around inner

lemma level_congr {ifs ifs' : List IfBlock}
    (h : ifs.map (·.condition) = ifs'.map (·.condition)) (inner : List Body) :
    (level ifs inner).map (·.condition) = (level ifs' inner).map (·.condition) := by
  cases inner with
  | nil => exact h
  | cons b inner => rfl

/-- After some of the events, an `if` with the condition `c` begins in `body` directly, with `k`
others around it. -/
def Reopens (n : Nesting) (bodies : List Body) (k : Nat) (c : Condition) (events : List Event) :
    Prop :=
  ∃ mid rest, events = mid ++ .openIf c :: rest ∧ (mid.foldl take n).bodies = bodies ∧
    (mid.foldl take n).ifs.length = k

lemma Reopens.cons {bodies : List Body} {k : Nat} {c : Condition} {event : Event}
    (h : (n.take event).Reopens bodies k c events) : n.Reopens bodies k c (event :: events) := by
  obtain ⟨mid, rest, rfl, hbodies, hlength⟩ := h
  exact ⟨event :: mid, rest, rfl, hbodies, hlength⟩

/-- In the body below `inner` a condition is open at the place `k`, or it will be opened there. -/
def Restores (n : Nesting) (inner bodies : List Body) (k : Nat) (c : Condition)
    (events : List Event) : Prop :=
  ((level n.ifs inner).map (·.condition))[k]? = some c ∨ n.Reopens bodies k c events

section Restores

variable {inner bodies : List Body} {k : Nat} {c : Condition}

lemma Restores.cons {event : Event} {inner' : List Body}
    (hlevel : (level (n.take event).ifs inner').map (·.condition) =
      (level n.ifs inner).map (·.condition))
    (h : (n.take event).Restores inner' bodies k c events) :
    n.Restores inner bodies k c (event :: events) := by
  rw [Restores, ← hlevel]
  exact h.imp id Reopens.cons

lemma restores_header {header : Header} (hbodies : n.bodies = inner ++ bodies)
    (h : ∀ inner', (n.take (.header header)).bodies = inner' ++ bodies →
      (n.take (.header header)).Restores inner' bodies k c events) :
    n.Restores inner bodies k c (.header header :: events) := by
  by_cases hblock : header.kind.isBlock = true
  · refine Restores.cons rfl (h (⟨n.count, n.ifs⟩ :: inner) ?_)
    change (if header.kind.isBlock then _ else _) = _
    rw [if_pos hblock, hbodies]
    rfl
  · refine Restores.cons rfl (h inner ?_)
    change (if header.kind.isBlock then _ else _) = _
    rw [if_neg hblock, hbodies]

lemma restores_openIf {condition : Condition} (hbodies : n.bodies = inner ++ bodies)
    (h : (n.take (.openIf condition)).Restores inner bodies k c events) :
    n.Restores inner bodies k c (.openIf condition :: events) := by
  cases inner with
  | cons b inner => exact Restores.cons rfl h
  | nil =>
    rcases h with hopen | hlater
    · change ((n.ifs ++ [IfBlock.mk n.count condition]).map IfBlock.condition)[k]? = some c at hopen
      rw [List.map_append] at hopen
      rcases Nat.lt_or_ge k n.ifs.length with hk | hk
      · rw [List.getElem?_append_left (by simpa using hk)] at hopen
        exact .inl hopen
      · -- The `if` that begins here is the one that takes the place.
        rw [List.getElem?_append_right (by simpa using hk), List.length_map] at hopen
        have hzero : k - n.ifs.length = 0 := by
          by_contra hne
          rw [List.getElem?_eq_none (by simp; omega)] at hopen
          cases hopen
        rw [hzero] at hopen
        cases hopen
        exact .inr ⟨[], events, rfl, hbodies, by change n.ifs.length = k; omega⟩
    · exact .inr hlater.cons

lemma restores_closeIf (h : (n.take .closeIf).Restores inner bodies k c events) :
    n.Restores inner bodies k c (.closeIf :: events) := by
  cases inner with
  | cons b inner => exact Restores.cons rfl h
  | nil =>
    rcases h with hopen | hlater
    · refine .inl ?_
      change (n.ifs.dropLast.map IfBlock.condition)[k]? = some c at hopen
      rw [List.map_dropLast, List.getElem?_dropLast] at hopen
      split at hopen
      · exact hopen
      · cases hopen
    · exact .inr hlater.cons

lemma restores_close {kind : EntryKind} {body : Body} {outer : List Body}
    (hallows : n.Allows (.close kind)) (hbodies : n.bodies = inner ++ body :: outer)
    (hc : body.conditions[k]? = some c)
    (h : ∀ inner', (n.take (.close kind)).bodies = inner' ++ body :: outer →
      (n.take (.close kind)).Restores inner' (body :: outer) k c events) :
    n.Restores inner (body :: outer) k c (.close kind :: events) := by
  by_cases hblock : kind.isBlock = true
  · have htail : (n.take (.close kind)).bodies = n.bodies.tail := if_pos hblock
    cases inner with
    | nil =>
      have hsame : n.conditions = body.conditions := hallows hblock body (by rw [hbodies]; rfl)
      exact .inl ((congrArg (·[k]?) hsame).trans hc)
    | cons b inner =>
      have hsame : n.conditions = b.conditions := hallows hblock b (by rw [hbodies]; rfl)
      refine Restores.cons (level_congr hsame inner) (h inner ?_)
      rw [htail, hbodies]
      rfl
  · exact Restores.cons rfl (h inner ((if_neg hblock).trans hbodies))

end Restores

/-- Each condition that was open around a body is open in the body at the same place, or will be
opened there again. The induction is on the events; the bodies `inner` are open in the body. -/
theorem Kept.restores (h : n.Kept events) {inner outer : List Body} {body : Body}
    (hbodies : n.bodies = inner ++ body :: outer) {k : Nat} {c : Condition}
    (hc : body.conditions[k]? = some c) : n.Restores inner (body :: outer) k c events := by
  induction events generalizing n inner with
  | nil =>
    rw [show n.bodies = [] from h] at hbodies
    simp at hbodies
  | cons event events ih =>
    obtain ⟨hallows, h⟩ := h
    cases event with
    | directive d => exact Restores.cons rfl (ih h hbodies)
    | header header => exact restores_header hbodies fun _ => ih h
    | openIf condition => exact restores_openIf hbodies (ih h hbodies)
    | closeIf => exact restores_closeIf (ih h hbodies)
    | close kind => exact restores_close hallows hbodies hc fun _ => ih h

lemma Kept.drop {before after : List Event} (h : n.Kept (before ++ after)) :
    (before.foldl take n).Kept after := by
  induction before generalizing n with
  | nil => exact h
  | cons event before ih => exact ih h.2

end Nesting

/-- The open `if` blocks are some of those around the body and then some that were opened later. -/
structure Body.Precedes (body : Body) (n : Nesting) : Prop where
  number : body.number < n.count
  split : ∃ kept inner, n.ifs = kept ++ inner ∧ kept <+: body.around ∧
    ∀ block ∈ inner, body.number < block.number

lemma Body.Precedes.take {body : Body} {n : Nesting} (h : body.Precedes n) (event : Event) :
    body.Precedes (n.take event) := by
  obtain ⟨kept, inner, hifs, hkept, hinner⟩ := h.split
  refine ⟨h.number.trans (Nat.lt_succ_self _), ?_⟩
  cases event with
  | openIf condition =>
    refine ⟨kept, inner ++ [⟨n.count, condition⟩], ?_, hkept, ?_⟩
    · change n.ifs ++ _ = _
      rw [hifs, List.append_assoc]
    · exact List.forall_mem_append.2 ⟨hinner, List.forall_mem_singleton.2 h.number⟩
  | closeIf =>
    rcases List.eq_nil_or_concat inner with rfl | ⟨inner', block, rfl⟩
    · refine ⟨kept.dropLast, [], ?_, (List.dropLast_prefix _).trans hkept, hinner⟩
      change n.ifs.dropLast = _
      rw [hifs, List.append_nil, List.append_nil]
    · refine ⟨kept, inner', ?_, hkept, fun b hb => hinner b ?_⟩
      · change n.ifs.dropLast = _
        rw [hifs, List.concat_eq_append, ← List.append_assoc, List.dropLast_concat]
      · rw [List.concat_eq_append]
        exact List.mem_append_left _ hb
  | _ => exact ⟨kept, inner, hifs, hkept, hinner⟩

lemma precedes_of_mem_bodies (events : List Event) :
    ∀ body ∈ (Nesting.after events).bodies, body.Precedes (Nesting.after events) := by
  induction events using List.reverseRecOn with
  | nil => exact fun body hbody => nomatch hbody
  | append_singleton events event ih =>
    have htake : ∀ body ∈ (Nesting.after events).bodies,
        body.Precedes ((Nesting.after events).take event) :=
      fun body hbody => (ih body hbody).take event
    rw [Nesting.after_concat]
    cases event with
    | header header =>
      change ∀ body ∈ (if header.kind.isBlock then _ else _), _
      split
      · refine List.forall_mem_cons.2 ⟨⟨Nat.lt_succ_self _, ?_⟩, htake⟩
        exact ⟨_, [], (List.append_nil _).symm, List.prefix_rfl, fun b hb => nomatch hb⟩
      · exact htake
    | close kind =>
      change ∀ body ∈ (if kind.isBlock then _ else _), _
      split
      · exact fun body hbody => htake body (List.mem_of_mem_tail hbody)
      · exact htake
    | _ => exact htake

namespace Tree

variable {fs : FileSystem} {settings : Settings} {tree : Tree}

lemma kept_of_parse (h : parse fs settings = .ok tree) :
    Nesting.Kept {} (settings.history fs) := by
  obtain ⟨s, e, ctx, hstart, hrun, rfl⟩ := parse_eq_ok.1 h
  have hhistory : settings.history fs = s.history fs := by rw [Settings.history, hstart]
  obtain ⟨bytes, -, rfl⟩ := Settings.start_eq_ok.1 hstart
  rw [hhistory]
  exact State.kept_of_run (settings.nested_opened bytes) ⟨rfl, rfl⟩ hrun

/-- In a file that is accepted, an `endif` in the body of a menu or choice closes an `if` that was
opened in the body, or one around it that has to be opened there again: an `if` with the same
condition follows in the body, directly and at the same depth. -/
theorem endif_closes (h : parse fs settings = .ok tree) {before after : List Event}
    (hhistory : settings.history fs = before ++ .closeIf :: after) {body : Body}
    {outer : List Body} (hbody : (Nesting.after before).bodies = body :: outer) :
    ∃ block, (Nesting.after before).ifs.getLast? = some block ∧
      (body.number < block.number ∨
        block ∈ body.around ∧
          (Nesting.after (before ++ [.closeIf])).Reopens (body :: outer)
            ((Nesting.after before).ifs.length - 1) block.condition after) := by
  have hkept := kept_of_parse h
  rw [hhistory] at hkept
  obtain ⟨hne, hkept⟩ := hkept.drop
  change (Nesting.after before).ifs ≠ [] at hne
  change ((Nesting.after before).take .closeIf).Kept after at hkept
  rw [← Nesting.after_concat] at hkept
  obtain ⟨kept, inner, hifs, hprefix, hinner⟩ :=
    (precedes_of_mem_bodies before body (hbody ▸ List.mem_cons_self)).split
  obtain ⟨block, hblock⟩ := Option.isSome_iff_exists.1 (List.getLast?_isSome.2 hne)
  refine ⟨block, hblock, ?_⟩
  rcases List.eq_nil_or_concat inner with rfl | ⟨inner', last, rfl⟩
  · rw [List.append_nil] at hifs
    obtain ⟨more, hmore⟩ := hprefix
    have hpos : 0 < kept.length := List.length_pos_iff.2 (hifs ▸ hne)
    have hplace : body.around[kept.length - 1]? = some block := by
      rw [← hmore, List.getElem?_append_left (by omega), ← List.getLast?_eq_getElem?, ← hifs,
        hblock]
    have hcondition : body.conditions[kept.length - 1]? = some block.condition := by
      rw [Body.conditions, List.getElem?_map, hplace]
      rfl
    refine .inr ⟨List.mem_of_getElem? hplace, ?_⟩
    have hbodies : (Nesting.after (before ++ [.closeIf])).bodies = [] ++ body :: outer := by
      rw [Nesting.after_concat]
      exact hbody
    rcases hkept.restores hbodies hcondition with hopen | hlater
    · rw [Nesting.after_concat] at hopen
      change
        ((Nesting.after before).ifs.dropLast.map IfBlock.condition)[kept.length - 1]? = _ at hopen
      rw [hifs, List.getElem?_eq_none (by simp)] at hopen
      cases hopen
    · rw [hifs]
      exact hlater
  · refine .inl (hinner block ?_)
    rw [hifs, List.concat_eq_append, ← List.append_assoc, List.getLast?_concat] at hblock
    cases hblock
    simp

end Tree

/-- An `if` block with a menu in it, and an `if` block in the menu. -/
def nestedIf : Snapshot where
  files := [(["K".toList], "if X\nmenu \"M\"\nif Y\nendif\nendmenu\nendif\n".toUTF8.toList)]

/-- What is taken of `nestedIf` before the first `endif`. -/
def nestedIfBefore : List Event :=
  [.openIf ⟨"X"⟩, .header ⟨.menu, none, ⟨"K", 2⟩⟩, .directive (.prompt ⟨"M", none⟩),
    .openIf ⟨"Y"⟩]

theorem endif_closes_nestedIf :
    (Nesting.after nestedIfBefore).bodies = [⟨1, [⟨0, ⟨"X"⟩⟩]⟩] ∧
      ∃ after block, Settings.history nestedIf.toFileSystem { root := "", file := "K" } =
          nestedIfBefore ++ .closeIf :: after ∧
        (Nesting.after nestedIfBefore).ifs.getLast? = some block ∧ 1 < block.number := by
  have hbodies : (Nesting.after nestedIfBefore).bodies = [⟨1, [⟨0, ⟨"X"⟩⟩]⟩] := by decide
  have hhistory : Settings.history nestedIf.toFileSystem { root := "", file := "K" } =
      nestedIfBefore ++ .closeIf :: [.close .menu, .closeIf, .close .menu] := by
    refine Settings.history_of_historyFor (n := 40) ?_
    decide +kernel
  have hrun : (Tree.parseFor nestedIf.toFileSystem { root := "", file := "K" } 40).isSome =
      true := by decide +kernel
  obtain ⟨tree, htree⟩ := Option.isSome_iff_exists.1 hrun
  obtain ⟨block, hblock, hcloses⟩ :=
    Tree.endif_closes (Tree.parse_of_parseFor htree) hhistory hbodies
  refine ⟨hbodies, _, block, hhistory, hblock, ?_⟩
  rcases hcloses with hinside | ⟨haround, -⟩
  · exact hinside
  · rw [show block = ⟨3, ⟨"Y"⟩⟩ from (Option.some.inj hblock).symm]
    decide

/-- The `endif` in the menu closes the `if` in front of the menu, and another `if` with the same
condition takes its place. -/
def menuAcrossIf : Snapshot where
  files := [(["K".toList], "if X\nmenu \"M\"\nendif\nif X\nendmenu\nendif\n".toUTF8.toList)]

theorem endif_closes_around : ∃ tree before after body block,
    Tree.parse menuAcrossIf.toFileSystem { root := "", file := "K" } = .ok tree ∧
      Settings.history menuAcrossIf.toFileSystem { root := "", file := "K" } =
          before ++ .closeIf :: after ∧
        (Nesting.after before).bodies.head? = some body ∧
          (Nesting.after before).ifs.getLast? = some block ∧ block.number < body.number := by
  have hhistory : Settings.history menuAcrossIf.toFileSystem { root := "", file := "K" } =
      [.openIf ⟨"X"⟩, .header ⟨.menu, none, ⟨"K", 2⟩⟩, .directive (.prompt ⟨"M", none⟩)] ++
        .closeIf :: [.openIf ⟨"X"⟩, .close .menu, .closeIf, .close .menu] := by
    refine Settings.history_of_historyFor (n := 40) ?_
    decide +kernel
  have hrun : (Tree.parseFor menuAcrossIf.toFileSystem { root := "", file := "K" } 40).isSome =
      true := by decide +kernel
  obtain ⟨tree, htree⟩ := Option.isSome_iff_exists.1 hrun
  exact ⟨tree, _, _, ⟨1, [⟨0, ⟨"X"⟩⟩]⟩, ⟨0, ⟨"X"⟩⟩, Tree.parse_of_parseFor htree, hhistory, rfl,
    rfl, by decide⟩

end Kconfig
