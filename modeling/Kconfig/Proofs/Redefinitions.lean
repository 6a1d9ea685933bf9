import Kconfig.Proofs.Symbols

/-!
# Redefinitions

The report of a run names each symbol that more than one entry carries, with the places of these
entries. It can be read off the headers of the entries in the order in which they are registered: a
config when its symbol has been read, a choice at its end. A symbol enters the report when it is
registered for the second time.
-/

namespace Kconfig

/-- The names that are met for the second time after those in `before`. -/
def repeatedAfter (before : List String) : List String → List String
  | [] => []
  | name :: names =>
    (if before.count name = 1 then [name] else []) ++ repeatedAfter (before ++ [name]) names

/-- The names that occur more than once, in the order in which they are met for the second time. -/
def repeated (names : List String) : List String :=
  repeatedAfter [] names

/-- The places of the headers with a symbol. -/
def placesOf (a : String) (headers : List Header) : List String :=
  (headers.filter (·.symbol = some a)).map (·.location.text)

/-- The symbols that more than one header has, in the order in which they come for the second time,
with the places of these headers. -/
def redefinitions (headers : List Header) : List (String × List String) :=
  (repeated (headers.filterMap (·.symbol))).map fun a => (a, (placesOf a headers).eraseDups)

lemma repeatedAfter_concat (before names : List String) (name : String) :
    repeatedAfter before (names ++ [name]) =
      repeatedAfter before names ++ if (before ++ names).count name = 1 then [name] else [] := by
  induction names generalizing before with
  | nil => simp [repeatedAfter]
  | cons first names ih =>
    rw [List.cons_append, repeatedAfter, ih, repeatedAfter, List.append_assoc, List.append_assoc,
      List.singleton_append]

lemma repeated_concat (names : List String) (name : String) :
    repeated (names ++ [name]) =
      repeated names ++ if names.count name = 1 then [name] else [] :=
  repeatedAfter_concat [] names name

lemma mem_repeated_iff (a : String) (names : List String) :
    a ∈ repeated names ↔ 2 ≤ names.count a := by
  induction names using List.reverseRecOn with
  | nil => simp [repeated, repeatedAfter]
  | append_singleton names name ih =>
    rw [repeated_concat, List.mem_append, ih, List.count_append, List.count_singleton]
    by_cases ha : a = name
    · subst ha
      rw [if_pos (beq_self_eq_true a)]
      by_cases hcount : names.count a = 1
      · simp [hcount]
      · rw [if_neg hcount, or_iff_left List.not_mem_nil]
        omega
    · by_cases hcount : names.count name = 1
      · simp [hcount, ha, Ne.symm ha]
      · simp [hcount, Ne.symm ha]

lemma nodup_repeated (names : List String) : (repeated names).Nodup := by
  induction names using List.reverseRecOn with
  | nil => exact List.nodup_nil
  | append_singleton names name ih =>
    rw [repeated_concat]
    split
    · rename_i hcount
      refine List.nodup_append.2 ⟨ih, List.nodup_singleton name, ?_⟩
      intro a ha b hb hab
      rw [List.mem_singleton.1 hb] at hab
      rw [hab, mem_repeated_iff] at ha
      omega
    · rwa [List.append_nil]

lemma length_placesOf (a : String) (headers : List Header) :
    (placesOf a headers).length = (headers.filterMap (·.symbol)).count a := by
  induction headers with
  | nil => rfl
  | cons header headers ih =>
    rw [placesOf, List.length_map] at ih ⊢
    cases hsymbol : header.symbol with
    | none => simp [hsymbol, ih]
    | some symbol =>
      by_cases ha : symbol = a
      · simp [hsymbol, ha, ih]
      · simp [hsymbol, ha, ih]

lemma placesOf_concat (a : String) (headers : List Header) (header : Header) :
    placesOf a (headers ++ [header]) =
      placesOf a headers ++ if header.symbol = some a then [header.location.text] else [] := by
  rw [placesOf, placesOf, List.filter_append, List.map_append]
  by_cases h : header.symbol = some a <;> simp [h]

lemma foldl_addNew_of_subset {items known : List String} (h : ∀ item ∈ items, item ∈ known) :
    items.foldl addNew known = known := by
  induction items with
  | nil => rfl
  | cons item items ih =>
    obtain ⟨hitem, hitems⟩ := List.forall_mem_cons.1 h
    rw [List.foldl_cons, addNew, if_pos hitem, ih hitems]

lemma nodup_eraseDups {α : Type} [DecidableEq α] (items : List α) : items.eraseDups.Nodup := by
  induction items using List.reverseRecOn with
  | nil => exact List.nodup_nil
  | append_singleton items item ih =>
    rw [← foldl_addNew_nil, List.foldl_append, foldl_addNew_nil]
    exact nodup_addNew ih item

lemma foldl_addNew_eraseDups (places : List String) (place : String) :
    (places ++ [place]).foldl addNew places.eraseDups = (places ++ [place]).eraseDups := by
  rw [← foldl_addNew_nil, ← foldl_addNew_nil, List.foldl_append, List.foldl_append]
  congr 1
  refine foldl_addNew_of_subset fun item hitem => ?_
  rw [foldl_addNew_nil]
  exact List.mem_eraseDups.2 hitem

lemma mergeOccurrences_map {names : List String} (hnames : names.Nodup)
    (f : String → List String) (a : String) (places : List String) :
    Report.mergeOccurrences a places (names.map fun b => (b, f b)) =
      if a ∈ names then names.map fun b => (b, if b = a then places.foldl addNew (f b) else f b)
      else names.map (fun b => (b, f b)) ++ [(a, places.foldl addNew [])] := by
  induction names with
  | nil => rfl
  | cons name names ih =>
    obtain ⟨hname, hnodup⟩ := List.nodup_cons.1 hnames
    rw [List.map_cons, Report.mergeOccurrences]
    by_cases ha : name = a
    · subst ha
      rw [if_pos rfl, if_pos List.mem_cons_self, List.map_cons, if_pos rfl]
      congr 1
      refine List.map_congr_left fun b hb => ?_
      rw [if_neg]
      rintro rfl
      exact hname hb
    · rw [if_neg ha, ih hnodup]
      by_cases hmem : a ∈ names
      · rw [if_pos hmem, if_pos (List.mem_cons_of_mem _ hmem), List.map_cons, if_neg ha]
      · rw [if_neg hmem, if_neg fun h => hmem ((List.mem_cons.1 h).resolve_left (Ne.symm ha))]
        rfl

/-- A header whose symbol has been met before enters the report, or its place is added there. -/
lemma redefinitions_concat {a : String} (headers : List Header) {header : Header}
    (hsymbol : header.symbol = some a) :
    redefinitions (headers ++ [header]) =
      if 1 < (placesOf a (headers ++ [header])).length then
        Report.mergeOccurrences a (placesOf a (headers ++ [header])) (redefinitions headers)
      else redefinitions headers := by
  have hnames : (headers ++ [header]).filterMap (·.symbol) =
      headers.filterMap (·.symbol) ++ [a] := by
    rw [List.filterMap_append, List.filterMap_cons, hsymbol]
    rfl
  have hlength : (placesOf a (headers ++ [header])).length =
      (headers.filterMap (·.symbol)).count a + 1 := by
    rw [length_placesOf, hnames, List.count_append, List.count_singleton_self]
  have hplaces : placesOf a (headers ++ [header]) =
      placesOf a headers ++ [header.location.text] := by
    rw [placesOf_concat, if_pos hsymbol]
  have hothers : ∀ b, b ≠ a → placesOf b (headers ++ [header]) = placesOf b headers := by
    intro b hb
    rw [placesOf_concat, if_neg (by simp [hsymbol, Ne.symm hb]), List.append_nil]
  have hmem := mem_repeated_iff a (headers.filterMap (·.symbol))
  have hmerge := mergeOccurrences_map (nodup_repeated (headers.filterMap (·.symbol)))
    (fun b => (placesOf b headers).eraseDups) a (placesOf a (headers ++ [header]))
  rw [redefinitions, redefinitions, hnames, repeated_concat, hlength, hmerge]
  by_cases hknown : a ∈ repeated (headers.filterMap (·.symbol))
  · have hcount := hmem.1 hknown
    rw [if_neg (by omega), if_pos (by omega), if_pos hknown, List.append_nil]
    refine List.map_congr_left fun b _ => ?_
    by_cases hb : b = a
    · rw [if_pos hb, hb, hplaces, foldl_addNew_eraseDups]
    · rw [if_neg hb, hothers b hb]
  · have hcount := mt hmem.2 hknown
    have hsame : (repeated (headers.filterMap (·.symbol))).map
          (fun b => (b, (placesOf b (headers ++ [header])).eraseDups)) =
        (repeated (headers.filterMap (·.symbol))).map
          fun b => (b, (placesOf b headers).eraseDups) := by
      refine List.map_congr_left fun b hb => ?_
      rw [hothers b fun heq => hknown (heq ▸ hb)]
    rw [if_neg hknown, List.map_append, hsame]
    by_cases hone : (headers.filterMap (·.symbol)).count a = 1
    · rw [if_pos hone, if_pos (by omega), foldl_addNew_nil]
      rfl
    · rw [if_neg hone, if_neg (by omega), List.map_nil, List.append_nil]

/-- What a context keeps of the symbols is what the headers registered so far say. -/
structure Context.Tallied (headers : List Header) (ctx : Context) : Prop where
  definitions : ∀ a, (ctx.definitions.lookup a).getD [] = placesOf a headers
  multiple : ctx.report.multiple = redefinitions headers

namespace Context.Tallied

variable {headers : List Header} {ctx ctx' : Context} {e : Entry}

lemma congr (h : ctx.Tallied headers) (hdefinitions : ctx'.definitions = ctx.definitions)
    (hmultiple : ctx'.report.multiple = ctx.report.multiple) : ctx'.Tallied headers where
  definitions := hdefinitions ▸ h.definitions
  multiple := hmultiple.trans h.multiple

lemma quiet (h : ctx.Tallied headers) (hquiet : Quiet ctx ctx') : ctx'.Tallied headers :=
  h.congr hquiet.definitions hquiet.multiple

lemma setSymbol (h : ctx.Tallied headers) (e : Entry) : (ctx.setSymbol e).Tallied headers := by
  unfold Context.setSymbol
  split
  · exact h
  · exact h.congr rfl rfl

lemma unnamed (h : ctx.Tallied headers) {header : Header} (hsymbol : header.symbol = none) :
    ctx.Tallied (headers ++ [header]) := by
  have hplaces : ∀ a, placesOf a (headers ++ [header]) = placesOf a headers := by
    intro a
    rw [placesOf_concat, if_neg (by simp [hsymbol]), List.append_nil]
  refine ⟨fun a => (h.definitions a).trans (hplaces a).symm, h.multiple.trans ?_⟩
  rw [redefinitions, redefinitions, List.filterMap_append, List.filterMap_cons, hsymbol,
    List.filterMap_nil, List.append_nil]
  simp only [hplaces]

lemma define (h : ctx.Tallied headers)
    (hsymbol : ∀ symbol, e.head.symbol = some symbol → symbol ≠ "") :
    (ctx.define e).Tallied (headers ++ [e.header]) := by
  cases hhead : e.head.symbol with
  | none =>
    rw [Context.define, hhead]
    exact h.unnamed hhead
  | some symbol =>
    have hplaces : (ctx.definitions.lookup symbol).getD [] ++ [e.head.location.text] =
        placesOf symbol (headers ++ [e.header]) := by
      rw [h.definitions, placesOf_concat, if_pos (show e.header.symbol = some symbol from hhead)]
      rfl
    rw [Context.define, hhead, Option.filter_some, if_pos (by simpa using hsymbol symbol hhead)]
    dsimp only
    rw [hplaces]
    refine setSymbol ⟨fun a => ?_, ?_⟩ e
    · change ((setValue symbol _ ctx.definitions).lookup a).getD [] = _
      rw [lookup_setValue]
      by_cases ha : a = symbol
      · rw [if_pos ha, ha]
        rfl
      · rw [if_neg ha, h.definitions, placesOf_concat, if_neg, List.append_nil]
        exact fun heq => ha (Option.some.inj (heq.symm.trans hhead))
    · rw [redefinitions_concat headers (show e.header.symbol = some symbol from hhead),
        ← h.multiple]
      split
      · rfl
      · rfl

lemma config {c : Config} (h : ctx.Tallied
      (headers ++ if (Entry.config c).pending?.isSome then [(Entry.config c).header] else [])) :
    (ctx.setSymbol (.config c)).Tallied (headers ++ [(Entry.config c).header]) := by
  have hpending : (Entry.config c).pending? = (Entry.config c).head.symbol := by
    rw [Entry.pending?, Entry.kind, Config.kind]
    cases c.isMenu <;> rfl
  rw [hpending] at h
  cases hhead : (Entry.config c).head.symbol with
  | none =>
    rw [hhead, Option.isSome_none, if_neg Bool.false_ne_true, List.append_nil] at h
    exact (h.setSymbol _).unnamed hhead
  | some symbol =>
    rw [hhead] at h
    exact h.setSymbol _

end Context.Tallied

/-- The headers registered so far: those of the completed entries, and that of the config that is
being read. -/
def State.headers (s : State) : List Header :=
  (completed s.frame s.outer).map Entry.header ++
    if s.frame.entry.pending?.isSome then [s.frame.entry.header] else []

namespace State

variable {s s' : State} {ctx : Context} {p : Progress}

lemma headers_congr (hheader : s'.frame.entry.header = s.frame.entry.header)
    (hcompleted : completed s'.frame s'.outer = completed s.frame s.outer) :
    s'.headers = s.headers := by
  rw [headers, headers, hcompleted, Entry.pending?_congr hheader, hheader]

lemma headers_of_isBlock (h : s.frame.entry.kind.isBlock = true) :
    s.headers = (completed s.frame s.outer).map Entry.header := by
  rw [headers, Entry.pending?_of_isBlock h]
  exact List.append_nil _

lemma headers_opening {e : Entry} (hn : Nested (s.opening e) (s.frame :: s.outer))
    (hchildren : e.children = []) :
    State.headers { ctx, frame := s.opening e, outer := s.frame :: s.outer } =
      s.headers ++ if e.pending?.isSome then [e.header] else [] := by
  rw [s.headers_of_isBlock (isBlock_of_nested hn), headers, completed_opening s hchildren]
  rfl

/-- The end of an entry registers it if it is a choice; a config has been registered before. -/
lemma tallied_close (h : ctx.Tallied s.headers)
    (hsymbol : ∀ symbol, s.frame.entry.head.symbol = some symbol → symbol ≠ "") :
    (s.close ctx).ctx.Tallied
      ((completed s.frame s.outer ++ (s.frame.entry.finish s.frame.scope).registered).map
        Entry.header) := by
  have hheader := Entry.header_finish s.frame.entry s.frame.scope
  have hpending := Entry.pending?_congr hheader
  have hsymbol' : ∀ symbol, (s.frame.entry.finish s.frame.scope).head.symbol = some symbol →
      symbol ≠ "" := by
    intro symbol hfinish
    rw [Entry.symbol_finish] at hfinish
    exact hsymbol symbol hfinish
  rw [headers, ← hpending, ← hheader] at h
  unfold close
  dsimp only
  rw [List.map_append]
  split
  all_goals
    dsimp only [Progress.ctx]
    cases hentry : s.frame.entry.finish s.frame.scope with
    | config c =>
      rw [hentry] at h
      exact h.config
    | choice c =>
      rw [hentry] at h hsymbol'
      rw [Entry.pending?_of_isBlock (show (Entry.choice c).kind.isBlock = true from rfl)] at h
      rw [← List.append_nil (List.map _ _)]
      exact Context.Tallied.define h hsymbol'
    | comment c =>
      rw [hentry] at h
      exact h
    | menu head visibleIf children =>
      rw [hentry] at h
      exact h

lemma tallied_congr (h : s.ctx.Tallied s.headers)
    (hdefinitions : s'.ctx.definitions = s.ctx.definitions)
    (hmultiple : s'.ctx.report.multiple = s.ctx.report.multiple)
    (hheaders : s'.headers = s.headers) :
    s'.ctx.Tallied s'.headers := by
  rw [hheaders]
  exact h.congr hdefinitions hmultiple

/-- Every step keeps the report in accordance with the headers. -/
theorem tallied_step {environment : Environment} (h : s.ctx.Tallied s.headers)
    (hw : s.WellFormed environment) (hn : Nested s.frame s.outer)
    (hn' : Nested s'.frame s'.outer) (hb : Builds s p) (hp : p = .running s') :
    s'.ctx.Tallied s'.headers := by
  cases hb with
  | pass hquiet =>
    cases hp
    exact tallied_congr h hquiet.definitions hquiet.multiple rfl
  | @directive ctx site slips d hd hquiet =>
    cases hp
    have hshows := Directive.shows_apply s.ctx.environment site slips d s.frame.entry
    exact tallied_congr h hquiet.definitions hquiet.multiple
      (headers_congr hshows.header (completed_congr hshows.children _))
  | @mainMenu ctx site slips d location hkind hd hquiet =>
    cases hp
    have hshows := Directive.shows_apply s.ctx.environment site slips d
      (s.frame.entry.setHead { s.frame.entry.head with location })
    have hblock : s.frame.entry.kind.isBlock = true := by
      rw [hkind]
      rfl
    have hkind' := (congrArg Header.kind hshows.header).trans (Entry.kind_setHead _ _)
    have hchildren : (s.frame.withEntry (Directive.apply s.ctx.environment site slips d
        (s.frame.entry.setHead { s.frame.entry.head with location })).1).entry.children =
          s.frame.entry.children :=
      hshows.children.trans (Entry.children_setHead _ _)
    refine tallied_congr h hquiet.definitions hquiet.multiple ?_
    rw [s.headers_of_isBlock hblock, ← completed_congr hchildren s.outer]
    exact headers_of_isBlock ((congrArg EntryKind.isBlock hkind').trans hblock)
  | openIf hcondition hquiet =>
    cases hp
    exact tallied_congr h hquiet.definitions hquiet.multiple rfl
  | closeIf hquiet =>
    cases hp
    exact tallied_congr h hquiet.definitions hquiet.multiple rfl
  | @config ctx isMenu symbol location hsymbol hquiet =>
    cases hp
    have hpending : (Entry.declared isMenu symbol location).pending? = some symbol := by
      cases isMenu <;> rfl
    change (ctx.define _).Tallied _
    rw [headers_opening hn' rfl, hpending]
    refine (h.quiet hquiet).define ?_
    rintro symbol' ⟨⟩
    exact hsymbol.nonempty
  | choice location hsymbol hquiet =>
    cases hp
    exact tallied_congr h hquiet.definitions hquiet.multiple
      ((headers_opening hn' rfl).trans (List.append_nil _))
  | @prompted ctx kind hkind location site slips prompt hprompt hquiet =>
    cases hp
    refine tallied_congr h hquiet.definitions hquiet.multiple
      ((headers_opening hn' ?_).trans ?_)
    · rcases hkind with rfl | rfl <;> rfl
    · rcases hkind with rfl | rfl <;> exact List.append_nil _
  | @close ctx hquiet =>
    have hentry := (hw.frames s.frame List.mem_cons_self).entry
    have hclose := tallied_close (h.quiet hquiet) fun _ => hentry.head.symbol_ne
    rw [hp] at hclose
    obtain ⟨hblock, hcompleted⟩ := completed_close hn hp
    rw [headers_of_isBlock hblock, hcompleted]
    exact hclose

end State

theorem Reachable.tallied {fs : FileSystem} {settings : Settings} {s : State}
    (h : Reachable fs settings s) : s.ctx.Tallied s.headers := by
  induction h with
  | start hstart =>
    obtain ⟨bytes, -, rfl⟩ := Settings.start_eq_ok.1 hstart
    exact ⟨fun a => rfl, rfl⟩
  | step hs hstep ih =>
    exact State.tallied_step ih hs.wellFormed hs.nested (hs.step hstep).nested
      (State.step_builds hs.spelled hstep) rfl

namespace Entry

lemma placesOf_map_header (a : String) (es : List Entry) :
    placesOf a (es.map header) = (es.filter (Carries a)).map (·.head.location.text) := by
  rw [placesOf, List.filter_map, List.map_map]
  rfl

lemma perm_filter_registrationsAll {a : String} (es : List Entry)
    (hregistered : ∀ x ∈ walkAll es, x.Carries a → x.registered = [x]) :
    ((registrationsAll es).filter (Carries a)).Perm ((walkAll es).filter (Carries a)) := by
  induction es using children_induction with
  | nil => exact .refl _
  | cons e es ihbelow ih =>
    rw [walkAll, walk_eq] at hregistered
    obtain ⟨hfirst, hrest⟩ := List.forall_mem_append.1 hregistered
    obtain ⟨hself, hbelow⟩ := List.forall_mem_cons.1 hfirst
    have hown : e.registered.filter (Carries a) = [e].filter (Carries a) := by
      by_cases h : e.Carries a
      · rw [hself h]
      · cases e <;> simp [registered, h]
    have hfirst : ((registrations e).filter (Carries a)).Perm ((walk e).filter (Carries a)) := by
      have hwalk : (walk e).filter (Carries a) =
          [e].filter (Carries a) ++ (walkAll e.children).filter (Carries a) := by
        rw [walk_eq, ← List.filter_append, List.singleton_append]
      rw [registrations_eq, List.filter_append, hown, hwalk]
      exact List.perm_append_comm.trans ((ihbelow hbelow).append_left _)
    rw [registrationsAll, walkAll, List.filter_append, List.filter_append]
    exact hfirst.append (ih hrest)

end Entry

namespace Tree

variable {fs : FileSystem} {settings : Settings} {tree : Tree}

lemma multiple_of_parse (h : parse fs settings = .ok tree) :
    tree.report.multiple = redefinitions (tree.registrations.map Entry.header) := by
  obtain ⟨last, ctx, hreachable, hstep, houter, hmenu, rfl⟩ := exists_last_close h
  have hentry := (hreachable.wellFormed.frames last.frame List.mem_cons_self).entry
  generalize hp : Progress.finished (last.frame.entry.finish last.frame.scope) ctx = p at hstep
  cases State.step_builds hreachable.spelled hstep with
  | @close mid hquiet =>
    have hclose := State.tallied_close (hreachable.tallied.quiet hquiet)
      fun _ => hentry.head.symbol_ne
    rw [← hp, Entry.registered_of_menu hmenu, houter, completed, List.append_nil] at hclose
    rw [registrations, (root_ofRun hmenu _).2, Entry.children_finish]
    exact hclose.multiple
  | _ => cases hp

/-- The report names the symbols that more than one entry carries, each once, in the order in which
they are registered for the second time, with the places of these entries in the order in which the
entries are registered, each place once. -/
theorem redefinitions_of_parse (h : parse fs settings = .ok tree) :
    tree.report.multiple = (repeated (tree.registrations.filterMap (·.head.symbol))).map
        (fun a => (a, ((tree.registrations.filter (Entry.Carries a)).map
          (·.head.location.text)).eraseDups)) ∧
      (tree.report.multiple.map Prod.fst).Nodup ∧
        (∀ a, a ∈ tree.report.multiple.map Prod.fst ↔
          2 ≤ (tree.nodes.filter (Entry.Carries a)).length) ∧
          ∀ a places, (a, places) ∈ tree.report.multiple → places.Nodup ∧
            ∀ place, place ∈ places ↔
              ∃ e ∈ tree.nodes, e.Carries a ∧ e.head.location.text = place := by
  have hperm : ∀ a, (tree.registrations.filter (Entry.Carries a)).Perm
      (tree.nodes.filter (Entry.Carries a)) :=
    fun a => Entry.perm_filter_registrationsAll _ (registered_of_carries h a)
  have hmultiple := multiple_of_parse h
  simp only [redefinitions, Entry.placesOf_map_header] at hmultiple
  have hkeys : tree.report.multiple.map Prod.fst =
      repeated ((tree.registrations.map Entry.header).filterMap (·.symbol)) := by
    rw [hmultiple, List.map_map]
    exact List.map_id _
  refine ⟨?_, hkeys ▸ nodup_repeated _, fun a => ?_, ?_⟩
  · rw [hmultiple, List.filterMap_map]
    rfl
  · rw [hkeys, mem_repeated_iff, ← length_placesOf, Entry.placesOf_map_header, List.length_map,
      (hperm a).length_eq]
  · intro a places hplaces
    rw [hmultiple] at hplaces
    obtain ⟨b, -, heq⟩ := List.mem_map.1 hplaces
    cases heq
    refine ⟨?_, fun place => ?_⟩
    · exact nodup_eraseDups _
    · rw [List.mem_eraseDups, List.mem_map]
      simp only [(hperm a).mem_iff, List.mem_filter, decide_eq_true_eq, and_assoc]

end Tree

/-- A file that is read twice, and a choice with the symbol of a member. -/
def redefined : Snapshot where
  files := [
    (["K".toList], ("config A\nsource \"F\"\nsource \"F\"\n" ++
      "choice B\nconfig C\nconfig B\nendchoice\nconfig C\n").toUTF8.toList),
    (["F".toList], "config A\n".toUTF8.toList)]

theorem redefinitions_of_parse_redefined : ∃ tree,
    Tree.parse redefined.toFileSystem { root := "", file := "K" } = .ok tree ∧
      tree.report.multiple =
          [("A", ["K:1", "F:1"]), ("B", ["K:6", "K:4"]), ("C", ["K:5", "K:8"])] ∧
        (∀ a ∈ ["A", "B", "C"], 2 ≤ (tree.nodes.filter (Entry.Carries a)).length) ∧
          repeated (tree.registrations.filterMap (·.head.symbol)) = ["A", "B", "C"] := by
  have hrun : (Tree.parseFor redefined.toFileSystem { root := "", file := "K" } 60).any
      (fun tree => tree.report.multiple =
        [("A", ["K:1", "F:1"]), ("B", ["K:6", "K:4"]), ("C", ["K:5", "K:8"])]) = true := by
    decide +kernel
  obtain ⟨tree, htree, hmultiple⟩ := (Option.any_eq_true _ _).1 hrun
  have hmultiple := of_decide_eq_true hmultiple
  have hparse := Tree.parse_of_parseFor htree
  obtain ⟨hrecords, -, hsymbols, -⟩ := Tree.redefinitions_of_parse hparse
  have hkeys := congrArg (List.map Prod.fst) hrecords
  rw [hmultiple, List.map_map] at hkeys
  refine ⟨tree, hparse, hmultiple, fun a ha => (hsymbols a).1 ?_, ?_⟩
  · rw [hmultiple]
    exact ha
  · exact (List.map_id _).symm.trans hkeys.symm

end Kconfig
