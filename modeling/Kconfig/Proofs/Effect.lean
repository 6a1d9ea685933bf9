import Kconfig.Proofs.Quiet

/-!
# Effects of steps

What a step does to the entries that are being read and to the conditions of the open `if` blocks is
determined by the events that it takes. There is one case for each sort of event, and a step that
takes no event changes neither.
-/

namespace Kconfig

/-- Whether an entry of kind `child` can stand in one of kind `kind`. -/
def EntryKind.holds (kind child : EntryKind) : Bool :=
  match kind with
  | .menu => true
  | .choice => !child.isBlock
  | _ => false

/-- The entry that begins with a header, before its first directive. -/
def Header.entry (header : Header) : Entry :=
  .ofKind header.kind { location := header.location, symbol := header.symbol }

lemma Entry.isBlock_config (c : Config) : (Entry.config c).kind.isBlock = false := by
  rw [Entry.kind, Config.kind]
  split <;> rfl

lemma Entry.eq_menu_of_kind {e : Entry} (h : e.kind = .menu) :
    ∃ head visibleIf children, e = .menu head visibleIf children := by
  cases e with
  | menu head visibleIf children => exact ⟨head, visibleIf, children, rfl⟩
  | config c =>
    rw [Entry.kind, Config.kind] at h
    split at h <;> cases h
  | _ => cases h

lemma Entry.eq_choice_of_kind {e : Entry} (h : e.kind = .choice) : ∃ c, e = .choice c := by
  cases e with
  | choice c => exact ⟨c, rfl⟩
  | config c =>
    rw [Entry.kind, Config.kind] at h
    split at h <;> cases h
  | _ => cases h

/-- What a step does to the frames and to the scope, by the events that it takes. -/
inductive Effect (s : State) : List Event → Progress → Prop where
  | pass {ctx : Context} (hscope : ctx.scope = s.ctx.scope) : Effect s [] (s.goOn ctx)
  | directive {ctx : Context} (environment : Environment) (site : Directive.Site)
    (slips : List Slip) (d : Directive) (hscope : ctx.scope = s.ctx.scope) :
    Effect s [.directive d]
      (s.update ((Directive.apply environment site slips d s.frame.entry).1, ctx))
  /-- The prompt of the top-level menu moves the menu to the place of the prompt. -/
  | mainMenu {ctx : Context} (environment : Environment) (site : Directive.Site)
    (slips : List Slip) (d : Directive) (location : Location) (htop : s.frame.isTop = true)
    (hscope : ctx.scope = s.ctx.scope) :
    Effect s [.directive d]
      (s.update
        ((Directive.apply environment site slips d
          (s.frame.entry.setHead { s.frame.entry.head with location })).1, ctx))
  | openIf {ctx : Context} (condition : Condition)
    (hscope : ctx.scope = s.ctx.scope ++ [condition]) : Effect s [.openIf condition] (s.goOn ctx)
  | closeIf {ctx : Context} (hscope : ctx.scope = s.ctx.scope.dropLast) :
    Effect s [.closeIf] (s.goOn ctx)
  | header {ctx : Context} {frame : Frame} (header : Header)
    (hholds : s.frame.entry.kind.holds header.kind = true) (hentry : frame.entry = header.entry)
    (hframe : frame.scope = s.ctx.scope) (htop : frame.isTop = false)
    (hscope : ctx.scope = s.ctx.scope) :
    Effect s [.header header] (s.descend (frame, ctx))
  /-- The prompts of comments and menus follow their keywords. -/
  | headerWith {ctx : Context} {frame : Frame} (header : Header) (environment : Environment)
    (site : Directive.Site) (slips : List Slip) (d : Directive)
    (hholds : s.frame.entry.kind.holds header.kind = true)
    (hentry : frame.entry = (Directive.apply environment site slips d header.entry).1)
    (hframe : frame.scope = s.ctx.scope) (htop : frame.isTop = false)
    (hscope : ctx.scope = s.ctx.scope) :
    Effect s [.header header, .directive d] (s.descend (frame, ctx))
  | close {ctx : Context} (hscope : ctx.scope = s.ctx.scope) :
    Effect s [.close s.frame.entry.kind] (s.close ctx)

namespace TokenStream

lemma next_pushBack {s s' s'' : TokenStream} {token : Token} (h : s.next = .ok (token, s'))
    (hp : s'.pushBack = .ok s'') : s''.next = .ok (token, s') := by
  obtain ⟨t, rest, -, -, hdigits, rfl⟩ := next_eq_ok.1 h
  cases hp
  exact next_eq_ok.2 ⟨_, rest, rfl, rfl, hdigits, rfl⟩

end TokenStream

namespace Context

variable {fs : FileSystem} {ctx ctx' ctx'' : Context} {token : Token}

@[simp]
lemma scope_setSymbol (ctx : Context) (e : Entry) : (ctx.setSymbol e).scope = ctx.scope := by
  unfold setSymbol
  split <;> rfl

@[simp]
lemma scope_define (ctx : Context) (e : Entry) : (ctx.define e).scope = ctx.scope := by
  unfold define
  split
  · rfl
  · rw [scope_setSymbol]
    rfl

lemma ahead_congr (h : ctx'.files = ctx.files) : ctx'.ahead = ctx.ahead := by
  rw [ahead, ahead, h]

lemma next_eq_ok (h : ctx.next = .ok (token, ctx')) :
    ∃ s s' below, ctx.files = s :: below ∧ s.next = .ok (token, s') ∧ ctx'.files = s' :: below ∧
      ctx' = ctx.setCurrent s' := by
  obtain ⟨s, hs, h⟩ := bind_eq_ok.1 h
  obtain ⟨⟨token', s'⟩, hnext, h⟩ := bind_eq_ok.1 h
  cases pure_eq_ok.1 h
  obtain ⟨below, hbelow⟩ := current_eq_ok hs
  refine ⟨s, s', below, hbelow, hnext, ?_, rfl⟩
  rw [setCurrent, hbelow]
  rfl

lemma pushBack_eq_ok (h : ctx.pushBack = .ok ctx') :
    ∃ s s' below, ctx.files = s :: below ∧ s.pushBack = .ok s' ∧ ctx'.files = s' :: below := by
  obtain ⟨s, hs, h⟩ := bind_eq_ok.1 h
  obtain ⟨s', hpush, h⟩ := bind_eq_ok.1 h
  cases pure_eq_ok.1 h
  obtain ⟨below, hbelow⟩ := current_eq_ok hs
  refine ⟨s, s', below, hbelow, hpush, ?_⟩
  rw [setCurrent, hbelow]
  rfl

lemma ahead_of_next (h : ctx.next = .ok (token, ctx')) :
    ∃ s below, ctx'.files = s :: below ∧ ctx.ahead = some (token, s) := by
  obtain ⟨s, s', below, hfiles, hnext, hfiles', -⟩ := next_eq_ok h
  refine ⟨s', below, hfiles', ?_⟩
  rw [ahead, hfiles, List.head?_cons, Option.bind_some, hnext]
  rfl

lemma wordAhead_of_next (h : ctx.next = .ok (token, ctx')) :
    ctx.wordAhead = token.lexeme.wordText? := by
  obtain ⟨s, below, -, hahead⟩ := ahead_of_next h
  rw [wordAhead, hahead]
  rfl

lemma ahead_of_pushBack (h : ctx.next = .ok (token, ctx')) (hp : ctx'.pushBack = .ok ctx'') :
    ctx''.ahead = ctx.ahead := by
  obtain ⟨s, s', below, hfiles, hnext, hfiles', -⟩ := next_eq_ok h
  obtain ⟨t, t', below', ht, hpush, hfiles''⟩ := pushBack_eq_ok hp
  rw [hfiles'] at ht
  cases ht
  rw [ahead, ahead, hfiles'', hfiles, List.head?_cons, List.head?_cons, Option.bind_some,
    Option.bind_some, hnext, TokenStream.next_pushBack hnext hpush]

lemma ahead_ne_of_reads (h : ctx.next = .ok (token, ctx')) (hend : token.lexeme ≠ .fileEnd)
    (hr : Reads 0 ctx' ctx'') : ctx''.ahead ≠ ctx.ahead := by
  intro heq
  obtain ⟨s, below, hfiles', hahead⟩ := ahead_of_next h
  obtain ⟨a, b, below', ha, hb, hab⟩ := hr.files
  rw [hfiles'] at ha
  cases ha
  rw [hahead, ahead, hb, List.head?_cons, Option.bind_some] at heq
  cases hnext : b.next with
  | error damage =>
    rw [hnext] at heq
    cases heq
  | ok result =>
    rw [hnext] at heq
    cases heq
    have hafter := (TokenStream.next_after hnext).1.2
    have := hab.2
    rw [if_neg hend] at hafter
    omega

lemma location_eq_ok {location : Location} (h : ctx.location = .ok location) :
    ctx.location? = some location := by
  obtain ⟨s, hs, h⟩ := bind_eq_ok.1 h
  cases pure_eq_ok.1 h
  rw [location?, current_eq_head hs]
  rfl

lemma headerEvents_eq {location : Location} (h : ctx.location = .ok location) (kind : EntryKind)
    (symbol : Option String) :
    ctx.headerEvents kind symbol = [.header ⟨kind, symbol, location⟩] := by
  rw [headerEvents, location_eq_ok h]
  rfl

lemma promptEvents_eq {keyword : String} {d : Directive}
    (h : ctx.directiveAhead .prompt keyword = some d) :
    ctx.promptEvents keyword = [.directive d] := by
  rw [promptEvents, h]
  rfl

end Context

namespace State

open Context

variable {fs : FileSystem} {s : State} {p : Progress} {ctx : Context} {token : Token}
  {word : String} {keyword : BlockKeyword}

lemma openConfig_effect {isMenu : Bool} {word : String} {opened : Frame × Context}
    (hscope : ctx.scope = s.ctx.scope)
    (hholds : s.frame.entry.kind.holds (if isMenu then .menuconfig else .config) = true)
    (h : Frame.openConfig ctx isMenu word = .ok opened) :
    Effect s (ctx.keywordEvents word (.config isMenu)) (s.descend opened) := by
  obtain ⟨location, hlocation, h⟩ := bind_eq_ok.1 h
  obtain ⟨⟨token, ctx₁⟩, hnext, h⟩ := bind_eq_ok.1 h
  have hquiet := next_quiet hnext
  dsimp only at h
  split at h
  · cases h
  · rename_i symbol hsymbol
    cases pure_eq_ok.1 h
    rw [keywordEvents, headerEvents_eq hlocation, wordAhead_of_next hnext, hsymbol]
    refine .header _ hholds ?_ (hquiet.scope.trans hscope) rfl ?_
    · cases isMenu <;> rfl
    · rw [scope_define]
      exact hquiet.scope.trans hscope

lemma openComment_effect {opened : Frame × Context} (hscope : ctx.scope = s.ctx.scope)
    (hholds : s.frame.entry.kind.holds .comment = true)
    (h : Frame.openComment ctx = .ok opened) :
    Effect s (ctx.keywordEvents word .comment) (s.descend opened) := by
  obtain ⟨location, hlocation, h⟩ := bind_eq_ok.1 h
  obtain ⟨⟨e, ctx₁⟩, hread, h⟩ := bind_eq_ok.1 h
  cases pure_eq_ok.1 h
  obtain ⟨d, site, slips, hd, rfl, hquiet⟩ := readDirective_eq_ok hread
  rw [keywordEvents, headerEvents_eq hlocation, promptEvents_eq hd]
  exact .headerWith ⟨.comment, none, location⟩ _ site slips d hholds rfl
    (hquiet.scope.trans hscope) rfl (hquiet.scope.trans hscope)

lemma openMenu_effect {opened : Frame × Context} (hscope : ctx.scope = s.ctx.scope)
    (hholds : s.frame.entry.kind.holds .menu = true)
    (h : Frame.openMenu ctx = .ok opened) :
    Effect s (ctx.keywordEvents word .menu) (s.descend opened) := by
  obtain ⟨location, hlocation, h⟩ := bind_eq_ok.1 h
  obtain ⟨⟨e, ctx₁⟩, hread, h⟩ := bind_eq_ok.1 h
  cases pure_eq_ok.1 h
  obtain ⟨d, site, slips, hd, rfl, hquiet⟩ := readDirective_eq_ok hread
  rw [keywordEvents, headerEvents_eq hlocation, promptEvents_eq hd]
  exact .headerWith ⟨.menu, none, location⟩ _ site slips d hholds rfl
    (hquiet.scope.trans hscope) rfl (hquiet.scope.trans hscope)

lemma openChoice_effect {opened : Frame × Context} (hscope : ctx.scope = s.ctx.scope)
    (hholds : s.frame.entry.kind.holds .choice = true)
    (h : Frame.openChoice ctx = .ok opened) :
    Effect s (ctx.keywordEvents word .choice) (s.descend opened) := by
  obtain ⟨location, hlocation, h⟩ := bind_eq_ok.1 h
  obtain ⟨⟨token, ctx₁⟩, hnext, h⟩ := bind_eq_ok.1 h
  have hquiet := next_quiet hnext
  rw [keywordEvents, headerEvents_eq hlocation, wordAhead_of_next hnext]
  dsimp only at h
  split at h
  · obtain ⟨ctx₂, hpush, h⟩ := bind_eq_ok.1 h
    cases pure_eq_ok.1 h
    have hscope' := (hquiet.trans (pushBack_quiet hpush)).scope.trans hscope
    exact .header ⟨.choice, _, location⟩ hholds rfl hscope' rfl hscope'
  · obtain ⟨ctx₂, hpure, h⟩ := bind_eq_ok.1 h
    cases pure_eq_ok.1 hpure
    cases pure_eq_ok.1 h
    have hscope' := hquiet.scope.trans hscope
    exact .header ⟨.choice, _, location⟩ hholds rfl hscope' rfl hscope'

lemma readIf_effect {ctx' : Context} (hscope : ctx.scope = s.ctx.scope)
    (h : ctx.readIf = .ok ctx') : Effect s (ctx.keywordEvents word .openIf) (s.goOn ctx') := by
  obtain ⟨condition, mid, hvalue, hquiet, rfl⟩ := readIf_eq_ok h
  rw [keywordEvents, hvalue]
  exact .openIf condition (congrArg (· ++ [condition]) hscope)

lemma readEndif_effect {ctx' : Context} (hscope : ctx.scope = s.ctx.scope)
    (h : ctx.readEndif = .ok ctx') : Effect s (ctx.keywordEvents word .closeIf) (s.goOn ctx') := by
  obtain ⟨-, rfl⟩ := readEndif_eq_ok h
  exact .closeIf (congrArg List.dropLast hscope)

lemma close_files (s : State) (ctx : Context) : (s.close ctx).ctx.files = ctx.files := by
  unfold close
  dsimp only
  split
  all_goals
    dsimp only [Progress.ctx]
    split
    · rw [files_setSymbol]
    · rw [files_define]
    · rfl

lemma close_root (s : State) (ctx : Context) : (s.close ctx).ctx.root = ctx.root := by
  unfold close
  dsimp only
  split
  all_goals
    dsimp only [Progress.ctx]
    split
    · rw [root_setSymbol]
    · rw [root_define]
    · rfl

lemma close_effect {kind : EntryKind} (hscope : ctx.scope = s.ctx.scope)
    (hkind : s.frame.entry.kind = kind) : Effect s [.close kind] (s.close ctx) := by
  rw [← hkind]
  exact .close hscope

lemma events_of_fileEnd (hnext : s.ctx.next = .ok (token, ctx)) (hlex : token.lexeme = .fileEnd) :
    s.events p =
      if s.frame.entry.kind.isBlock ∧ s.frame.depth < ctx.depth then []
      else [.close s.frame.entry.kind] := by
  rw [events, hnext]
  dsimp only
  rw [hlex]

lemma events_of_directive (hnext : s.ctx.next = .ok (token, ctx)) (hlex : token.lexeme = .word word)
    (hkeyword : BlockKeyword.ofWord? word = none) :
    s.events p = (s.directiveAt ctx word).toList.map .directive := by
  rw [events, hnext]
  dsimp only
  rw [hlex]
  dsimp only
  rw [hkeyword]

lemma events_of_keyword (hnext : s.ctx.next = .ok (token, ctx)) (hlex : token.lexeme = .word word)
    (hkeyword : BlockKeyword.ofWord? word = some keyword) :
    s.events p = (if s.frame.entry.kind.isBlock then [] else [.close s.frame.entry.kind]) ++
      if p.ctx.ahead = s.ctx.ahead then [] else ctx.keywordEvents word keyword := by
  rw [events, hnext]
  dsimp only
  rw [hlex]
  dsimp only
  rw [hkeyword]

lemma effect_of_taken (hnext : s.ctx.next = .ok (token, ctx)) (hlex : token.lexeme = .word word)
    (hkeyword : BlockKeyword.ofWord? word = some keyword)
    (hblock : s.frame.entry.kind.isBlock = true) (hr : Reads 0 ctx p.ctx)
    (he : Effect s (ctx.keywordEvents word keyword) p) : Effect s (s.events p) p := by
  have htaken : p.ctx.ahead ≠ s.ctx.ahead := by
    refine ahead_ne_of_reads hnext ?_ hr
    rw [hlex]
    exact Lexeme.noConfusion
  rw [events_of_keyword hnext hlex hkeyword, if_pos hblock, if_neg htaken, List.nil_append]
  exact he

lemma readSource_effect {ctx' : Context} {kind : SourceKind}
    (hnext : s.ctx.next = .ok (token, ctx)) (hlex : token.lexeme = .word word)
    (hkeyword : BlockKeyword.ofWord? word = some (.source kind))
    (hblock : s.frame.entry.kind.isBlock = true) (h : ctx.readSource fs kind = .ok ctx') :
    Effect s (s.events (s.goOn ctx')) (s.goOn ctx') := by
  rw [events_of_keyword hnext hlex hkeyword, if_pos hblock, keywordEvents, ite_self]
  exact .pass ((readSource_quiet h).scope.trans (next_quiet hnext).scope)

lemma stepDirective_effect (hscope : ctx.scope = s.ctx.scope)
    (hvisible : ¬(s.frame.entry.kind = .menu ∧ word = "visible"))
    (h : s.stepDirective ctx word = .ok p) :
    Effect s ((s.directiveAt ctx word).toList.map .directive) p := by
  have hskip : ∀ kind, (do return s.goOn (← ctx.unrecognized kind word)) = .ok p →
      Effect s [] p := by
    intro kind h
    obtain ⟨ctx', hskip, h⟩ := bind_eq_ok.1 h
    cases pure_eq_ok.1 h
    exact .pass ((unrecognized_quiet hskip).scope.trans hscope)
  unfold stepDirective at h
  rw [directiveAt, if_neg hvisible]
  dsimp only at h
  cases hword : DirectiveKind.ofKeyword? word with
  | none =>
    rw [hword] at h
    exact hskip _ h
  | some directive =>
    rw [hword] at h
    dsimp only at h ⊢
    by_cases hknown : directive.isKnownIn s.frame.entry.kind = true
    · rw [if_pos hknown] at h ⊢
      obtain ⟨⟨e, ctx'⟩, hread, h⟩ := bind_eq_ok.1 h
      cases pure_eq_ok.1 h
      obtain ⟨d, site, slips, hd, rfl, hquiet⟩ := readDirective_eq_ok hread
      rw [hd]
      exact .directive _ site slips d (hquiet.scope.trans hscope)
    · rw [if_neg hknown] at h ⊢
      exact hskip _ h

lemma stepLeaf_effect (hnext : s.ctx.next = .ok (token, ctx)) (hlex : token.lexeme = .word word)
    (hleaf : s.frame.entry.kind.isBlock = false) (h : s.stepLeaf ctx word = .ok p) :
    Effect s (s.events p) p := by
  have hscope := (next_quiet hnext).scope
  unfold stepLeaf at h
  split at h
  · rename_i keyword hkeyword
    obtain ⟨ctx', hpush, h⟩ := bind_eq_ok.1 h
    cases pure_eq_ok.1 h
    have hback : (s.close ctx').ctx.ahead = s.ctx.ahead :=
      (ahead_congr (close_files s ctx')).trans (ahead_of_pushBack hnext hpush)
    rw [events_of_keyword hnext hlex hkeyword, hleaf, if_pos hback]
    exact .close ((pushBack_quiet hpush).scope.trans hscope)
  · rename_i hkeyword
    rw [events_of_directive hnext hlex hkeyword]
    refine stepDirective_effect hscope ?_ h
    rintro ⟨hmenu, -⟩
    rw [hmenu] at hleaf
    cases hleaf

lemma stepChoice_effect (hnext : s.ctx.next = .ok (token, ctx)) (hlex : token.lexeme = .word word)
    (hkind : s.frame.entry.kind = .choice) (h : s.stepChoice fs ctx word = .ok p) :
    Effect s (s.events p) p := by
  have hscope := (next_quiet hnext).scope
  have hne := (next_reads hnext).ne_nil
  have hblock : s.frame.entry.kind.isBlock = true := by rw [hkind]; rfl
  unfold stepChoice at h
  dsimp only at h
  split at h
  · rename_i hkeyword
    rw [events_of_directive hnext hlex hkeyword]
    refine stepDirective_effect hscope ?_ h
    rintro ⟨hmenu, -⟩
    rw [hmenu] at hkind
    cases hkind
  · rename_i hkeyword
    obtain ⟨-, -, h⟩ := bind_eq_ok.1 h
    cases pure_eq_ok.1 h
    exact effect_of_taken hnext hlex hkeyword hblock
      ((Reads.refl hne).congr (close_root s ctx) (close_files s ctx)) (close_effect hscope hkind)
  · rename_i isMenu hkeyword
    obtain ⟨opened, hopen, h⟩ := bind_eq_ok.1 h
    cases pure_eq_ok.1 h
    have hholds : s.frame.entry.kind.holds (if isMenu then .menuconfig else .config) = true := by
      rw [hkind]
      cases isMenu <;> rfl
    exact effect_of_taken hnext hlex hkeyword hblock (Frame.openConfig_reads hopen)
      (openConfig_effect hscope hholds hopen)
  · rename_i hkeyword
    obtain ⟨opened, hopen, h⟩ := bind_eq_ok.1 h
    cases pure_eq_ok.1 h
    have hholds : s.frame.entry.kind.holds .comment = true := by rw [hkind]; rfl
    exact effect_of_taken hnext hlex hkeyword hblock (Frame.openComment_reads hne hopen)
      (openComment_effect hscope hholds hopen)
  · rename_i kind hkeyword
    obtain ⟨ctx', hsource, h⟩ := bind_eq_ok.1 h
    cases pure_eq_ok.1 h
    exact readSource_effect hnext hlex hkeyword hblock hsource
  · rename_i hkeyword
    obtain ⟨ctx', hif, h⟩ := bind_eq_ok.1 h
    cases pure_eq_ok.1 h
    exact effect_of_taken hnext hlex hkeyword hblock (readIf_reads hif) (readIf_effect hscope hif)
  · rename_i hkeyword
    obtain ⟨ctx', hif, h⟩ := bind_eq_ok.1 h
    cases pure_eq_ok.1 h
    exact effect_of_taken hnext hlex hkeyword hblock (readEndif_reads hne hif)
      (readEndif_effect hscope hif)
  all_goals cases h

lemma stepMainMenu_effect (hnext : s.ctx.next = .ok (token, ctx)) (hlex : token.lexeme = .word word)
    (hkeyword : BlockKeyword.ofWord? word = some .mainMenu)
    (hkind : s.frame.entry.kind = .menu) (h : s.stepMainMenu ctx word = .ok p) :
    Effect s (s.events p) p := by
  have hscope := (next_quiet hnext).scope
  have hne := (next_reads hnext).ne_nil
  have hblock : s.frame.entry.kind.isBlock = true := by rw [hkind]; rfl
  unfold stepMainMenu at h
  dsimp only at h
  split at h
  · cases h
  · rename_i htop
    split at h
    · cases h
    · obtain ⟨location, -, h⟩ := bind_eq_ok.1 h
      obtain ⟨⟨e, ctx'⟩, hread, h⟩ := bind_eq_ok.1 h
      cases pure_eq_ok.1 h
      refine effect_of_taken hnext hlex hkeyword hblock (readDirective_reads hne hread) ?_
      obtain ⟨d, site, slips, hd, rfl, hquiet⟩ := readDirective_eq_ok hread
      rw [keywordEvents, promptEvents_eq hd]
      refine .mainMenu _ site slips d location ?_ (hquiet.scope.trans hscope)
      simpa using htop

lemma stepMenu_effect (hnext : s.ctx.next = .ok (token, ctx)) (hlex : token.lexeme = .word word)
    (hkind : s.frame.entry.kind = .menu) (h : s.stepMenu fs ctx word = .ok p) :
    Effect s (s.events p) p := by
  have hscope := (next_quiet hnext).scope
  have hne := (next_reads hnext).ne_nil
  have hblock : s.frame.entry.kind.isBlock = true := by rw [hkind]; rfl
  have hholds : ∀ child, s.frame.entry.kind.holds child = true := by
    intro child
    rw [hkind]
    rfl
  unfold stepMenu at h
  dsimp only at h
  split at h
  · rename_i hkeyword
    rw [events_of_directive hnext hlex hkeyword]
    split at h
    · rename_i hvisible
      obtain ⟨⟨e, ctx'⟩, hread, h⟩ := bind_eq_ok.1 h
      cases pure_eq_ok.1 h
      obtain ⟨d, site, slips, hd, rfl, hquiet⟩ := readExtra_eq_ok hread
      rw [directiveAt, if_pos ⟨hkind, hvisible⟩, hd]
      exact .directive _ site slips d (hquiet.scope.trans hscope)
    · rename_i hvisible
      exact stepDirective_effect hscope (fun hmenu => hvisible hmenu.2) h
  · rename_i hkeyword
    split at h
    · cases h
    · obtain ⟨-, -, h⟩ := bind_eq_ok.1 h
      cases pure_eq_ok.1 h
      exact effect_of_taken hnext hlex hkeyword hblock
        ((Reads.refl hne).congr (close_root s ctx) (close_files s ctx)) (close_effect hscope hkind)
  · rename_i isMenu hkeyword
    obtain ⟨opened, hopen, h⟩ := bind_eq_ok.1 h
    cases pure_eq_ok.1 h
    exact effect_of_taken hnext hlex hkeyword hblock (Frame.openConfig_reads hopen)
      (openConfig_effect hscope (hholds _) hopen)
  · rename_i hkeyword
    obtain ⟨opened, hopen, h⟩ := bind_eq_ok.1 h
    cases pure_eq_ok.1 h
    exact effect_of_taken hnext hlex hkeyword hblock (Frame.openChoice_reads hopen)
      (openChoice_effect hscope (hholds _) hopen)
  · rename_i hkeyword
    obtain ⟨opened, hopen, h⟩ := bind_eq_ok.1 h
    cases pure_eq_ok.1 h
    exact effect_of_taken hnext hlex hkeyword hblock (Frame.openComment_reads hne hopen)
      (openComment_effect hscope (hholds _) hopen)
  · rename_i hkeyword
    obtain ⟨opened, hopen, h⟩ := bind_eq_ok.1 h
    cases pure_eq_ok.1 h
    exact effect_of_taken hnext hlex hkeyword hblock (Frame.openMenu_reads hne hopen)
      (openMenu_effect hscope (hholds _) hopen)
  · rename_i kind hkeyword
    obtain ⟨ctx', hsource, h⟩ := bind_eq_ok.1 h
    cases pure_eq_ok.1 h
    exact readSource_effect hnext hlex hkeyword hblock hsource
  · rename_i hkeyword
    obtain ⟨ctx', hif, h⟩ := bind_eq_ok.1 h
    cases pure_eq_ok.1 h
    exact effect_of_taken hnext hlex hkeyword hblock (readIf_reads hif) (readIf_effect hscope hif)
  · rename_i hkeyword
    obtain ⟨ctx', hif, h⟩ := bind_eq_ok.1 h
    cases pure_eq_ok.1 h
    exact effect_of_taken hnext hlex hkeyword hblock (readEndif_reads hne hif)
      (readEndif_effect hscope hif)
  · cases h
  · rename_i hkeyword
    exact stepMainMenu_effect hnext hlex hkeyword hkind h

lemma stepFileEnd_effect (hnext : s.ctx.next = .ok (token, ctx)) (hlex : token.lexeme = .fileEnd)
    (h : s.stepFileEnd ctx = .ok p) : Effect s (s.events p) p := by
  have hscope := (next_quiet hnext).scope
  rw [events_of_fileEnd hnext hlex]
  have hleaf : s.frame.entry.kind.isBlock = false → ∀ ctx', ctx.pushBack = .ok ctx' →
      p = s.close ctx' → Effect s (if s.frame.entry.kind.isBlock ∧ s.frame.depth < ctx.depth then []
        else [.close s.frame.entry.kind]) p := by
    intro hblock ctx' hpush hp
    rw [hblock, if_neg (by simp), hp]
    exact .close ((pushBack_quiet hpush).scope.trans hscope)
  unfold stepFileEnd at h
  dsimp only at h
  split at h
  · rename_i c hentry
    obtain ⟨ctx', hpush, h⟩ := bind_eq_ok.1 h
    refine hleaf ?_ ctx' hpush (pure_eq_ok.1 h).symm
    rw [hentry]
    exact Entry.isBlock_config c
  · rename_i c hentry
    obtain ⟨ctx', hpush, h⟩ := bind_eq_ok.1 h
    refine hleaf ?_ ctx' hpush (pure_eq_ok.1 h).symm
    rw [hentry]
    rfl
  · rename_i c hentry
    split at h
    · rename_i hdepth
      cases pure_eq_ok.1 h
      rw [hentry, if_pos ⟨rfl, hdepth⟩]
      exact .pass hscope
    · cases h
  · rename_i head visibleIf children hentry
    split at h
    · rename_i hdepth
      cases pure_eq_ok.1 h
      rw [hentry, if_pos ⟨rfl, hdepth⟩]
      exact .pass hscope
    · rename_i hdepth
      split at h
      · cases h
      · split at h
        · cases h
        · cases pure_eq_ok.1 h
          rw [if_neg fun hdeep => hdepth hdeep.2]
          exact .close hscope

/-- The effect of every step is that of the events it takes. -/
theorem step_effect (h : s.step fs = .ok p) : Effect s (s.events p) p := by
  obtain ⟨⟨token, ctx⟩, hnext, h⟩ := bind_eq_ok.1 h
  have hscope := (next_quiet hnext).scope
  dsimp only at h
  split at h
  · rename_i hlex
    exact stepFileEnd_effect hnext hlex h
  · rename_i hlex
    cases pure_eq_ok.1 h
    rw [events, hnext]
    dsimp only
    rw [hlex]
    exact .pass hscope
  · rename_i word hlex
    split at h
    · rename_i c hentry
      refine stepLeaf_effect hnext hlex ?_ h
      rw [hentry]
      exact Entry.isBlock_config c
    · rename_i c hentry
      exact stepLeaf_effect hnext hlex (by rw [hentry]; rfl) h
    · rename_i c hentry
      exact stepChoice_effect hnext hlex (by rw [hentry]; rfl) h
    · rename_i head visibleIf children hentry
      exact stepMenu_effect hnext hlex (by rw [hentry]; rfl) h
  · rename_i hend hline hword
    obtain ⟨ctx', hskip, h⟩ := bind_eq_ok.1 h
    cases pure_eq_ok.1 h
    rw [events, hnext]
    dsimp only
    split
    · rename_i hlex
      exact absurd hlex hend
    · rename_i word hlex
      exact absurd hlex (hword word)
    · exact .pass ((unrecognized_quiet hskip).scope.trans hscope)

end State

end Kconfig
