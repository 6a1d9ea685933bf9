import Kconfig.Proofs.Effect

/-!
# Steps as a relation

`Takes fs s token ctx p` says that in the state `s`, once `token` has been delivered and left the
context `ctx`, the step leads to `p`. It has one case for each sort of token, with the requests that
the step makes. `State.step_eq_ok` shows that these are exactly the steps that do not fail, so that
statements about steps can be proved by cases on the relation.
-/

namespace Kconfig

def BlockKeyword.opening? : BlockKeyword → Option Opening
  | .config isMenu => some (.config isMenu)
  | .choice => some .choice
  | .comment => some .comment
  | .menu => some .menu
  | _ => none

def Opening.kind : Opening → EntryKind
  | .config isMenu => if isMenu then .menuconfig else .config
  | .choice => .choice
  | .comment => .comment
  | .menu => .menu
  | .top => .menu

/-- The keyword that ends a block of the given kind. -/
def EntryKind.endKeyword? : EntryKind → Option BlockKeyword
  | .choice => some .endChoice
  | .menu => some .endMenu
  | _ => none

lemma EntryKind.endKeyword?_of_leaf {kind : EntryKind} (h : kind.isBlock = false) :
    kind.endKeyword? = none := by
  cases kind with
  | choice => cases h
  | menu => cases h
  | _ => rfl

/-- What is skipped in an entry when it meets the lexeme. -/
def Entry.unknown? (e : Entry) : Lexeme → Option String
  | .word word =>
    if BlockKeyword.ofWord? word ≠ none ∨ (e.kind = .menu ∧ word = "visible") then none
    else
      match DirectiveKind.ofKeyword? word with
      | some directive => if directive.isKnownIn e.kind then none else some word
      | none => some word
  | .lineEnd => none
  | .fileEnd => none
  | lexeme => some lexeme.written

inductive Takes (fs : FileSystem) (s : State) (token : Token) (ctx : Context) :
    Progress → Prop where
  | lineEnd (hlex : token.lexeme = .lineEnd) : Takes fs s token ctx (s.goOn ctx)
  | skip {ctx' : Context} {text : String} (hlex : s.frame.entry.unknown? token.lexeme = some text)
    (h : ctx.unrecognized s.frame.entry.kind text = .ok ctx') : Takes fs s token ctx (s.goOn ctx')
  | directive {word : String} {directive : DirectiveKind} {result : Entry × Context}
    (hlex : token.lexeme = .word word) (hword : BlockKeyword.ofWord? word = none)
    (hvisible : ¬(s.frame.entry.kind = .menu ∧ word = "visible"))
    (hdirective : DirectiveKind.ofKeyword? word = some directive)
    (hknown : directive.isKnownIn s.frame.entry.kind = true)
    (h : ctx.readDirective directive word s.frame.entry = .ok result) :
    Takes fs s token ctx (s.update result)
  | visible {result : Entry × Context} (hlex : token.lexeme = .word "visible")
    (hkind : s.frame.entry.kind = .menu)
    (h : ctx.readExtra Directive.readVisible s.frame.entry = .ok result) :
    Takes fs s token ctx (s.update result)
  | mainMenu {word : String} {location : Location} {result : Entry × Context}
    (hlex : token.lexeme = .word word) (hword : BlockKeyword.ofWord? word = some .mainMenu)
    (hkind : s.frame.entry.kind = .menu) (htop : s.frame.isTop = true)
    (hprompt : s.frame.entry.head.prompt = none) (hlocation : ctx.location = .ok location)
    (h : ctx.readDirective .prompt word
      (s.frame.entry.setHead { s.frame.entry.head with location }) = .ok result) :
    Takes fs s token ctx (s.update result)
  | header {word : String} {keyword : BlockKeyword} {opening : Opening} {opened : Frame × Context}
    (hlex : token.lexeme = .word word) (hword : BlockKeyword.ofWord? word = some keyword)
    (hopening : keyword.opening? = some opening)
    (hholds : s.frame.entry.kind.holds opening.kind = true)
    (h : ctx.openFrame opening = .ok opened) : Takes fs s token ctx (s.descend opened)
  | source {word : String} {kind : SourceKind} {ctx' : Context} (hlex : token.lexeme = .word word)
    (hword : BlockKeyword.ofWord? word = some (.source kind))
    (hblock : s.frame.entry.kind.isBlock = true) (h : ctx.readSource fs kind = .ok ctx') :
    Takes fs s token ctx (s.goOn ctx')
  | openIf {word : String} {ctx' : Context} (hlex : token.lexeme = .word word)
    (hword : BlockKeyword.ofWord? word = some .openIf)
    (hblock : s.frame.entry.kind.isBlock = true) (h : ctx.readIf = .ok ctx') :
    Takes fs s token ctx (s.goOn ctx')
  | closeIf {word : String} {ctx' : Context} (hlex : token.lexeme = .word word)
    (hword : BlockKeyword.ofWord? word = some .closeIf)
    (hblock : s.frame.entry.kind.isBlock = true) (h : ctx.readEndif = .ok ctx') :
    Takes fs s token ctx (s.goOn ctx')
  | blockEnd {word : String} {keyword : BlockKeyword} (hlex : token.lexeme = .word word)
    (hword : BlockKeyword.ofWord? word = some keyword)
    (hkeyword : s.frame.entry.kind.endKeyword? = some keyword)
    (htop : s.frame.entry.kind = .menu → s.frame.isTop = false)
    (h : ctx.checkBlockEnd s.frame.entry word s.frame.depth s.frame.scope = .ok ()) :
    Takes fs s token ctx (s.close ctx)
  /-- An entry that holds no others ends in front of a block keyword and at the end of its file. -/
  | leafEnd {ctx' : Context} (hleaf : s.frame.entry.kind.isBlock = false)
    (hlex : token.lexeme = .fileEnd ∨
      ∃ word, token.lexeme = .word word ∧ BlockKeyword.ofWord? word ≠ none)
    (h : ctx.pushBack = .ok ctx') : Takes fs s token ctx (s.close ctx')
  | fileEnd (hlex : token.lexeme = .fileEnd) (hblock : s.frame.entry.kind.isBlock = true)
    (hdepth : s.frame.depth < ctx.depth) : Takes fs s token ctx (s.goOn ctx.closeFile)
  | topEnd (hlex : token.lexeme = .fileEnd) (hkind : s.frame.entry.kind = .menu)
    (htop : s.frame.isTop = true) (hdepth : ctx.depth ≤ s.frame.depth) (hscope : ctx.scope = []) :
    Takes fs s token ctx (s.close ctx)

namespace Takes

variable {fs : FileSystem} {s : State} {token : Token} {ctx : Context} {p : Progress}

lemma lineEnd_eq (hlex : token.lexeme = .lineEnd) (h : Takes fs s token ctx p) :
    p = s.goOn ctx := by
  cases h with
  | lineEnd => rfl
  | _ => simp_all [Entry.unknown?]

lemma fileEnd_eq (hblock : s.frame.entry.kind.isBlock = true) (hlex : token.lexeme = .fileEnd)
    (h : Takes fs s token ctx p) :
    (p = s.goOn ctx.closeFile ∧ s.frame.depth < ctx.depth) ∨
      (p = s.close ctx ∧ s.frame.entry.kind = .menu ∧ s.frame.isTop = true ∧
        ctx.depth ≤ s.frame.depth ∧ ctx.scope = []) := by
  cases h with
  | fileEnd hlex hblock hdepth => exact .inl ⟨rfl, hdepth⟩
  | topEnd hlex hkind htop hdepth hscope => exact .inr ⟨rfl, hkind, htop, hdepth, hscope⟩
  | _ => simp_all [Entry.unknown?]

end Takes

namespace State

open Context

variable {fs : FileSystem} {s : State} {token : Token} {ctx : Context} {p : Progress}
  {word : String}

lemma openConfig_eq_openFrame {isMenu : Bool}
    (hword : BlockKeyword.ofWord? word = some (.config isMenu)) :
    Frame.openConfig ctx isMenu word = ctx.openFrame (.config isMenu) := by
  unfold BlockKeyword.ofWord? at hword
  split at hword
  all_goals try cases hword
  · rfl
  · rfl
  · obtain ⟨kind, -, hkind⟩ := Option.map_eq_some_iff.1 hword
    cases hkind

lemma takes_of_stepDirective (hlex : token.lexeme = .word word)
    (hword : BlockKeyword.ofWord? word = none)
    (hvisible : ¬(s.frame.entry.kind = .menu ∧ word = "visible"))
    (h : s.stepDirective ctx word = .ok p) : Takes fs s token ctx p := by
  unfold stepDirective at h
  dsimp only at h
  cases hdirective : DirectiveKind.ofKeyword? word with
  | none =>
    rw [hdirective] at h
    obtain ⟨ctx', hskip, h⟩ := bind_eq_ok.1 h
    cases pure_eq_ok.1 h
    refine .skip ?_ hskip
    simp [Entry.unknown?, hlex, hword, hvisible, hdirective]
  | some directive =>
    rw [hdirective] at h
    dsimp only at h
    by_cases hknown : directive.isKnownIn s.frame.entry.kind = true
    · rw [if_pos hknown] at h
      obtain ⟨result, hread, h⟩ := bind_eq_ok.1 h
      cases pure_eq_ok.1 h
      exact .directive hlex hword hvisible hdirective hknown hread
    · rw [if_neg hknown] at h
      obtain ⟨ctx', hskip, h⟩ := bind_eq_ok.1 h
      cases pure_eq_ok.1 h
      refine .skip ?_ hskip
      simp [Entry.unknown?, hlex, hword, hvisible, hdirective, hknown]

lemma takes_of_stepLeaf (hlex : token.lexeme = .word word)
    (hleaf : s.frame.entry.kind.isBlock = false) (h : s.stepLeaf ctx word = .ok p) :
    Takes fs s token ctx p := by
  unfold stepLeaf at h
  split at h
  · rename_i keyword hword
    obtain ⟨ctx', hpush, h⟩ := bind_eq_ok.1 h
    cases pure_eq_ok.1 h
    refine .leafEnd hleaf (.inr ⟨word, hlex, ?_⟩) hpush
    simp [hword]
  · rename_i hword
    refine takes_of_stepDirective hlex hword ?_ h
    rintro ⟨hmenu, -⟩
    rw [hmenu] at hleaf
    cases hleaf

lemma takes_of_openFrame {keyword : BlockKeyword} (opening : Opening)
    (hlex : token.lexeme = .word word) (hword : BlockKeyword.ofWord? word = some keyword)
    (hopening : keyword.opening? = some opening)
    (hholds : s.frame.entry.kind.holds opening.kind = true)
    (h : (do return s.descend (← ctx.openFrame opening)) = .ok p) : Takes fs s token ctx p := by
  obtain ⟨opened, hopen, h⟩ := bind_eq_ok.1 h
  cases pure_eq_ok.1 h
  exact .header hlex hword hopening hholds hopen

lemma takes_of_stepChoice (hlex : token.lexeme = .word word)
    (hkind : s.frame.entry.kind = .choice) (h : s.stepChoice fs ctx word = .ok p) :
    Takes fs s token ctx p := by
  have hblock : s.frame.entry.kind.isBlock = true := by rw [hkind]; rfl
  unfold stepChoice at h
  dsimp only at h
  split at h
  · rename_i hword
    exact takes_of_stepDirective hlex hword (by simp [hkind]) h
  · rename_i hword
    obtain ⟨⟨⟩, hcheck, h⟩ := bind_eq_ok.1 h
    cases pure_eq_ok.1 h
    exact .blockEnd hlex hword (by rw [hkind]; rfl) (by simp [hkind]) hcheck
  · rename_i isMenu hword
    rw [openConfig_eq_openFrame hword] at h
    refine takes_of_openFrame (.config isMenu) hlex hword rfl ?_ h
    rw [hkind]
    cases isMenu <;> rfl
  · rename_i hword
    exact takes_of_openFrame .comment hlex hword rfl (by rw [hkind]; rfl) h
  · rename_i kind hword
    obtain ⟨ctx', hsource, h⟩ := bind_eq_ok.1 h
    cases pure_eq_ok.1 h
    exact .source hlex hword hblock hsource
  · rename_i hword
    obtain ⟨ctx', hif, h⟩ := bind_eq_ok.1 h
    cases pure_eq_ok.1 h
    exact .openIf hlex hword hblock hif
  · rename_i hword
    obtain ⟨ctx', hif, h⟩ := bind_eq_ok.1 h
    cases pure_eq_ok.1 h
    exact .closeIf hlex hword hblock hif
  all_goals cases h

lemma takes_of_stepMainMenu (hlex : token.lexeme = .word word)
    (hword : BlockKeyword.ofWord? word = some .mainMenu)
    (hkind : s.frame.entry.kind = .menu) (h : s.stepMainMenu ctx word = .ok p) :
    Takes fs s token ctx p := by
  unfold stepMainMenu at h
  dsimp only at h
  split at h
  · cases h
  · rename_i htop
    split at h
    · cases h
    · rename_i hprompt
      obtain ⟨location, hlocation, h⟩ := bind_eq_ok.1 h
      obtain ⟨result, hread, h⟩ := bind_eq_ok.1 h
      cases pure_eq_ok.1 h
      exact .mainMenu hlex hword hkind (by simpa using htop) (by simpa using hprompt) hlocation
        hread

lemma takes_of_stepMenu (hlex : token.lexeme = .word word)
    (hkind : s.frame.entry.kind = .menu) (h : s.stepMenu fs ctx word = .ok p) :
    Takes fs s token ctx p := by
  have hblock : s.frame.entry.kind.isBlock = true := by rw [hkind]; rfl
  have hholds : ∀ child, s.frame.entry.kind.holds child = true := by
    intro child
    rw [hkind]
    rfl
  unfold stepMenu at h
  dsimp only at h
  split at h
  · rename_i hword
    split at h
    · rename_i hvisible
      obtain ⟨result, hread, h⟩ := bind_eq_ok.1 h
      cases pure_eq_ok.1 h
      exact .visible (by rw [hlex, hvisible]) hkind hread
    · rename_i hvisible
      exact takes_of_stepDirective hlex hword (fun hmenu => hvisible hmenu.2) h
  · rename_i hword
    split at h
    · cases h
    · rename_i htop
      obtain ⟨⟨⟩, hcheck, h⟩ := bind_eq_ok.1 h
      cases pure_eq_ok.1 h
      exact .blockEnd hlex hword (by rw [hkind]; rfl) (fun _ => by simpa using htop) hcheck
  · rename_i isMenu hword
    rw [openConfig_eq_openFrame hword] at h
    exact takes_of_openFrame (.config isMenu) hlex hword rfl (hholds _) h
  · rename_i hword
    exact takes_of_openFrame .choice hlex hword rfl (hholds _) h
  · rename_i hword
    exact takes_of_openFrame .comment hlex hword rfl (hholds _) h
  · rename_i hword
    exact takes_of_openFrame .menu hlex hword rfl (hholds _) h
  · rename_i kind hword
    obtain ⟨ctx', hsource, h⟩ := bind_eq_ok.1 h
    cases pure_eq_ok.1 h
    exact .source hlex hword hblock hsource
  · rename_i hword
    obtain ⟨ctx', hif, h⟩ := bind_eq_ok.1 h
    cases pure_eq_ok.1 h
    exact .openIf hlex hword hblock hif
  · rename_i hword
    obtain ⟨ctx', hif, h⟩ := bind_eq_ok.1 h
    cases pure_eq_ok.1 h
    exact .closeIf hlex hword hblock hif
  · cases h
  · rename_i hword
    exact takes_of_stepMainMenu hlex hword hkind h

lemma takes_of_stepFileEnd (hlex : token.lexeme = .fileEnd) (h : s.stepFileEnd ctx = .ok p) :
    Takes fs s token ctx p := by
  unfold stepFileEnd at h
  dsimp only at h
  split at h
  · rename_i c hentry
    obtain ⟨ctx', hpush, h⟩ := bind_eq_ok.1 h
    cases pure_eq_ok.1 h
    exact .leafEnd (by rw [hentry]; exact Entry.isBlock_config c) (.inl hlex) hpush
  · rename_i c hentry
    obtain ⟨ctx', hpush, h⟩ := bind_eq_ok.1 h
    cases pure_eq_ok.1 h
    exact .leafEnd (by rw [hentry]; rfl) (.inl hlex) hpush
  · rename_i c hentry
    split at h
    · rename_i hdepth
      cases pure_eq_ok.1 h
      exact .fileEnd hlex (by rw [hentry]; rfl) hdepth
    · cases h
  · rename_i head visibleIf children hentry
    split at h
    · rename_i hdepth
      cases pure_eq_ok.1 h
      exact .fileEnd hlex (by rw [hentry]; rfl) hdepth
    · rename_i hdepth
      split at h
      · cases h
      · rename_i htop
        split at h
        · cases h
        · rename_i hscope
          cases pure_eq_ok.1 h
          exact .topEnd hlex (by rw [hentry]; rfl) (by simpa using htop) (by omega)
            (List.getLast?_eq_none_iff.1 hscope)

lemma takes_of_step (h : s.step fs = .ok p) :
    ∃ token ctx, s.ctx.next = .ok (token, ctx) ∧ Takes fs s token ctx p := by
  obtain ⟨⟨token, ctx⟩, hnext, h⟩ := bind_eq_ok.1 h
  refine ⟨token, ctx, hnext, ?_⟩
  dsimp only at h
  split at h
  · rename_i hlex
    exact takes_of_stepFileEnd hlex h
  · rename_i hlex
    cases pure_eq_ok.1 h
    exact .lineEnd hlex
  · rename_i word hlex
    split at h
    · rename_i c hentry
      exact takes_of_stepLeaf hlex (by rw [hentry]; exact Entry.isBlock_config c) h
    · rename_i c hentry
      exact takes_of_stepLeaf hlex (by rw [hentry]; rfl) h
    · rename_i c hentry
      exact takes_of_stepChoice hlex (by rw [hentry]; rfl) h
    · rename_i head visibleIf children hentry
      exact takes_of_stepMenu hlex (by rw [hentry]; rfl) h
  · rename_i hend hline hword
    obtain ⟨ctx', hskip, h⟩ := bind_eq_ok.1 h
    cases pure_eq_ok.1 h
    have hunknown : s.frame.entry.unknown? token.lexeme = some token.lexeme.written := by
      cases hlex : token.lexeme with
      | word word => exact absurd hlex (hword word)
      | lineEnd => exact absurd hlex hline
      | fileEnd => exact absurd hlex hend
      | _ => rfl
    exact .skip hunknown hskip

lemma step_of_next (hnext : s.ctx.next = .ok (token, ctx)) :
    s.step fs =
      match token.lexeme with
      | .fileEnd => s.stepFileEnd ctx
      | .lineEnd => .ok (s.goOn ctx)
      | .word word =>
        match s.frame.entry with
        | .config _ => s.stepLeaf ctx word
        | .comment _ => s.stepLeaf ctx word
        | .choice _ => s.stepChoice fs ctx word
        | .menu _ _ _ => s.stepMenu fs ctx word
      | lexeme => do return s.goOn (← ctx.unrecognized s.frame.entry.kind lexeme.written) := by
  unfold step
  rw [hnext]
  rfl

lemma step_of_leaf (hnext : s.ctx.next = .ok (token, ctx)) (hlex : token.lexeme = .word word)
    (hleaf : s.frame.entry.kind.isBlock = false) : s.step fs = s.stepLeaf ctx word := by
  rw [step_of_next hnext, hlex]
  cases hentry : s.frame.entry with
  | config c => rfl
  | comment c => rfl
  | _ => simp [hentry, Entry.kind, EntryKind.isBlock] at hleaf

lemma step_of_choice (hnext : s.ctx.next = .ok (token, ctx)) (hlex : token.lexeme = .word word)
    (hkind : s.frame.entry.kind = .choice) : s.step fs = s.stepChoice fs ctx word := by
  obtain ⟨c, hentry⟩ := Entry.eq_choice_of_kind hkind
  rw [step_of_next hnext, hlex, hentry]

lemma step_of_menu (hnext : s.ctx.next = .ok (token, ctx)) (hlex : token.lexeme = .word word)
    (hkind : s.frame.entry.kind = .menu) : s.step fs = s.stepMenu fs ctx word := by
  obtain ⟨head, visibleIf, children, hentry⟩ := Entry.eq_menu_of_kind hkind
  rw [step_of_next hnext, hlex, hentry]

lemma kind_of_isBlock (hblock : s.frame.entry.kind.isBlock = true) :
    s.frame.entry.kind = .choice ∨ s.frame.entry.kind = .menu := by
  cases hkind : s.frame.entry.kind <;> simp_all [EntryKind.isBlock]

lemma step_of_directiveWord (hnext : s.ctx.next = .ok (token, ctx))
    (hlex : token.lexeme = .word word) (hword : BlockKeyword.ofWord? word = none)
    (hvisible : ¬(s.frame.entry.kind = .menu ∧ word = "visible")) :
    s.step fs = s.stepDirective ctx word := by
  by_cases hleaf : s.frame.entry.kind.isBlock = true
  · rcases kind_of_isBlock hleaf with hkind | hkind
    · rw [step_of_choice hnext hlex hkind, stepChoice, hword]
    · rw [step_of_menu hnext hlex hkind, stepMenu, hword]
      exact if_neg fun h => hvisible ⟨hkind, h⟩
  · rw [step_of_leaf hnext hlex (by simpa using hleaf), stepLeaf, hword]

lemma step_of_header {keyword : BlockKeyword} {opening : Opening}
    (hnext : s.ctx.next = .ok (token, ctx)) (hlex : token.lexeme = .word word)
    (hword : BlockKeyword.ofWord? word = some keyword)
    (hopening : keyword.opening? = some opening)
    (hholds : s.frame.entry.kind.holds opening.kind = true) :
    s.step fs = do return s.descend (← ctx.openFrame opening) := by
  have hblock : s.frame.entry.kind.isBlock = true := by
    cases hkind : s.frame.entry.kind <;> simp_all [EntryKind.isBlock, EntryKind.holds]
  rcases kind_of_isBlock hblock with hkind | hkind
  · rw [step_of_choice hnext hlex hkind, stepChoice, hword]
    rw [hkind] at hholds
    cases keyword with
    | config isMenu =>
      cases hopening
      rw [← openConfig_eq_openFrame hword]
    | comment =>
      cases hopening
      rfl
    | choice =>
      cases hopening
      cases hholds
    | menu =>
      cases hopening
      cases hholds
    | _ => cases hopening
  · rw [step_of_menu hnext hlex hkind, stepMenu, hword]
    cases keyword with
    | config isMenu =>
      cases hopening
      rw [← openConfig_eq_openFrame hword]
    | comment =>
      cases hopening
      rfl
    | choice =>
      cases hopening
      rfl
    | menu =>
      cases hopening
      rfl
    | _ => cases hopening

/-- What a keyword asks for that menus and choices have in common. -/
def request? (fs : FileSystem) (ctx : Context) : BlockKeyword → Option (Except Fault Context)
  | .source kind => some (ctx.readSource fs kind)
  | .openIf => some ctx.readIf
  | .closeIf => some ctx.readEndif
  | _ => none

lemma step_of_request {keyword : BlockKeyword} {request : Except Fault Context}
    (hnext : s.ctx.next = .ok (token, ctx)) (hlex : token.lexeme = .word word)
    (hword : BlockKeyword.ofWord? word = some keyword)
    (hblock : s.frame.entry.kind.isBlock = true) (h : request? fs ctx keyword = some request) :
    s.step fs = do return s.goOn (← request) := by
  rcases kind_of_isBlock hblock with hkind | hkind
  · rw [step_of_choice hnext hlex hkind, stepChoice, hword]
    cases keyword <;> cases h <;> rfl
  · rw [step_of_menu hnext hlex hkind, stepMenu, hword]
    cases keyword <;> cases h <;> rfl

lemma step_of_fileEnd (hnext : s.ctx.next = .ok (token, ctx)) (hlex : token.lexeme = .fileEnd) :
    s.step fs = s.stepFileEnd ctx := by
  rw [step_of_next hnext, hlex]

lemma step_of_unknown {text : String} (hnext : s.ctx.next = .ok (token, ctx))
    (hlex : s.frame.entry.unknown? token.lexeme = some text) :
    s.step fs = do return s.goOn (← ctx.unrecognized s.frame.entry.kind text) := by
  cases htoken : token.lexeme with
  | word word =>
    rw [htoken] at hlex
    unfold Entry.unknown? at hlex
    dsimp only at hlex
    split at hlex
    · cases hlex
    · rename_i hcases
      simp only [not_or, ne_eq, Decidable.not_not] at hcases
      rw [step_of_directiveWord hnext htoken hcases.1 hcases.2]
      unfold stepDirective
      cases hdirective : DirectiveKind.ofKeyword? word with
      | none =>
        rw [hdirective] at hlex
        cases hlex
        rfl
      | some directive =>
        rw [hdirective] at hlex
        dsimp only at hlex
        by_cases hknown : directive.isKnownIn s.frame.entry.kind = true
        · rw [if_pos hknown] at hlex
          cases hlex
        · rw [if_neg hknown] at hlex
          cases hlex
          exact if_neg hknown
  | lineEnd =>
    rw [htoken] at hlex
    cases hlex
  | fileEnd =>
    rw [htoken] at hlex
    cases hlex
  | _ =>
    rw [htoken] at hlex
    cases hlex
    rw [step_of_next hnext, htoken]

lemma step_of_directive {directive : DirectiveKind} {result : Entry × Context}
    (hnext : s.ctx.next = .ok (token, ctx)) (hlex : token.lexeme = .word word)
    (hword : BlockKeyword.ofWord? word = none)
    (hvisible : ¬(s.frame.entry.kind = .menu ∧ word = "visible"))
    (hdirective : DirectiveKind.ofKeyword? word = some directive)
    (hknown : directive.isKnownIn s.frame.entry.kind = true)
    (h : ctx.readDirective directive word s.frame.entry = .ok result) :
    s.step fs = .ok (s.update result) := by
  rw [step_of_directiveWord hnext hlex hword hvisible, stepDirective]
  simp only [hdirective, hknown, if_true, h]
  rfl

lemma step_of_visible {result : Entry × Context} (hnext : s.ctx.next = .ok (token, ctx))
    (hlex : token.lexeme = .word "visible") (hkind : s.frame.entry.kind = .menu)
    (h : ctx.readExtra Directive.readVisible s.frame.entry = .ok result) :
    s.step fs = .ok (s.update result) := by
  rw [step_of_menu hnext hlex hkind, stepMenu]
  change (do return s.update (← ctx.readExtra Directive.readVisible s.frame.entry)) = _
  rw [h]
  rfl

lemma step_of_mainMenu {location : Location} {result : Entry × Context}
    (hnext : s.ctx.next = .ok (token, ctx)) (hlex : token.lexeme = .word word)
    (hword : BlockKeyword.ofWord? word = some .mainMenu) (hkind : s.frame.entry.kind = .menu)
    (htop : s.frame.isTop = true) (hprompt : s.frame.entry.head.prompt = none)
    (hlocation : ctx.location = .ok location)
    (h : ctx.readDirective .prompt word
      (s.frame.entry.setHead { s.frame.entry.head with location }) = .ok result) :
    s.step fs = .ok (s.update result) := by
  have htop' : ¬(!s.frame.isTop) = true := by simp [htop]
  have hprompt' : ¬s.frame.entry.head.prompt.isSome = true := by simp [hprompt]
  rw [step_of_menu hnext hlex hkind, stepMenu, hword]
  dsimp only
  rw [stepMainMenu, if_neg htop', if_neg hprompt', hlocation]
  change (do return s.update (← ctx.readDirective _ _ _)) = _
  rw [h]
  rfl

lemma step_of_blockEnd {keyword : BlockKeyword} (hnext : s.ctx.next = .ok (token, ctx))
    (hlex : token.lexeme = .word word) (hword : BlockKeyword.ofWord? word = some keyword)
    (hkeyword : s.frame.entry.kind.endKeyword? = some keyword)
    (htop : s.frame.entry.kind = .menu → s.frame.isTop = false)
    (h : ctx.checkBlockEnd s.frame.entry word s.frame.depth s.frame.scope = .ok ()) :
    s.step fs = .ok (s.close ctx) := by
  cases hkind : s.frame.entry.kind with
  | choice =>
    rw [hkind] at hkeyword
    cases hkeyword
    rw [step_of_choice hnext hlex hkind, stepChoice, hword]
    dsimp only
    rw [h]
    rfl
  | menu =>
    rw [hkind] at hkeyword
    cases hkeyword
    rw [step_of_menu hnext hlex hkind, stepMenu, hword]
    simp only [htop hkind, Bool.false_eq_true, if_false, h]
    rfl
  | _ =>
    rw [hkind] at hkeyword
    cases hkeyword

lemma step_of_leafEnd {ctx' : Context} (hnext : s.ctx.next = .ok (token, ctx))
    (hleaf : s.frame.entry.kind.isBlock = false)
    (hlex : token.lexeme = .fileEnd ∨
      ∃ word, token.lexeme = .word word ∧ BlockKeyword.ofWord? word ≠ none)
    (h : ctx.pushBack = .ok ctx') : s.step fs = .ok (s.close ctx') := by
  rcases hlex with hlex | ⟨word, hlex, hword⟩
  · rw [step_of_fileEnd hnext hlex, stepFileEnd]
    cases hentry : s.frame.entry with
    | config c =>
      dsimp only
      rw [h]
      rfl
    | comment c =>
      dsimp only
      rw [h]
      rfl
    | _ => simp [hentry, Entry.kind, EntryKind.isBlock] at hleaf
  · obtain ⟨keyword, hkeyword⟩ := Option.ne_none_iff_exists'.1 hword
    rw [step_of_leaf hnext hlex hleaf, stepLeaf, hkeyword]
    dsimp only
    rw [h]
    rfl

lemma step_of_fileEnd_inner (hnext : s.ctx.next = .ok (token, ctx))
    (hlex : token.lexeme = .fileEnd) (hblock : s.frame.entry.kind.isBlock = true)
    (hdepth : s.frame.depth < ctx.depth) : s.step fs = .ok (s.goOn ctx.closeFile) := by
  rw [step_of_fileEnd hnext hlex, stepFileEnd]
  cases hentry : s.frame.entry with
  | choice c => exact if_pos hdepth
  | menu head visibleIf children => exact if_pos hdepth
  | config c => simp [hentry, Entry.isBlock_config] at hblock
  | comment c => simp [hentry, Entry.kind, EntryKind.isBlock] at hblock

lemma step_of_fileEnd_top (hnext : s.ctx.next = .ok (token, ctx))
    (hlex : token.lexeme = .fileEnd) (hkind : s.frame.entry.kind = .menu)
    (htop : s.frame.isTop = true) (hdepth : ctx.depth ≤ s.frame.depth) (hscope : ctx.scope = []) :
    s.step fs = .ok (s.close ctx) := by
  obtain ⟨head, visibleIf, children, hentry⟩ := Entry.eq_menu_of_kind hkind
  have hshallow : ¬s.frame.depth < ctx.depth := by omega
  rw [step_of_fileEnd hnext hlex, stepFileEnd, hentry]
  simp only [hshallow, if_false, htop, hscope]
  rfl

theorem step_of_takes (hnext : s.ctx.next = .ok (token, ctx)) (h : Takes fs s token ctx p) :
    s.step fs = .ok p := by
  cases h with
  | lineEnd hlex => rw [step_of_next hnext, hlex]
  | skip hlex h =>
    rw [step_of_unknown hnext hlex, h]
    rfl
  | directive hlex hword hvisible hdirective hknown h =>
    exact step_of_directive hnext hlex hword hvisible hdirective hknown h
  | visible hlex hkind h => exact step_of_visible hnext hlex hkind h
  | mainMenu hlex hword hkind htop hprompt hlocation h =>
    exact step_of_mainMenu hnext hlex hword hkind htop hprompt hlocation h
  | header hlex hword hopening hholds h =>
    rw [step_of_header hnext hlex hword hopening hholds, h]
    rfl
  | source hlex hword hblock h =>
    rw [step_of_request hnext hlex hword hblock rfl, h]
    rfl
  | openIf hlex hword hblock h =>
    rw [step_of_request hnext hlex hword hblock rfl, h]
    rfl
  | closeIf hlex hword hblock h =>
    rw [step_of_request hnext hlex hword hblock rfl, h]
    rfl
  | blockEnd hlex hword hkeyword htop h => exact step_of_blockEnd hnext hlex hword hkeyword htop h
  | leafEnd hleaf hlex h => exact step_of_leafEnd hnext hleaf hlex h
  | fileEnd hlex hblock hdepth => exact step_of_fileEnd_inner hnext hlex hblock hdepth
  | topEnd hlex hkind htop hdepth hscope =>
    exact step_of_fileEnd_top hnext hlex hkind htop hdepth hscope

/-- The steps that do not fail are those of the relation. -/
theorem step_eq_ok :
    s.step fs = .ok p ↔ ∃ token ctx, s.ctx.next = .ok (token, ctx) ∧ Takes fs s token ctx p :=
  ⟨takes_of_step, fun ⟨_, _, hnext, h⟩ => step_of_takes hnext h⟩

end State

end Kconfig
