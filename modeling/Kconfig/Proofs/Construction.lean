import Kconfig.Proofs.Motion
import Kconfig.Proofs.Readings
import Kconfig.Proofs.Spelling

/-!
# Construction

What a step does to the entries, to the conditions and to the symbols, with what is known of the
texts that it takes: symbols are words, and no condition is empty. There is one case for each way in
which an entry changes. Statements about all entries of a run are proved by cases on it.
-/

namespace Kconfig

open Context

/-- A config whose symbol has just been read. -/
def Entry.declared (isMenu : Bool) (symbol : String) (location : Location) : Entry :=
  .config { head := { location, symbol := some symbol }, isMenu }

/-- A frame that is opened with an entry in it. -/
def State.opening (s : State) (e : Entry) : Frame :=
  { entry := e, scope := s.ctx.scope, depth := s.ctx.depth }

inductive Builds (s : State) : Progress → Prop where
  | pass {ctx : Context} (hquiet : Quiet s.ctx ctx) : Builds s (s.goOn ctx)
  | directive {ctx : Context} (site : Directive.Site) (slips : List Slip) {d : Directive}
    (hd : d.Stated) (hquiet : Quiet s.ctx ctx) :
    Builds s (s.update ((Directive.apply s.ctx.environment site slips d s.frame.entry).1, ctx))
  /-- The prompt of the top-level menu moves the menu to the place of the prompt. -/
  | mainMenu {ctx : Context} (site : Directive.Site) (slips : List Slip) {d : Directive}
    (location : Location) (hkind : s.frame.entry.kind = .menu) (hd : d.Stated)
    (hquiet : Quiet s.ctx ctx) :
    Builds s
      (s.update
        ((Directive.apply s.ctx.environment site slips d
          (s.frame.entry.setHead { s.frame.entry.head with location })).1, ctx))
  | openIf {ctx : Context} {condition : Condition} (hcondition : condition.Stated)
    (hquiet : Quiet s.ctx ctx) :
    Builds s (s.goOn { ctx with scope := s.ctx.scope ++ [condition] })
  | closeIf {ctx : Context} (hquiet : Quiet s.ctx ctx) :
    Builds s (s.goOn { ctx with scope := s.ctx.scope.dropLast })
  /-- A config is registered as soon as its symbol has been read. -/
  | config {ctx : Context} (isMenu : Bool) {symbol : String} (location : Location)
    (hsymbol : IsWord symbol) (hquiet : Quiet s.ctx ctx) :
    Builds s
      (s.descend (s.opening (.declared isMenu symbol location),
        ctx.define (.declared isMenu symbol location)))
  | choice {ctx : Context} {symbol : Option String} (location : Location)
    (hsymbol : ∀ a ∈ symbol, IsWord a) (hquiet : Quiet s.ctx ctx) :
    Builds s (s.descend (s.opening (.choice { head := { location, symbol } }), ctx))
  /-- A comment or a menu begins with its prompt. -/
  | prompted {ctx : Context} {kind : EntryKind} (hkind : kind = .comment ∨ kind = .menu)
    (location : Location) (site : Directive.Site) (slips : List Slip) {prompt : Prompt}
    (hprompt : prompt.Stated) (hquiet : Quiet s.ctx ctx) :
    Builds s
      (s.descend
        (s.opening (Directive.applyPrompt site slips prompt (.ofKind kind { location })).1, ctx))
  | close {ctx : Context} (hquiet : Quiet s.ctx ctx) : Builds s (s.close ctx)

namespace Context

variable {ctx ctx' : Context}

lemma of_valueAhead {α : Type} {P : α → Prop} {read : List Token → Except ReadFailure (Reading α)}
    (hread : ∀ tokens, Yields P (read tokens)) {a : α} (h : ctx.valueAhead read = some a) :
    P a := by
  unfold valueAhead at h
  cases hline : ctx.readLine read with
  | error fault =>
    rw [hline] at h
    cases h
  | ok result =>
    rw [hline] at h
    cases h
    obtain ⟨s, s', -, -, hr, -⟩ := readLine_eq_ok.1 hline
    have hyields := readDeliverable_yields hread s'.upcoming
    rw [hr] at hyields
    exact hyields

lemma stated_of_directiveAhead {kind : DirectiveKind} {keyword : String} {d : Directive}
    (h : ctx.directiveAhead kind keyword = some d) : d.Stated := by
  unfold directiveAhead at h
  split at h
  · cases h
    exact True.intro
  · obtain ⟨⟨text, s'⟩, hhelp, rfl⟩ := Option.map_eq_some_iff.1 h
    obtain ⟨s, -, hhelp⟩ := Option.bind_eq_some_iff.1 hhelp
    intro t ht
    cases ht
    have hread : Directive.readHelp s = .ok (some t, s') := by
      revert hhelp
      cases Directive.readHelp s with
      | error fault => exact fun h => nomatch h
      | ok result =>
        rintro ⟨⟩
        rfl
    exact Directive.isHelpText_of_readHelp hread
  · exact of_valueAhead (Directive.read_yields _ _) h

lemma prompt_of_directiveAhead {keyword : String} {d : Directive}
    (h : ctx.directiveAhead .prompt keyword = some d) :
    ∃ prompt, d = .prompt prompt ∧ prompt.Stated :=
  of_valueAhead (P := fun d => ∃ prompt, d = .prompt prompt ∧ prompt.Stated)
    (fun tokens => (Directive.readPrompt_yields keyword tokens).map
      fun prompt hprompt => ⟨prompt, rfl, hprompt⟩) h

end Context

namespace State

variable {fs : FileSystem} {root : String} {s : State} {p : Progress} {ctx : Context}
  {token : Token}

lemma opening_eq (hquiet : Quiet s.ctx ctx) (hdepth : ctx.depth = s.ctx.depth) (e : Entry) :
    ({ entry := e, scope := ctx.scope, depth := ctx.depth } : Frame) = s.opening e := by
  rw [opening, hquiet.scope, hdepth]

lemma openFrame_builds {opening : Opening} {opened : Frame × Context}
    (hspelled : ctx.Keeps root TokenStream.Spelled) (hctx : Remains s.ctx ctx)
    (hquiet : Quiet s.ctx ctx) (htop : opening ≠ .top)
    (h : ctx.openFrame opening = .ok opened) : Builds s (s.descend opened) := by
  cases opening with
  | config isMenu =>
    obtain ⟨location, -, h⟩ := bind_eq_ok.1 h
    obtain ⟨⟨token, ctx₁⟩, hnext, h⟩ := bind_eq_ok.1 h
    have hquiet₁ := hquiet.trans (next_quiet hnext)
    have hdepth := (hctx.trans (remains_next hnext)).reads.depth
    dsimp only at h
    split at h
    · cases h
    · rename_i symbol hsymbol
      cases pure_eq_ok.1 h
      rw [opening_eq hquiet₁ hdepth]
      exact .config isMenu location (hspelled.spelled_next hnext symbol hsymbol) hquiet₁
  | choice =>
    obtain ⟨location, -, h⟩ := bind_eq_ok.1 h
    obtain ⟨⟨token, ctx₁⟩, hnext, h⟩ := bind_eq_ok.1 h
    have hword : ∀ a ∈ token.lexeme.wordText?, IsWord a := hspelled.spelled_next hnext
    dsimp only at h
    split at h
    · obtain ⟨ctx₂, hpush, h⟩ := bind_eq_ok.1 h
      cases pure_eq_ok.1 h
      have hquiet₂ := hquiet.trans ((next_quiet hnext).trans (pushBack_quiet hpush))
      rw [opening_eq hquiet₂ (hctx.trans (remains_pushBack hnext hpush)).reads.depth]
      exact .choice location hword hquiet₂
    · obtain ⟨ctx₂, hpure, h⟩ := bind_eq_ok.1 h
      cases pure_eq_ok.1 hpure
      cases pure_eq_ok.1 h
      have hquiet₁ := hquiet.trans (next_quiet hnext)
      rw [opening_eq hquiet₁ (hctx.trans (remains_next hnext)).reads.depth]
      exact .choice location hword hquiet₁
  | comment =>
    obtain ⟨location, -, h⟩ := bind_eq_ok.1 h
    obtain ⟨⟨e, ctx₁⟩, hread, h⟩ := bind_eq_ok.1 h
    cases pure_eq_ok.1 h
    have hremains := hctx.trans (remains_readDirective hctx.reads.ne_nil hread)
    obtain ⟨d, site, slips, hd, rfl, hquiet₁⟩ := readDirective_eq_ok hread
    obtain ⟨prompt, rfl, hprompt⟩ := prompt_of_directiveAhead hd
    rw [opening_eq (hquiet.trans hquiet₁) hremains.reads.depth]
    exact .prompted (.inl rfl) location site slips hprompt (hquiet.trans hquiet₁)
  | menu =>
    obtain ⟨location, -, h⟩ := bind_eq_ok.1 h
    obtain ⟨⟨e, ctx₁⟩, hread, h⟩ := bind_eq_ok.1 h
    cases pure_eq_ok.1 h
    have hremains := hctx.trans (remains_readDirective hctx.reads.ne_nil hread)
    obtain ⟨d, site, slips, hd, rfl, hquiet₁⟩ := readDirective_eq_ok hread
    obtain ⟨prompt, rfl, hprompt⟩ := prompt_of_directiveAhead hd
    rw [opening_eq (hquiet.trans hquiet₁) hremains.reads.depth]
    exact .prompted (.inr rfl) location site slips hprompt (hquiet.trans hquiet₁)
  | top => exact absurd rfl htop

/-- Every step that does not fail, at a state of a run, is one of the cases. -/
theorem step_builds (hspelled : s.ctx.Keeps root TokenStream.Spelled) (hstep : s.step fs = .ok p) :
    Builds s p := by
  obtain ⟨token, ctx, hnext, htakes⟩ := takes_of_step hstep
  have hctx := remains_next hnext
  have hquiet := next_quiet hnext
  cases htakes with
  | lineEnd hlex => exact .pass hquiet
  | skip hlex h => exact .pass (hquiet.trans (unrecognized_quiet h))
  | @directive word kind result hlex hword hvisible hdirective hknown h =>
    obtain ⟨e, ctx'⟩ := result
    obtain ⟨d, site, slips, hd, rfl, hquiet'⟩ := readDirective_eq_ok h
    rw [hquiet.environment]
    exact .directive site slips (stated_of_directiveAhead hd) (hquiet.trans hquiet')
  | @visible result hlex hkind h =>
    obtain ⟨e, ctx'⟩ := result
    obtain ⟨d, site, slips, hd, rfl, hquiet'⟩ := readExtra_eq_ok h
    rw [hquiet.environment]
    exact .directive site slips (of_valueAhead Directive.readVisible_yields hd)
      (hquiet.trans hquiet')
  | @mainMenu word location result hlex hword hkind htop hprompt hlocation h =>
    obtain ⟨e, ctx'⟩ := result
    obtain ⟨d, site, slips, hd, rfl, hquiet'⟩ := readDirective_eq_ok h
    rw [hquiet.environment]
    exact .mainMenu site slips location hkind (stated_of_directiveAhead hd) (hquiet.trans hquiet')
  | @header word keyword opening opened hlex hword hopening hholds h =>
    have htop : opening ≠ .top := by
      rintro rfl
      cases keyword <;> cases hopening
    exact openFrame_builds (hspelled.next TokenStream.stable_spelled hnext) hctx hquiet htop h
  | source hlex hword hblock h => exact .pass (hquiet.trans (readSource_quiet h))
  | openIf hlex hword hblock h =>
    obtain ⟨condition, mid, hvalue, hmid, rfl⟩ := readIf_eq_ok h
    rw [hquiet.scope]
    exact .openIf (of_valueAhead Condition.read_yields hvalue) (hquiet.trans hmid)
  | closeIf hlex hword hblock h =>
    obtain ⟨-, rfl⟩ := readEndif_eq_ok h
    rw [hquiet.scope]
    exact .closeIf hquiet
  | blockEnd hlex hword hkeyword htop h => exact .close hquiet
  | leafEnd hleaf hlex h => exact .close (hquiet.trans (pushBack_quiet h))
  | fileEnd hlex hblock hdepth => exact .pass (hquiet.trans (.closeFile ctx))
  | topEnd hlex hkind htop hdepth hscope => exact .close hquiet

end State

end Kconfig
