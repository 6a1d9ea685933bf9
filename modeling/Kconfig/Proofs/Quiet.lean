import Kconfig.Proofs.History
import Kconfig.Proofs.Remarks

/-!
# What requests leave alone

Reading tokens, directives and paths changes the open files and the report of a context, and nothing
else; in the report, the symbols that are defined more than once stay as they are. What a request
reads is what `Context.valueAhead` and `Context.directiveAhead` find in the text in front of it.
-/

namespace Kconfig

/-- The contexts `a` and `b` differ only in the files and the report, and the reports have the same
symbols that are defined more than once. -/
structure Quiet (a b : Context) : Prop where
  root : b.root = a.root
  environment : b.environment = a.environment
  strict : b.strict = a.strict
  scope : b.scope = a.scope
  symbols : b.symbols = a.symbols
  definitions : b.definitions = a.definitions
  multiple : b.report.multiple = a.report.multiple

namespace Quiet

variable {a b c : Context}

lemma refl (a : Context) : Quiet a a :=
  ⟨rfl, rfl, rfl, rfl, rfl, rfl, rfl⟩

lemma trans (h₁ : Quiet a b) (h₂ : Quiet b c) : Quiet a c where
  root := h₂.root.trans h₁.root
  environment := h₂.environment.trans h₁.environment
  strict := h₂.strict.trans h₁.strict
  scope := h₂.scope.trans h₁.scope
  symbols := h₂.symbols.trans h₁.symbols
  definitions := h₂.definitions.trans h₁.definitions
  multiple := h₂.multiple.trans h₁.multiple

lemma setCurrent (a : Context) (stream : TokenStream) : Quiet a (a.setCurrent stream) :=
  ⟨rfl, rfl, rfl, rfl, rfl, rfl, rfl⟩

lemma note (a : Context) {findings : List Finding}
    (h : ∀ finding ∈ findings, ¬finding.Redefines) : Quiet a (a.note findings) :=
  ⟨rfl, rfl, rfl, rfl, rfl, rfl, a.multiple_note h⟩

lemma remarks (a : Context) {findings : List Finding}
    (h : ∀ finding ∈ findings, finding.IsRemark) : Quiet a (a.note findings) :=
  note a fun finding hfinding => (h finding hfinding).not_redefines

lemma closeFile (a : Context) : Quiet a a.closeFile :=
  ⟨rfl, rfl, rfl, rfl, rfl, rfl, rfl⟩

end Quiet

namespace Context

variable {fs : FileSystem} {ctx ctx' : Context}

lemma next_quiet {token : Token} (h : ctx.next = .ok (token, ctx')) : Quiet ctx ctx' := by
  obtain ⟨s, -, h⟩ := bind_eq_ok.1 h
  obtain ⟨⟨token', s'⟩, -, h⟩ := bind_eq_ok.1 h
  cases pure_eq_ok.1 h
  exact .setCurrent ctx s'

lemma pushBack_quiet (h : ctx.pushBack = .ok ctx') : Quiet ctx ctx' := by
  obtain ⟨s, -, h⟩ := bind_eq_ok.1 h
  obtain ⟨s', -, h⟩ := bind_eq_ok.1 h
  cases pure_eq_ok.1 h
  exact .setCurrent ctx s'

lemma readLine_quiet {α : Type} {read : List Token → Except ReadFailure (Reading α)} {r : Reading α}
    (h : ctx.readLine read = .ok (r, ctx')) : Quiet ctx ctx' := by
  obtain ⟨s, s', -, -, -, rfl⟩ := readLine_eq_ok.1 h
  exact .setCurrent ctx _

lemma valueAhead_of_readLine {α : Type} {read : List Token → Except ReadFailure (Reading α)}
    {r : Reading α} (h : ctx.readLine read = .ok (r, ctx')) :
    ctx.valueAhead read = some r.value := by
  rw [valueAhead, h]
  rfl

lemma current_eq_head {s : TokenStream} (h : ctx.current = .ok s) : ctx.files.head? = some s := by
  obtain ⟨below, hfiles⟩ := current_eq_ok h
  rw [hfiles]
  rfl

/-- What a directive gives an entry is the effect of the directive that is found in the text. -/
lemma readExtra_eq_ok {read : List Token → Except ReadFailure (Reading Directive)} {e e' : Entry}
    (h : ctx.readExtra read e = .ok (e', ctx')) :
    ∃ directive site slips, ctx.valueAhead read = some directive ∧
      e' = (Directive.apply ctx.environment site slips directive e).1 ∧ Quiet ctx ctx' := by
  obtain ⟨start, -, h⟩ := bind_eq_ok.1 h
  obtain ⟨⟨r, ctx₁⟩, hline, h⟩ := bind_eq_ok.1 h
  obtain ⟨location, -, h⟩ := bind_eq_ok.1 h
  cases pure_eq_ok.1 h
  have hquiet := readLine_quiet hline
  refine ⟨r.value, ⟨start, location⟩, r.slips, valueAhead_of_readLine hline, ?_,
    hquiet.trans (.remarks _ (Directive.isRemark_apply _ _ _ _ _))⟩
  rw [← hquiet.environment]
  rfl

theorem readDirective_eq_ok {kind : DirectiveKind} {keyword : String} {e e' : Entry}
    (h : ctx.readDirective kind keyword e = .ok (e', ctx')) :
    ∃ directive site slips, ctx.directiveAhead kind keyword = some directive ∧
      e' = (Directive.apply ctx.environment site slips directive e).1 ∧ Quiet ctx ctx' := by
  unfold readDirective at h
  split at h
  · obtain ⟨location, -, h⟩ := bind_eq_ok.1 h
    cases h
  · split at h
    · cases h
      exact ⟨.optional, ⟨⟨"", 0⟩, ⟨"", 0⟩⟩, [], rfl, rfl, .refl _⟩
    · obtain ⟨start, -, h⟩ := bind_eq_ok.1 h
      obtain ⟨s, hs, h⟩ := bind_eq_ok.1 h
      obtain ⟨⟨text, s'⟩, hhelp, h⟩ := bind_eq_ok.1 h
      cases pure_eq_ok.1 h
      refine ⟨.help text, ⟨start, start⟩, [], ?_, rfl,
        (Quiet.setCurrent ctx s').trans (.remarks _ (Directive.isRemark_apply _ _ _ _ _))⟩
      rw [directiveAhead, current_eq_head hs, Option.bind_some, hhelp]
      rfl
    · rename_i hoptional hhelp
      obtain ⟨directive, site, slips, hvalue, he, hquiet⟩ := readExtra_eq_ok h
      refine ⟨directive, site, slips, ?_, he, hquiet⟩
      unfold directiveAhead
      split
      · exact absurd rfl hoptional
      · exact absurd rfl hhelp
      · exact hvalue

lemma unrecognized_quiet {kind : EntryKind} {first : String}
    (h : ctx.unrecognized kind first = .ok ctx') : Quiet ctx ctx' := by
  obtain ⟨⟨text, ctx₁⟩, hskip, h⟩ := bind_eq_ok.1 h
  obtain ⟨⟨r, ctx₂⟩, hline, hskip⟩ := bind_eq_ok.1 hskip
  cases pure_eq_ok.1 hskip
  dsimp only at h
  split at h
  · cases h
  · obtain ⟨location, -, h⟩ := bind_eq_ok.1 h
    cases pure_eq_ok.1 h
    exact (readLine_quiet hline).trans (.note _ (List.forall_mem_singleton.2 id))

lemma readNoting_eq_ok {α : Type} {read : List Token → Except ReadFailure (Reading α)} {a : α}
    (h : ctx.readNoting read = .ok (a, ctx')) : ctx.valueAhead read = some a ∧ Quiet ctx ctx' := by
  obtain ⟨start, -, h⟩ := bind_eq_ok.1 h
  obtain ⟨⟨r, ctx₁⟩, hline, h⟩ := bind_eq_ok.1 h
  obtain ⟨location, -, h⟩ := bind_eq_ok.1 h
  cases pure_eq_ok.1 h
  exact ⟨valueAhead_of_readLine hline,
    (readLine_quiet hline).trans (.remarks _ (Directive.isRemark_slipFindings _ _))⟩

lemma readIf_eq_ok (h : ctx.readIf = .ok ctx') :
    ∃ condition mid, ctx.valueAhead Condition.read = some condition ∧ Quiet ctx mid ∧
      ctx' = { mid with scope := ctx.scope ++ [condition] } := by
  obtain ⟨⟨condition, mid⟩, hread, h⟩ := bind_eq_ok.1 h
  cases pure_eq_ok.1 h
  obtain ⟨hvalue, hquiet⟩ := readNoting_eq_ok hread
  refine ⟨condition, mid, hvalue, hquiet, ?_⟩
  rw [← hquiet.scope]

lemma readEndif_eq_ok (h : ctx.readEndif = .ok ctx') :
    ctx.scope ≠ [] ∧ ctx' = { ctx with scope := ctx.scope.dropLast } := by
  unfold readEndif at h
  split at h
  · cases h
  · rename_i condition scope hscope
    cases h
    refine ⟨?_, rfl⟩
    rw [hscope]
    exact List.cons_ne_nil _ _

lemma readSource_quiet {kind : SourceKind} (h : ctx.readSource fs kind = .ok ctx') :
    Quiet ctx ctx' := by
  obtain ⟨start, r, mid, hline, hincludes⟩ := includes_of_readSource h
  have hquiet := (readLine_quiet hline).trans
    (.remarks mid (kind.isRemark_extraFindings start r.value.2))
  cases hincludes with
  | missing name path => exact hquiet.trans (.remarks _ (kind.isRemark_missing start name path))
  | opened => exact hquiet.trans ⟨rfl, rfl, rfl, rfl, rfl, rfl, rfl⟩

end Context

end Kconfig
