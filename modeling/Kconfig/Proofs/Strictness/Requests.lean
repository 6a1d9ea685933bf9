import Kconfig.Proofs.Readings
import Kconfig.Proofs.Steps

/-!
# Requests of strict and lenient runs

A strict run and a lenient one do the same as long as they understand the text. `Context.Eased`
relates their contexts, and for each request `Parallel` says that it ends alike in both: with
related results, or with one and the same fault, in which no text is unknown.
-/

namespace Kconfig

/-- No text is unknown. -/
def Fault.Known : Fault → Prop
  | .malformed _ problem => problem.Known
  | _ => True

/-- Two requests end alike: with related results, or with the same fault. -/
def Parallel {α β : Type} (R : α → β → Prop) : Except Fault α → Except Fault β → Prop
  | .ok a, .ok b => R a b
  | .error fault, .error fault' => fault' = fault ∧ fault.Known
  | .ok _, .error _ => False
  | .error _, .ok _ => False

namespace Parallel

variable {α β γ δ : Type} {R R' : α → β → Prop} {S : γ → δ → Prop} {x : Except Fault α}
  {y : Except Fault β}

lemma bind {f : α → Except Fault γ} {g : β → Except Fault δ} (h : Parallel R x y)
    (hfg : ∀ a b, R a b → Parallel S (f a) (g b)) : Parallel S (x >>= f) (y >>= g) := by
  cases x with
  | error fault =>
    cases y with
    | error fault' => exact h
    | ok b => exact h.elim
  | ok a =>
    cases y with
    | error fault' => exact h.elim
    | ok b => exact hfg a b h

lemma bind_eq {y : Except Fault α} {f : α → Except Fault γ} {g : α → Except Fault δ}
    (h : Parallel Eq x y) (hfg : ∀ a, Parallel S (f a) (g a)) : Parallel S (x >>= f) (y >>= g) := by
  refine h.bind ?_
  rintro a _ rfl
  exact hfg a

lemma split (h : Parallel R x y) :
    (∃ fault : Fault, fault.Known ∧ x = .error fault ∧ y = .error fault) ∨
    ∃ a b, x = .ok a ∧ y = .ok b ∧ R a b := by
  cases x with
  | error fault =>
    cases y with
    | error fault' => exact .inl ⟨fault, h.2, rfl, congrArg _ h.1⟩
    | ok b => exact h.elim
  | ok a =>
    cases y with
    | error fault' => exact h.elim
    | ok b => exact .inr ⟨a, b, rfl, rfl, h⟩

lemma same {Q : α → Prop} (h : Ensures Fault.Known Q x) : Parallel Eq x x := by
  cases x with
  | error fault => exact ⟨rfl, h⟩
  | ok a => exact rfl

lemma undecodable (x : Except Text.DecodeError α) :
    Parallel Eq (x.mapError .undecodable) (x.mapError .undecodable) := by
  cases x with
  | error e => exact ⟨rfl, True.intro⟩
  | ok a => exact rfl

end Parallel

/-- The finding is about text that was passed over. -/
def Finding.Skips : Finding → Prop
  | .textSkipped _ _ => True
  | _ => False

lemma Finding.IsRemark.not_skips {finding : Finding} (h : finding.IsRemark) : ¬finding.Skips := by
  cases finding with
  | textSkipped location text => exact h.elim
  | _ => exact id

lemma Report.skipped_add (report : Report) {finding : Finding} (h : ¬finding.Skips) :
    (report.add finding).skipped = report.skipped := by
  cases finding with
  | textSkipped location text => exact (h True.intro).elim
  | _ => rfl

lemma Context.skipped_note (ctx : Context) {findings : List Finding}
    (h : ∀ finding ∈ findings, ¬finding.Skips) :
    (ctx.note findings).report.skipped = ctx.report.skipped := by
  induction findings generalizing ctx with
  | nil => rfl
  | cons finding findings ih =>
    have hrest := ih (ctx.note [finding]) fun f hf => h f (List.mem_cons_of_mem _ hf)
    have hfirst := Report.skipped_add ctx.report (h finding List.mem_cons_self)
    exact hrest.trans hfirst

namespace TokenStream

lemma next_known (s : TokenStream) : Ensures Fault.Known (fun _ => True) s.next := by
  unfold next
  split
  · exact True.intro
  · split
    · split <;> exact True.intro
    · exact True.intro

lemma discardLine_known (s : TokenStream) :
    Ensures Fault.Known (fun _ => True) s.discardLine := by
  unfold discardLine
  split
  · exact True.intro
  · split
    · exact True.intro
    · split <;> exact True.intro

lemma pushBack_known (s : TokenStream) : Ensures Fault.Known (fun _ => True) s.pushBack := by
  unfold pushBack
  split
  · exact True.intro
  · split <;> exact True.intro

lemma betweenLines_known (s : TokenStream) (request : String) :
    Ensures Fault.Known (fun _ => True) (s.betweenLines request) := by
  unfold betweenLines
  split <;> exact True.intro

lemma readLine_known (s : TokenStream) : Ensures Fault.Known (fun _ => True) s.readLine := by
  have hbetween := betweenLines_known s "read_line"
  unfold readLine
  split
  · exact True.intro
  · split
    · rename_i fault hfault
      rw [hfault] at hbetween
      exact hbetween
    · split <;> exact True.intro

lemma unreadLine_known (s : TokenStream) (line : List Char) :
    Ensures Fault.Known (fun _ => True) (s.unreadLine line) := by
  have hbetween := betweenLines_known s "unread_line"
  unfold unreadLine LineReader.putBack
  split
  · rename_i fault hfault
    rw [hfault] at hbetween
    exact hbetween
  · cases s.lines.unread <;> exact True.intro

lemma takeLines_known (p : List Char → Bool) (s : TokenStream) :
    Ensures Fault.Known (fun _ => True) (s.takeLines p) := by
  fun_induction takeLines p s with
  | case1 s fault hread =>
    have h := readLine_known s
    rwa [hread] at h
  | case2 s t hread => exact True.intro
  | case3 s line t hread hp fault hrec ih => rwa [hrec] at ih
  | case4 s line t hread hp lines stop u hrec ih => exact True.intro
  | case5 s line t hread hp fault hunread =>
    have h := unreadLine_known t line
    rwa [hunread] at h
  | case6 s line t hread hp u hunread => exact True.intro

lemma readHelp_known (s : TokenStream) :
    Ensures Fault.Known (fun _ => True) (Directive.readHelp s) := by
  unfold Directive.readHelp
  refine (discardLine_known s).bind fun t _ _ => ?_
  refine (takeLines_known _ t).bind fun ⟨blanks, first, u⟩ _ _ => ?_
  dsimp only
  split
  · exact True.intro
  · split
    · exact True.intro
    · exact (takeLines_known _ u).bind fun _ _ _ => True.intro

end TokenStream

namespace Context

/-- The context with unknown text passed over. -/
def lenient (ctx : Context) : Context :=
  { ctx with strict := false }

/-- The context `b` is `a` made lenient. Since `c`, no text has been passed over. -/
structure Eased (c a b : Context) : Prop where
  eq : b = a.lenient
  strict : a.strict = c.strict
  skipped : a.report.skipped = c.report.skipped

/-- Results with equal values. -/
def EasedWith {α : Type} (c : Context) (r r' : α × Context) : Prop :=
  r'.1 = r.1 ∧ c.Eased r.2 r'.2

end Context

lemma Parallel.bind_eased {α β γ : Type} {c : Context} {S : β → γ → Prop}
    {x y : Except Fault (α × Context)} {f : α × Context → Except Fault β}
    {g : α × Context → Except Fault γ} (h : Parallel c.EasedWith x y)
    (hfg : ∀ v a b, c.Eased a b → Parallel S (f (v, a)) (g (v, b))) :
    Parallel S (x >>= f) (y >>= g) := by
  refine h.bind ?_
  rintro ⟨_, a⟩ ⟨v, b⟩ ⟨rfl, hab⟩
  exact hfg v a b hab

namespace Context

namespace Eased

variable {fs : FileSystem} {c a b : Context}

lemma refl (c : Context) : c.Eased c c.lenient :=
  ⟨rfl, rfl, rfl⟩

lemma root (h : c.Eased a b) : b.root = a.root := by
  cases h.eq
  rfl

lemma environment (h : c.Eased a b) : b.environment = a.environment := by
  cases h.eq
  rfl

lemma files (h : c.Eased a b) : b.files = a.files := by
  cases h.eq
  rfl

lemma scope (h : c.Eased a b) : b.scope = a.scope := by
  cases h.eq
  rfl

lemma depth (h : c.Eased a b) : b.depth = a.depth :=
  congrArg List.length h.files

lemma isOpen (h : c.Eased a b) (name : String) : b.isOpen name = a.isOpen name := by
  rw [Context.isOpen, Context.isOpen, h.files]

lemma includePath (h : c.Eased a b) : b.includePath = a.includePath := by
  rw [Context.includePath, Context.includePath, h.files]

lemma malformed (h : c.Eased a b) (problem : Problem) :
    b.malformed problem = a.malformed problem := by
  rw [Context.malformed, Context.malformed, location?, location?, h.files]

lemma fail {α β : Type} {R : α → β → Prop} (h : c.Eased a b) {problem : Problem}
    (hproblem : problem.Known) :
    Parallel R (.error (a.malformed problem)) (.error (b.malformed problem)) :=
  ⟨h.malformed problem, hproblem⟩

lemma failed {α β : Type} {R : α → β → Prop} (h : c.Eased a b) (tokens : List Token)
    {failure : ReadFailure} (hfailure : failure.Known) :
    Parallel R (.error (a.failed tokens failure)) (.error (b.failed tokens failure)) := by
  cases failure with
  | problem problem => exact h.fail hfailure
  | usedUp => exact ⟨rfl, True.intro⟩

lemma setCurrent (h : c.Eased a b) (s : TokenStream) :
    c.Eased (a.setCurrent s) (b.setCurrent s) := by
  cases h.eq
  exact ⟨rfl, h.strict, h.skipped⟩

lemma note (h : c.Eased a b) {findings : List Finding}
    (hfindings : ∀ finding ∈ findings, ¬finding.Skips) :
    c.Eased (a.note findings) (b.note findings) := by
  cases h.eq
  exact ⟨rfl, h.strict, (a.skipped_note hfindings).trans h.skipped⟩

lemma remarks (h : c.Eased a b) {findings : List Finding}
    (hfindings : ∀ finding ∈ findings, finding.IsRemark) :
    c.Eased (a.note findings) (b.note findings) :=
  h.note fun finding hfinding => (hfindings finding hfinding).not_skips

lemma closeFile (h : c.Eased a b) : c.Eased a.closeFile b.closeFile := by
  cases h.eq
  exact ⟨rfl, h.strict, h.skipped⟩

lemma setSymbol (h : c.Eased a b) (e : Entry) : c.Eased (a.setSymbol e) (b.setSymbol e) := by
  cases h.eq
  unfold Context.setSymbol
  split
  · exact h
  · exact ⟨rfl, h.strict, h.skipped⟩

lemma define (h : c.Eased a b) (e : Entry) : c.Eased (a.define e) (b.define e) := by
  cases h.eq
  unfold Context.define
  split
  · exact h
  · refine (Eased.note ?_ ?_).setSymbol e
    · exact ⟨rfl, h.strict, h.skipped⟩
    · intro finding hfinding
      split at hfinding
      · cases List.mem_singleton.1 hfinding
        exact id
      · cases hfinding

lemma register (h : c.Eased a b) (e : Entry) :
    c.Eased
      (match e with
        | .config _ => a.setSymbol e
        | .choice _ => a.define e
        | _ => a)
      (match e with
        | .config _ => b.setSymbol e
        | .choice _ => b.define e
        | _ => b) := by
  cases e with
  | config config => exact h.setSymbol _
  | choice choice => exact h.define _
  | comment comment => exact h
  | menu head visibleIf children => exact h

lemma current (h : c.Eased a b) : Parallel Eq a.current b.current := by
  cases h.eq
  refine Parallel.same (Q := fun _ => True) ?_
  unfold Context.current
  split <;> exact True.intro

lemma location (h : c.Eased a b) : Parallel Eq a.location b.location :=
  h.current.bind_eq fun _ => rfl

lemma next (h : c.Eased a b) : Parallel c.EasedWith a.next b.next := by
  refine h.current.bind_eq fun s => ?_
  refine (Parallel.same s.next_known).bind_eq fun r => ?_
  exact ⟨rfl, h.setCurrent r.2⟩

lemma pushBack (h : c.Eased a b) : Parallel c.Eased a.pushBack b.pushBack := by
  refine h.current.bind_eq fun s => ?_
  refine (Parallel.same s.pushBack_known).bind_eq fun s' => ?_
  exact h.setCurrent s'

section Lines

variable {α : Type} {P : α → Prop} {Q : Directive → Prop}
  {read : List Token → Except ReadFailure (Reading α)}

lemma readLine (h : c.Eased a b) (hread : ∀ tokens, Yields P (read tokens)) :
    Parallel c.EasedWith (a.readLine read) (b.readLine read) := by
  refine h.current.bind_eq fun s => ?_
  refine (Parallel.undecodable _).bind_eq fun s' => ?_
  have hyields := readDeliverable_yields hread s'.upcoming
  cases hresult : readDeliverable read s'.upcoming with
  | error failure =>
    rw [hresult] at hyields
    exact (h.setCurrent s').failed _ hyields
  | ok r => exact ⟨rfl, h.setCurrent _⟩

lemma readNoting (h : c.Eased a b) (hread : ∀ tokens, Yields P (read tokens)) :
    Parallel c.EasedWith (a.readNoting read) (b.readNoting read) := by
  refine h.location.bind_eq fun start => ?_
  refine (h.readLine hread).bind_eased fun r a' b' hab => ?_
  refine hab.location.bind_eq fun place => ?_
  exact ⟨rfl, hab.remarks (Directive.isRemark_slipFindings _ _)⟩

lemma apply (h : c.Eased a b) (site : Directive.Site) (slips : List Slip) (d : Directive)
    (e : Entry) :
    c.EasedWith
      ((Directive.apply a.environment site slips d e).1,
        a.note (Directive.apply a.environment site slips d e).2)
      ((Directive.apply b.environment site slips d e).1,
        b.note (Directive.apply b.environment site slips d e).2) := by
  rw [h.environment]
  exact ⟨rfl, h.remarks (Directive.isRemark_apply _ site slips d e)⟩

lemma readExtra {read : List Token → Except ReadFailure (Reading Directive)} (h : c.Eased a b)
    (hread : ∀ tokens, Yields Q (read tokens)) (e : Entry) :
    Parallel c.EasedWith (a.readExtra read e) (b.readExtra read e) := by
  refine h.location.bind_eq fun start => ?_
  refine (h.readLine hread).bind_eased fun r a' b' hab => ?_
  refine hab.location.bind_eq fun place => ?_
  exact hab.apply _ _ _ _

lemma readDirective (h : c.Eased a b) (kind : DirectiveKind) (keyword : String) (e : Entry) :
    Parallel c.EasedWith (a.readDirective kind keyword e) (b.readDirective kind keyword e) := by
  unfold Context.readDirective
  split
  · refine h.location.bind_eq fun place => ?_
    exact ⟨rfl, True.intro⟩
  · split
    · exact ⟨(h.apply _ _ _ _).1, h⟩
    · refine h.location.bind_eq fun start => ?_
      refine h.current.bind_eq fun s => ?_
      refine (Parallel.same s.readHelp_known).bind_eq fun r => ?_
      exact (h.setCurrent _).apply _ _ _ _
    · exact h.readExtra (Directive.read_yields _ _) e

end Lines

lemma readIf (h : c.Eased a b) : Parallel c.Eased a.readIf b.readIf := by
  refine (h.readNoting Condition.read_yields).bind_eased fun condition a' b' hab => ?_
  cases hab.eq
  exact ⟨rfl, hab.strict, hab.skipped⟩

lemma readEndif (h : c.Eased a b) : Parallel c.Eased a.readEndif b.readEndif := by
  unfold Context.readEndif
  rw [h.scope]
  split
  · exact h.fail True.intro
  · cases h.eq
    exact ⟨rfl, h.strict, h.skipped⟩

lemma checkBlockEnd (h : c.Eased a b) (e : Entry) (keyword : String) (depth : Nat)
    (scope : List Condition) :
    Parallel Eq (a.checkBlockEnd e keyword depth scope)
      (b.checkBlockEnd e keyword depth scope) := by
  unfold Context.checkBlockEnd
  rw [h.depth, h.scope]
  split
  · exact h.fail True.intro
  · split
    · exact h.fail True.intro
    · split
      · exact h.fail True.intro
      · exact rfl

end Eased

end Context

end Kconfig
