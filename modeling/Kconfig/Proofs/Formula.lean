import Kconfig.Condition.Structure
import Mathlib.Tactic.Lemma

/-!
# Formulas

The grammar of conditions as it is documented: an expression is an operand, an expression after `!`,
two expressions with an operator between them, or an expression in parentheses. Nothing in the
grammar says how operators bind. The precedences are in `Formula.layers`, which reads a formula as a
disjunction of conjunctions of chains of comparisons, each with the `!` in front of it: an operator
between two formulas joins the last part of the first with the first part of the second, at its
level.

`Structure.build` goes over the symbols of a formula from left to right. What it has read of a
formula at any time is what the layers say.
-/

namespace Kconfig

open Structure (Symbol Partial)

variable {Operand : Type}

/-- Expressions over operands of some sort. -/
inductive Formula (Operand : Type) where
  | operand (o : Operand)
  | not (e : Formula Operand)
  | compare (operator : Comparison) (l r : Formula Operand)
  | and (l r : Formula Operand)
  | or (l r : Formula Operand)
  | group (e : Formula Operand)

/-- A comparison, a chain of such, or one operand, after a number of `!`. -/
structure Chain where
  negations : Nat := 0
  first : Structure
  others : List (Comparison × Structure) := []

namespace Chain

def join (operator : Comparison) (a b : Chain) : Chain :=
  { a with others := a.others ++ (operator, b.first) :: b.others }

def negated (a : Chain) : Chain :=
  { a with negations := a.negations + 1 }

def toStructure (a : Chain) : Structure :=
  Partial.negate a.negations (Partial.chain a.first a.others)

end Chain

/-- A disjunction of conjunctions of chains. -/
abbrev Layers := List (List Chain)

def Layers.toStructure (layers : Layers) : Structure :=
  Partial.disjoin (layers.map fun conjuncts => Partial.conjoin (conjuncts.map Chain.toStructure))

/-- Appends a list to another so that the last element of the one and the first of the other become
one element. -/
def joinLast {α : Type} (f : α → α → α) : List α → List α → List α
  | [], bs => bs
  | [a], [] => [a]
  | [a], b :: bs => f a b :: bs
  | a :: a' :: as, bs => a :: joinLast f (a' :: as) bs

namespace Formula

/-- A formula by the precedences of its operators. -/
def layers (text : Operand → List Char) : Formula Operand → Layers
  | .operand o => [[{ first := .operand (.ofList (text o)) }]]
  | .not e => (e.layers text).modifyHead (·.modifyHead Chain.negated)
  | .compare operator l r =>
    joinLast (joinLast (Chain.join operator)) (l.layers text) (r.layers text)
  | .and l r => joinLast (· ++ ·) (l.layers text) (r.layers text)
  | .or l r => l.layers text ++ r.layers text
  | .group e => [[{ first := (e.layers text).toStructure }]]

/-- The structure of a formula whose operands have the given texts. -/
def toStructure (text : Operand → List Char) (e : Formula Operand) : Structure :=
  (e.layers text).toStructure

def operands : Formula Operand → List Operand
  | .operand o => [o]
  | .not e => e.operands
  | .compare _ l r => l.operands ++ r.operands
  | .and l r => l.operands ++ r.operands
  | .or l r => l.operands ++ r.operands
  | .group e => e.operands

def symbols (text : Operand → List Char) : Formula Operand → List Symbol
  | .operand o => [.operand (text o)]
  | .not e => .not :: e.symbols text
  | .compare operator l r => l.symbols text ++ .comparison operator :: r.symbols text
  | .and l r => l.symbols text ++ .and :: r.symbols text
  | .or l r => l.symbols text ++ .or :: r.symbols text
  | .group e => .opening :: e.symbols text ++ [.closing]

def beginsWithNot : Formula Operand → Bool
  | .operand _ => false
  | .not _ => true
  | .compare _ l _ => l.beginsWithNot
  | .and l _ => l.beginsWithNot
  | .or l _ => l.beginsWithNot
  | .group _ => false

/-- No `!` stands directly after a comparison operator. -/
def Allowed : Formula Operand → Prop
  | .operand _ => True
  | .not e => e.Allowed
  | .compare _ l r => l.Allowed ∧ r.Allowed ∧ r.beginsWithNot = false
  | .and l r => l.Allowed ∧ r.Allowed
  | .or l r => l.Allowed ∧ r.Allowed
  | .group e => e.Allowed

end Formula

section JoinLast

variable {α : Type} {f : α → α → α} {as bs : List α}

lemma joinLast_ne_nil (h : as ≠ []) : joinLast f as bs ≠ [] := by
  unfold joinLast
  split <;> simp_all

lemma joinLast_cons {a : α} (h : as ≠ []) : joinLast f (a :: as) bs = a :: joinLast f as bs := by
  obtain ⟨b, as, rfl⟩ := List.exists_cons_of_ne_nil h
  rfl

lemma forall_mem_joinLast {P : α → Prop} (hf : ∀ a b, P a → P b → P (f a b))
    (has : ∀ a ∈ as, P a) (hbs : ∀ b ∈ bs, P b) : ∀ a ∈ joinLast f as bs, P a := by
  induction as with
  | nil => exact hbs
  | cons a as ih =>
    obtain ⟨ha, has⟩ := List.forall_mem_cons.1 has
    cases as with
    | nil =>
      cases bs with
      | nil => exact List.forall_mem_singleton.2 ha
      | cons b bs =>
        obtain ⟨hb, hbs⟩ := List.forall_mem_cons.1 hbs
        exact List.forall_mem_cons.2 ⟨hf a b ha hb, hbs⟩
    | cons a' as => exact List.forall_mem_cons.2 ⟨ha, ih has⟩

end JoinLast

/-- No level is empty. -/
structure Layers.Full (layers : Layers) : Prop where
  ne_nil : layers ≠ []
  conjuncts : ∀ conjuncts ∈ layers, conjuncts ≠ []

namespace Formula

variable (text : Operand → List Char)

lemma full_layers (e : Formula Operand) : (e.layers text).Full := by
  induction e with
  | operand o => exact ⟨by simp [layers], by simp [layers]⟩
  | not e ih =>
    obtain ⟨hne, hconjuncts⟩ := ih
    rw [layers]
    obtain ⟨C, L, hL⟩ := List.exists_cons_of_ne_nil hne
    rw [hL] at hconjuncts ⊢
    have hC := (List.forall_mem_cons.1 hconjuncts).1
    obtain ⟨a, C', rfl⟩ := List.exists_cons_of_ne_nil hC
    have htail := (List.forall_mem_cons.1 hconjuncts).2
    exact ⟨List.cons_ne_nil _ _, List.forall_mem_cons.2 ⟨List.cons_ne_nil _ _, htail⟩⟩
  | compare operator l r ihl ihr =>
    refine ⟨joinLast_ne_nil ihl.ne_nil, forall_mem_joinLast ?_ ihl.conjuncts ihr.conjuncts⟩
    exact fun C D hC _ => joinLast_ne_nil hC
  | and l r ihl ihr =>
    refine ⟨joinLast_ne_nil ihl.ne_nil, forall_mem_joinLast ?_ ihl.conjuncts ihr.conjuncts⟩
    exact fun C D hC _ => List.append_ne_nil_of_left_ne_nil hC D
  | or l r ihl ihr =>
    exact ⟨List.append_ne_nil_of_left_ne_nil ihl.ne_nil _,
      List.forall_mem_append.2 ⟨ihl.conjuncts, ihr.conjuncts⟩⟩
  | group e ih => exact ⟨by simp [layers], by simp [layers]⟩

end Formula

namespace Structure.Partial

variable {p : Partial}

/-- An operand has to come next: nothing has been read of the present comparison, or an operator at
last. -/
inductive Awaits (p : Partial) : Prop where
  | start (first : p.first = none) (others : p.others = []) (operator : p.operator = none)
  | after (first : p.first ≠ none) (operator : p.operator ≠ none)

/-- The state after a chain where an operand is awaited. -/
def put (p : Partial) (a : Chain) : Partial :=
  match p.operator with
  | none =>
    { p with negations := p.negations + a.negations, first := some a.first, others := a.others }
  | some operator =>
    { p with others := p.others ++ (operator, a.first) :: a.others, operator := none }

/-- The state after `&&`. -/
def conjoined (p : Partial) : Option Partial :=
  p.comparison?.map fun s => { disjuncts := p.disjuncts, conjuncts := p.conjuncts ++ [s] }

/-- The state after `||`. -/
def disjoined (p : Partial) : Option Partial :=
  p.conjunction?.map fun s => { disjuncts := p.disjuncts ++ [s] }

/-- The state after a comparison operator. -/
def compared (operator : Comparison) (p : Partial) : Option Partial :=
  if p.awaitsOperand then none else some { p with operator := some operator }

def putConjuncts (p : Partial) : List Chain → Option Partial
  | [] => none
  | [a] => some (p.put a)
  | a :: b :: conjuncts => (p.put a).conjoined.bind (putConjuncts · (b :: conjuncts))

def putLayers (p : Partial) : Layers → Option Partial
  | [] => none
  | [conjuncts] => p.putConjuncts conjuncts
  | C :: D :: layers => ((p.putConjuncts C).bind disjoined).bind (putLayers · (D :: layers))

lemma putConjuncts_cons {a : Chain} {conjuncts : List Chain} (h : conjuncts ≠ []) :
    p.putConjuncts (a :: conjuncts) = (p.put a).conjoined.bind (putConjuncts · conjuncts) := by
  obtain ⟨b, conjuncts, rfl⟩ := List.exists_cons_of_ne_nil h
  rfl

lemma putLayers_cons {C : List Chain} {layers : Layers} (h : layers ≠ []) :
    p.putLayers (C :: layers) =
      ((p.putConjuncts C).bind disjoined).bind (putLayers · layers) := by
  obtain ⟨D, layers, rfl⟩ := List.exists_cons_of_ne_nil h
  rfl

lemma putConjuncts_append {C D : List Chain} (hC : C ≠ []) (hD : D ≠ []) :
    p.putConjuncts (C ++ D) =
      ((p.putConjuncts C).bind conjoined).bind (putConjuncts · D) := by
  induction C generalizing p with
  | nil => exact absurd rfl hC
  | cons a C ih =>
    by_cases hnil : C = []
    · rw [hnil, List.singleton_append, putConjuncts_cons hD]
      rfl
    · rw [List.cons_append, putConjuncts_cons (List.append_ne_nil_of_left_ne_nil hnil D),
        putConjuncts_cons hnil]
      simp only [ih hnil, Option.bind_assoc]

lemma putLayers_append {L R : Layers} (hL : L ≠ []) (hR : R ≠ []) :
    p.putLayers (L ++ R) = ((p.putLayers L).bind disjoined).bind (putLayers · R) := by
  induction L generalizing p with
  | nil => exact absurd rfl hL
  | cons C L ih =>
    by_cases hnil : L = []
    · rw [hnil, List.singleton_append, putLayers_cons hR]
      rfl
    · rw [List.cons_append, putLayers_cons (List.append_ne_nil_of_left_ne_nil hnil R),
        putLayers_cons hnil]
      simp only [ih hnil, Option.bind_assoc]

lemma awaits_of_disjoined {q : Partial} (h : p.disjoined = some q) :
    q.Awaits ∧ q.first = none := by
  obtain ⟨s, -, rfl⟩ := Option.map_eq_some_iff.1 h
  exact ⟨.start rfl rfl rfl, rfl⟩

lemma awaits_of_conjoined {q : Partial} (h : p.conjoined = some q) :
    q.Awaits ∧ q.first = none := by
  obtain ⟨s, -, rfl⟩ := Option.map_eq_some_iff.1 h
  exact ⟨.start rfl rfl rfl, rfl⟩

lemma putLayers_joinLast {f : List Chain → List Chain → List Chain} {g : Partial → Option Partial}
    {L R : Layers} (hL : L ≠ []) (hR : R ≠ [])
    (hf : ∀ C ∈ L, ∀ D ∈ R, ∀ p : Partial, p.Awaits →
      p.putConjuncts (f C D) = ((p.putConjuncts C).bind g).bind (putConjuncts · D))
    (hp : p.Awaits) :
    p.putLayers (joinLast f L R) = ((p.putLayers L).bind g).bind (putLayers · R) := by
  induction L generalizing p with
  | nil => exact absurd rfl hL
  | cons C L ih =>
    obtain ⟨hC, hL'⟩ := List.forall_mem_cons.1 hf
    by_cases hnil : L = []
    · obtain ⟨D, R, rfl⟩ := List.exists_cons_of_ne_nil hR
      have hD := hC D List.mem_cons_self
      rw [hnil]
      by_cases hR' : R = []
      · rw [hR']
        exact hD p hp
      · change p.putLayers (f C D :: R) = _
        rw [putLayers_cons hR', hD p hp]
        simp only [putLayers, putLayers_cons hR', Option.bind_assoc]
    · rw [joinLast_cons hnil, putLayers_cons (joinLast_ne_nil hnil), putLayers_cons hnil]
      simp only [Option.bind_assoc]
      refine Option.bind_congr fun q _ => Option.bind_congr fun q' hq' => ?_
      rw [ih hnil hL' (awaits_of_disjoined hq').1, Option.bind_assoc]

lemma compared_put (hp : p.Awaits) (operator : Comparison) (a b : Chain) :
    (compared operator (p.put a)).map (put · b) = some (p.put (a.join operator b)) := by
  cases hp with
  | start hfirst hothers hoperator =>
    simp [compared, put, hoperator, awaitsOperand, Chain.join]
  | after hfirst hoperator =>
    obtain ⟨before, hbefore⟩ := Option.ne_none_iff_exists'.1 hoperator
    have hsome : p.first.isNone = false := by
      simpa [Option.isSome_iff_ne_none] using hfirst
    simp [compared, put, hbefore, awaitsOperand, Chain.join, hsome]

lemma putConjuncts_joinLast {C D : List Chain} (hC : C ≠ []) (hD : D ≠ []) (hp : p.Awaits)
    (operator : Comparison) :
    p.putConjuncts (joinLast (Chain.join operator) C D) =
      ((p.putConjuncts C).bind (compared operator)).bind (putConjuncts · D) := by
  induction C generalizing p with
  | nil => exact absurd rfl hC
  | cons a C ih =>
    by_cases hnil : C = []
    · obtain ⟨b, D, rfl⟩ := List.exists_cons_of_ne_nil hD
      obtain ⟨q, hq, hput⟩ := Option.map_eq_some_iff.1 (compared_put hp operator a b)
      rw [hnil]
      change p.putConjuncts (a.join operator b :: D) =
        ((some (p.put a)).bind (compared operator)).bind (putConjuncts · (b :: D))
      rw [Option.bind_some, hq, Option.bind_some]
      by_cases hD' : D = []
      · rw [hD', putConjuncts, putConjuncts, hput]
      · rw [putConjuncts_cons hD', putConjuncts_cons hD', hput]
    · rw [joinLast_cons hnil, putConjuncts_cons (joinLast_ne_nil hnil), putConjuncts_cons hnil]
      simp only [Option.bind_assoc]
      refine Option.bind_congr fun q hq => ?_
      rw [ih hnil (awaits_of_conjoined hq).1, Option.bind_assoc]

lemma put_negated (hoperator : p.operator = none) (a : Chain) :
    p.put a.negated = ({ p with negations := p.negations + 1 } : Partial).put a := by
  simp only [put, hoperator, Chain.negated]
  congr 1
  omega

lemma putLayers_congr {q : Partial} {a b : Chain} {C : List Chain} {L : Layers}
    (h : p.put a = q.put b) : p.putLayers ((a :: C) :: L) = q.putLayers ((b :: C) :: L) := by
  have hconjuncts : p.putConjuncts (a :: C) = q.putConjuncts (b :: C) := by
    cases C with
    | nil => rw [putConjuncts, putConjuncts, h]
    | cons c C => rw [putConjuncts, putConjuncts, h]
  cases L with
  | nil => exact hconjuncts
  | cons D L => rw [putLayers, putLayers, hconjuncts]

lemma comparison?_put (disjuncts conjuncts : List Structure) (a : Chain) :
    (({ disjuncts, conjuncts } : Partial).put a).comparison? = some a.toStructure := by
  simp [put, comparison?, Chain.toStructure]

lemma putConjuncts_eq {C : List Chain} (hC : C ≠ []) (disjuncts conjuncts : List Structure) :
    ∃ q, ({ disjuncts, conjuncts } : Partial).putConjuncts C = some q ∧
      q.disjuncts = disjuncts ∧
        q.conjunction? = some (conjoin (conjuncts ++ C.map Chain.toStructure)) := by
  induction C generalizing conjuncts with
  | nil => exact absurd rfl hC
  | cons a C ih =>
    by_cases hnil : C = []
    · refine ⟨_, by rw [hnil]; rfl, rfl, ?_⟩
      rw [conjunction?, comparison?_put, hnil]
      rfl
    · obtain ⟨q, hq, hdisjuncts, hconjunction⟩ := ih hnil (conjuncts ++ [a.toStructure])
      refine ⟨q, ?_, hdisjuncts, ?_⟩
      · rw [putConjuncts_cons hnil, conjoined, comparison?_put]
        exact hq
      · rw [hconjunction, List.append_assoc]
        rfl

lemma putLayers_eq {L : Layers} (hL : L.Full) (disjuncts : List Structure) :
    (({ disjuncts } : Partial).putLayers L).bind disjunction? =
      some (disjoin (disjuncts ++ L.map fun C => conjoin (C.map Chain.toStructure))) := by
  obtain ⟨hne, hconjuncts⟩ := hL
  induction L generalizing disjuncts with
  | nil => exact absurd rfl hne
  | cons C L ih =>
    obtain ⟨hC, hL⟩ := List.forall_mem_cons.1 hconjuncts
    obtain ⟨q, hq, hdisjuncts, hconjunction⟩ := putConjuncts_eq hC disjuncts []
    rw [List.nil_append] at hconjunction
    by_cases hnil : L = []
    · rw [hnil, putLayers, hq, Option.bind_some, disjunction?, hconjunction, hdisjuncts]
      rfl
    · rw [putLayers_cons hnil, hq, Option.bind_some, disjoined, hconjunction, hdisjuncts,
        Option.map_some, Option.bind_some, ih _ hnil hL, List.append_assoc]
      rfl

lemma operand_eq (hp : p.Awaits) (s : Structure) : p.operand s = some (p.put { first := s }) := by
  cases hp with
  | start hfirst hothers hoperator => simp [Partial.operand, put, hfirst, hothers, hoperator]
  | after hfirst hoperator =>
    obtain ⟨first, hfirst⟩ := Option.ne_none_iff_exists'.1 hfirst
    obtain ⟨before, hbefore⟩ := Option.ne_none_iff_exists'.1 hoperator
    simp [Partial.operand, put, hfirst, hbefore]

lemma awaitsOperand_eq (hp : p.Awaits) : p.awaitsOperand = true := by
  cases hp with
  | start hfirst hothers hoperator => simp [awaitsOperand, hfirst]
  | after hfirst hoperator => simpa [awaitsOperand, Option.isSome_iff_ne_none] using .inr hoperator

lemma awaits_of_compared {operator : Comparison} {q : Partial}
    (h : p.compared operator = some q) : q.Awaits := by
  unfold compared at h
  split at h
  · cases h
  · rename_i hawaits
    cases h
    refine .after ?_ (Option.some_ne_none operator)
    intro hnone
    have hfirst : p.first = none := hnone
    exact hawaits (by simp [awaitsOperand, hfirst])

end Structure.Partial

namespace Structure

open Partial

variable {outer : List Partial} {p : Partial} {symbols : List Symbol}

lemma build_operand (hp : p.Awaits) (text : List Char) :
    build outer p (.operand text :: symbols) =
      build outer (p.put { first := .operand (.ofList text) }) symbols := by
  rw [build, operand_eq hp]

lemma build_opening (hp : p.Awaits) :
    build outer p (.opening :: symbols) = build (p :: outer) {} symbols := by
  change (if p.awaitsOperand then _ else _) = _
  rw [if_pos (awaitsOperand_eq hp)]

lemma build_closing {before : Partial} (hbefore : before.Awaits) {s : Structure}
    (h : p.disjunction? = some s) :
    build (before :: outer) p (.closing :: symbols) =
      build outer (before.put { first := s }) symbols := by
  simp only [build, h, operand_eq hbefore]

lemma build_not (hfirst : p.first = none) :
    build outer p (.not :: symbols) =
      build outer { p with negations := p.negations + 1 } symbols := by
  change (if p.first.isNone then _ else _) = _
  rw [hfirst]
  rfl

lemma build_comparison (operator : Comparison) :
    build outer p (.comparison operator :: symbols) =
      (p.compared operator).bind (build outer · symbols) := by
  change (if p.awaitsOperand then _ else _) = _
  rw [compared]
  split <;> rfl

lemma build_and :
    build outer p (.and :: symbols) = p.conjoined.bind (build outer · symbols) := by
  rw [build, conjoined]
  cases p.comparison? <;> rfl

lemma build_or :
    build outer p (.or :: symbols) = p.disjoined.bind (build outer · symbols) := by
  rw [build, disjoined]
  cases p.conjunction? <;> rfl

theorem build_symbols (text : Operand → List Char) {e : Formula Operand} (he : e.Allowed)
    (hp : p.Awaits) (hnot : e.beginsWithNot = true → p.first = none) :
    build outer p (e.symbols text ++ symbols) =
      (p.putLayers (e.layers text)).bind (build outer · symbols) := by
  induction e generalizing outer p symbols with
  | operand o => exact build_operand hp (text o)
  | not e ih =>
    have hfirst := hnot rfl
    obtain ⟨hothers, hoperator⟩ : p.others = [] ∧ p.operator = none := by
      cases hp with
      | start _ hothers hoperator => exact ⟨hothers, hoperator⟩
      | after hsome _ => exact absurd hfirst hsome
    obtain ⟨hne, hconjuncts⟩ := e.full_layers text
    obtain ⟨C, L, hL⟩ := List.exists_cons_of_ne_nil hne
    obtain ⟨a, C', rfl⟩ :=
      List.exists_cons_of_ne_nil (hconjuncts C (hL ▸ List.mem_cons_self))
    rw [Formula.symbols, List.cons_append, build_not hfirst,
      ih (p := { p with negations := p.negations + 1 }) he (.start hfirst hothers hoperator)
        (fun _ => hfirst), Formula.layers, hL, List.modifyHead_cons, List.modifyHead_cons,
      putLayers_congr (put_negated hoperator a)]
  | compare operator l r ihl ihr =>
    obtain ⟨hl, hr, hbegins⟩ := he
    have hputs := putLayers_joinLast (f := joinLast (Chain.join operator)) (g := compared operator)
      (l.full_layers text).ne_nil (r.full_layers text).ne_nil
      (fun C hC D hD q hq => putConjuncts_joinLast ((l.full_layers text).conjuncts C hC)
        ((r.full_layers text).conjuncts D hD) hq operator) hp
    rw [Formula.symbols, List.append_assoc, ihl hl hp hnot, Formula.layers, hputs,
      Option.bind_assoc, Option.bind_assoc]
    refine Option.bind_congr fun q _ => ?_
    rw [List.cons_append, build_comparison]
    refine Option.bind_congr fun q' hq' => ?_
    exact ihr hr (awaits_of_compared hq') (by simp [hbegins])
  | and l r ihl ihr =>
    obtain ⟨hl, hr⟩ := he
    have hputs := putLayers_joinLast (f := (· ++ ·)) (g := conjoined)
      (l.full_layers text).ne_nil (r.full_layers text).ne_nil
      (fun C hC D hD q _ => putConjuncts_append ((l.full_layers text).conjuncts C hC)
        ((r.full_layers text).conjuncts D hD)) hp
    rw [Formula.symbols, List.append_assoc, ihl hl hp hnot, Formula.layers, hputs,
      Option.bind_assoc, Option.bind_assoc]
    refine Option.bind_congr fun q _ => ?_
    rw [List.cons_append, build_and]
    refine Option.bind_congr fun q' hq' => ?_
    exact ihr hr (awaits_of_conjoined hq').1 fun _ => (awaits_of_conjoined hq').2
  | or l r ihl ihr =>
    obtain ⟨hl, hr⟩ := he
    rw [Formula.symbols, List.append_assoc, ihl hl hp hnot, Formula.layers,
      putLayers_append (l.full_layers text).ne_nil (r.full_layers text).ne_nil,
      Option.bind_assoc, Option.bind_assoc]
    refine Option.bind_congr fun q _ => ?_
    rw [List.cons_append, build_or]
    refine Option.bind_congr fun q' hq' => ?_
    exact ihr hr (awaits_of_disjoined hq').1 fun _ => (awaits_of_disjoined hq').2
  | group e ih =>
    have hlayers := putLayers_eq (e.full_layers text) []
    obtain ⟨q, hq, hstructure⟩ := Option.bind_eq_some_iff.1 hlayers
    rw [Formula.symbols, List.append_assoc, List.cons_append, build_opening hp,
      ih he (.start rfl rfl rfl) (fun _ => rfl), hq, Option.bind_some, List.singleton_append,
      build_closing hp hstructure]
    rfl

/-- The symbols of a formula are read as its structure. -/
theorem build_eq (text : Operand → List Char) {e : Formula Operand} (he : e.Allowed) :
    build [] {} (e.symbols text) = some (e.toStructure text) := by
  have hbuild : build [] {} (e.symbols text ++ []) =
      (({} : Partial).putLayers (e.layers text)).bind disjunction? :=
    build_symbols text he (.start rfl rfl rfl) (fun _ => rfl)
  rw [List.append_nil] at hbuild
  exact hbuild.trans (putLayers_eq (e.full_layers text) [])

end Structure

section Leaves

namespace Structure

mutual

/-- The operands of a structure, from left to right. -/
def leaves : Structure → List String
  | .operand text => [text]
  | .comparison first others => first.leaves ++ leavesOfOthers others
  | .negation inner => inner.leaves
  | .conjunction parts => leavesOfParts parts
  | .disjunction parts => leavesOfParts parts

def leavesOfOthers : List (Comparison × Structure) → List String
  | [] => []
  | (_, s) :: others => s.leaves ++ leavesOfOthers others

def leavesOfParts : List Structure → List String
  | [] => []
  | s :: parts => s.leaves ++ leavesOfParts parts

end

lemma leavesOfOthers_append (others others' : List (Comparison × Structure)) :
    leavesOfOthers (others ++ others') = leavesOfOthers others ++ leavesOfOthers others' := by
  induction others with
  | nil => rfl
  | cons other others ih =>
    rw [List.cons_append, leavesOfOthers, leavesOfOthers, ih, List.append_assoc]

lemma leavesOfParts_eq (parts : List Structure) : leavesOfParts parts = parts.flatMap leaves := by
  induction parts with
  | nil => rfl
  | cons s parts ih => rw [leavesOfParts, ih, List.flatMap_cons]

namespace Partial

lemma leaves_negate (n : Nat) (s : Structure) : (negate n s).leaves = s.leaves := by
  induction n with
  | zero => rfl
  | succ n ih => rw [negate, leaves, ih]

lemma leaves_chain (first : Structure) (others : List (Comparison × Structure)) :
    (chain first others).leaves = first.leaves ++ leavesOfOthers others := by
  cases others with
  | nil => rw [chain, leavesOfOthers, List.append_nil]
  | cons other others => rw [chain, leaves]; exact List.cons_ne_nil _ _

lemma leaves_conjoin (parts : List Structure) :
    (conjoin parts).leaves = parts.flatMap leaves := by
  unfold conjoin
  split
  · rw [List.flatMap_singleton]
  · rw [leaves, leavesOfParts_eq]

lemma leaves_disjoin (parts : List Structure) :
    (disjoin parts).leaves = parts.flatMap leaves := by
  unfold disjoin
  split
  · rw [List.flatMap_singleton]
  · rw [leaves, leavesOfParts_eq]

end Partial

end Structure

open Structure Structure.Partial

lemma flatMap_joinLast {α β : Type} {f : α → α → α} {g : α → List β}
    (hf : ∀ a b, g (f a b) = g a ++ g b) (as bs : List α) :
    (joinLast f as bs).flatMap g = as.flatMap g ++ bs.flatMap g := by
  induction as with
  | nil => rfl
  | cons a as ih =>
    by_cases hnil : as = []
    · rw [hnil]
      cases bs with
      | nil => rw [joinLast, List.flatMap_nil, List.append_nil]
      | cons b bs => simp [joinLast, hf]
    · rw [joinLast_cons hnil, List.flatMap_cons, ih, List.flatMap_cons, List.append_assoc]

namespace Chain

def leaves (a : Chain) : List String :=
  a.first.leaves ++ leavesOfOthers a.others

lemma leaves_toStructure (a : Chain) : a.toStructure.leaves = a.leaves := by
  rw [toStructure, leaves_negate, leaves_chain, leaves]

lemma leaves_join (operator : Comparison) (a b : Chain) :
    (a.join operator b).leaves = a.leaves ++ b.leaves := by
  rw [leaves, leaves, leaves, join, leavesOfOthers_append, leavesOfOthers, List.append_assoc]

end Chain

def Layers.leaves (layers : Layers) : List String :=
  layers.flatMap (·.flatMap Chain.leaves)

lemma Layers.leaves_toStructure (layers : Layers) :
    layers.toStructure.leaves = layers.leaves := by
  have hconjuncts : ∀ C : List Chain,
      (conjoin (C.map Chain.toStructure)).leaves = C.flatMap Chain.leaves := by
    intro C
    rw [leaves_conjoin, List.flatMap_map]
    simp only [Chain.leaves_toStructure]
  rw [toStructure, leaves_disjoin, List.flatMap_map]
  simp only [hconjuncts, leaves]

lemma Formula.leaves_layers (text : Operand → List Char) (e : Formula Operand) :
    (e.layers text).leaves = e.operands.map (.ofList <| text ·) := by
  induction e with
  | operand o => rfl
  | not e ih =>
    obtain ⟨hne, hconjuncts⟩ := e.full_layers text
    obtain ⟨C, L, hL⟩ := List.exists_cons_of_ne_nil hne
    obtain ⟨a, C', rfl⟩ :=
      List.exists_cons_of_ne_nil (hconjuncts C (hL ▸ List.mem_cons_self))
    rw [hL] at ih
    rw [layers, hL, operands, ← ih]
    rfl
  | compare operator l r ihl ihr =>
    rw [layers, Layers.leaves, flatMap_joinLast (flatMap_joinLast (Chain.leaves_join operator)),
      operands, List.map_append, ← ihl, ← ihr, Layers.leaves, Layers.leaves]
  | and l r ihl ihr =>
    rw [layers, Layers.leaves, flatMap_joinLast (fun C D => List.flatMap_append),
      operands, List.map_append, ← ihl, ← ihr, Layers.leaves, Layers.leaves]
  | or l r ihl ihr =>
    rw [layers, Layers.leaves, List.flatMap_append, operands, List.map_append, ← ihl, ← ihr,
      Layers.leaves, Layers.leaves]
  | group e ih =>
    rw [layers, operands, ← ih, ← Layers.leaves_toStructure (e.layers text)]
    simp [Layers.leaves, Chain.leaves, leavesOfOthers]

/-- The leaves of a structure are the operands of the formula, in their order. -/
theorem Formula.leaves_toStructure (text : Operand → List Char) (e : Formula Operand) :
    (e.toStructure text).leaves = e.operands.map (.ofList <| text ·) := by
  rw [toStructure, Layers.leaves_toStructure, leaves_layers]

end Leaves

end Kconfig
