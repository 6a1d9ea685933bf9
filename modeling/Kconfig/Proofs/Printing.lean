import Kconfig.Proofs.Conditions

/-!
# Printing structures

A structure is printed with parentheses around every part that does not bind more tightly than the
chain around it, any others that one likes, and separators between the symbols. Reading gives the
structure back, with its chains as flat as they were.

Operands are the texts that are taken for an operand as a whole, with the ways to take an operand
tried in their order. So `0x1G` is none, as `0x1` is split off from it.
-/

namespace Kconfig

namespace Structure

open Partial (conjoin disjoin negate)
open Text (isWideHexDigit)

section Operands

variable {c : Char} {cs text rest : List Char}

/-- A text that is an operand as a whole. -/
structure IsOperand (text : List Char) : Prop where
  whole : splitOperand text = some (text, [])
  noTab : '\t' ∉ text

lemma splitQuoted_append (h : splitQuoted text = some (text, [])) :
    splitQuoted (text ++ rest) = some (text, rest) := by
  unfold splitQuoted at h
  split at h
  · cases h
  · rename_i c cs
    split at h
    · rename_i hquote
      split at h
      · cases h
      · rename_i d after hdrop
        obtain ⟨htext, rfl⟩ := Prod.mk.inj (Option.some.inj h)
        have hclosed : c ∉ cs.takeWhile (· ≠ c) := by
          intro hmem
          simpa using List.mem_takeWhile_imp hmem
        generalize cs.takeWhile (· ≠ c) = inner at htext hclosed
        obtain rfl : inner ++ [c] = cs := (List.cons.inj htext).2
        have hsplit : splitQuoted (c :: inner ++ c :: rest) = some (c :: inner ++ [c], rest) :=
          splitQuoted_closed hquote hclosed
        simpa using hsplit
    · cases h

lemma splitHex_append (h : splitHex text = some (text, [])) (hrest : EndsOperand rest) :
    splitHex (text ++ rest) = some (text, rest) := by
  unfold splitHex at h
  split at h
  · rename_i x digits
    split at h
    · rename_i hhex
      obtain ⟨htext, -⟩ := Prod.mk.inj (Option.some.inj h)
      have hdigits : digits.takeWhile isWideHexDigit = digits := by simpa using htext
      have hall : ∀ d ∈ digits, isWideHexDigit d = true := List.takeWhile_eq_self_iff.1 hdigits
      have hend : ∀ d ∈ rest.head?, isWideHexDigit d = false := fun d hd => (hrest d hd).2
      rw [hdigits] at hhex
      rw [List.cons_append, List.cons_append, splitHex, takeWhile_append hall hend,
        dropWhile_append hall hend, if_pos hhex]
    · cases h
  · cases h

lemma takeWhile_append_eq_nil {p : Char → Bool} (h : text.takeWhile p = [])
    (hrest : ∀ d ∈ rest.head?, p d = false) : (text ++ rest).takeWhile p = [] := by
  cases text with
  | nil => exact takeWhile_append (List.forall_mem_nil _) hrest
  | cons d text =>
    have hd : ¬p d = true := by
      intro hd
      rw [List.takeWhile_cons_of_pos hd] at h
      cases h
    exact List.takeWhile_cons_of_neg hd

lemma splitHex_append_eq_none (h : splitHex text = none) (hne : text ≠ [])
    (hrest : EndsOperand rest) : splitHex (text ++ rest) = none := by
  match text with
  | [] => exact absurd rfl hne
  | [c] =>
    unfold splitHex
    split
    · rename_i x digits heq
      obtain ⟨-, rfl⟩ := List.cons.inj heq
      refine if_neg fun hhex => ?_
      have hx := (hrest x rfl).1
      obtain rfl | rfl := hhex.1 <;> cases hx
    · rfl
  | c :: x :: digits =>
    have hend : ∀ d ∈ rest.head?, isWideHexDigit d = false := fun d hd => (hrest d hd).2
    by_cases hc : c = '0'
    · subst hc
      rw [splitHex] at h
      rw [List.cons_append, List.cons_append, splitHex]
      refine if_neg fun hhex => ?_
      split at h
      · cases h
      · rename_i hnot
        have hnil : digits.takeWhile isWideHexDigit = [] := by
          by_contra hne
          exact hnot ⟨hhex.1, hne⟩
        exact hhex.2 (takeWhile_append_eq_nil hnil hend)
    · unfold splitHex
      split
      · rename_i heq
        exact absurd (List.cons.inj heq).1 hc
      · rfl

lemma splitWord_append (h : splitWord text = some (text, [])) (hrest : EndsOperand rest) :
    splitWord (text ++ rest) = some (text, rest) := by
  have hend : ∀ d ∈ rest.head?, isOperandChar d = false := fun d hd => (hrest d hd).1
  cases text with
  | nil => cases h
  | cons c cs =>
    rw [splitWord] at h
    rw [List.cons_append, splitWord]
    split at h
    · rename_i hc
      obtain ⟨htext, -⟩ := Prod.mk.inj (Option.some.inj h)
      have hcs : cs.takeWhile isOperandChar = cs := by simpa using htext
      have hall : ∀ d ∈ cs, isOperandChar d = true := List.takeWhile_eq_self_iff.1 hcs
      rw [if_pos hc, takeWhile_append hall hend, dropWhile_append hall hend]
    · rename_i hc
      split at h
      · rename_i hdollar
        obtain ⟨htext, -⟩ := Prod.mk.inj (Option.some.inj h)
        obtain ⟨hdollar', hcs⟩ := List.cons.inj htext
        have hall : ∀ d ∈ cs, isOperandChar d = true := List.takeWhile_eq_self_iff.1 hcs
        rw [hcs] at hdollar
        rw [if_neg hc, takeWhile_append hall hend, dropWhile_append hall hend, if_pos hdollar,
          hdollar']
      · cases h

lemma begins_of_splitOperand {split : List Char × List Char}
    (h : splitOperand (c :: cs) = some split) :
    ((c = '"' ∨ c = '\'') ∧ splitQuoted (c :: cs) = some split) ∨
      c = '$' ∨ isOperandChar c = true := by
  unfold splitOperand at h
  split at h
  · rename_i split' hquoted
    rw [splitQuoted] at hquoted
    split at hquoted
    · rename_i hc
      refine .inl ⟨hc, ?_⟩
      rw [splitQuoted, if_pos hc, hquoted, h]
    · cases hquoted
  · split at h
    · rename_i split' hhex
      unfold splitHex at hhex
      split at hhex
      · rename_i x digits heq
        obtain ⟨rfl, -⟩ := List.cons.inj heq
        exact .inr (.inr (by decide))
      · cases hhex
    · rw [splitWord] at h
      split at h
      · rename_i hc
        exact .inr (.inr hc)
      · split at h
        · rename_i hc
          exact .inr (.inl hc.1)
        · cases h

lemma IsOperand.splitOperand_append (h : IsOperand text) (hrest : EndsOperand rest) :
    splitOperand (text ++ rest) = some (text, rest) := by
  have hwhole := h.whole
  obtain ⟨c, cs, rfl⟩ : ∃ c cs, text = c :: cs := by
    cases text with
    | nil => cases hwhole
    | cons c cs => exact ⟨c, cs, rfl⟩
  obtain ⟨-, hquoted⟩ | hc := begins_of_splitOperand hwhole
  · rw [splitOperand, splitQuoted_append hquoted]
  · have hquote : ¬(c = '"' ∨ c = '\'') := by
      rintro (rfl | rfl) <;> revert hc <;> decide
    have hquoted : ∀ cs, splitQuoted (c :: cs) = none := fun cs => if_neg hquote
    rw [splitOperand, hquoted] at hwhole
    rw [splitOperand, List.cons_append, hquoted, ← List.cons_append]
    dsimp only at hwhole ⊢
    split at hwhole
    · rename_i split hhex
      cases hwhole
      rw [splitHex_append hhex hrest]
    · rename_i hhex
      rw [splitHex_append_eq_none hhex (List.cons_ne_nil _ _) hrest]
      exact splitWord_append hwhole hrest

/-- The characters that other symbols than operands begin with, and those between symbols. -/
def marks : List Char :=
  ['(', ')', '=', '!', '<', '>', '&', '|', ' ', '\t', '\n', '\r']

lemma IsOperand.exists_eq_cons (h : IsOperand text) : ∃ c cs, text = c :: cs ∧ c ∉ marks := by
  have hwhole := h.whole
  cases text with
  | nil => cases hwhole
  | cons c cs =>
    refine ⟨c, cs, rfl, fun hc => ?_⟩
    have hoperand : ∀ c ∈ marks, isOperandChar c = false ∧ c ≠ '"' ∧ c ≠ '\'' ∧ c ≠ '$' := by decide
    obtain ⟨hchar, hdouble, hsingle, hdollar⟩ := hoperand c hc
    obtain ⟨h | h, -⟩ | h | h := begins_of_splitOperand hwhole
    · exact hdouble h
    · exact hsingle h
    · exact hdollar h
    · exact Bool.noConfusion (hchar.symm.trans h)

lemma splitSymbol_of_not_mem (hc : c ∉ marks) :
    splitSymbol (c :: cs) =
      (splitOperand (c :: cs)).map fun (text, rest) => (.operand text, rest) := by
  unfold splitSymbol
  split
  case h_12 => rfl
  all_goals
    rename_i heq
    cases heq
    exact absurd (by decide) hc

lemma IsOperand.scan_append (h : IsOperand text) (hrest : EndsOperand rest) :
    scan (text ++ rest) = (scan rest).map (.operand text :: ·) := by
  have hsplit := h.splitOperand_append hrest
  obtain ⟨c, cs, rfl, hc⟩ := h.exists_eq_cons
  have hspace : isSpace c = false := by
    by_contra hspace
    simp only [isSpace, Bool.not_eq_false, Bool.or_eq_true, beq_iff_eq] at hspace
    refine hc ?_
    obtain ((rfl | rfl) | rfl) | rfl := hspace <;> decide
  rw [List.cons_append] at hsplit ⊢
  refine scan_symbol hspace ?_
  rw [splitSymbol_of_not_mem hc, hsplit]
  rfl

end Operands

/-- The blanks between symbols. -/
def IsSpacing (c : Char) : Prop :=
  c = ' ' ∨ c = '\n' ∨ c = '\r'

/-- A text prints a structure. The number says how tightly the text binds: an operand or anything in
parentheses with 0, a chain of comparisons with 1, a negation with 2, and chains of `&&` and `||`
with 3 and 4. -/
inductive Prints : Nat → Structure → List Char → Prop where
  | operand {text : List Char} (h : IsOperand text) : Prints 0 (.operand (.ofList text)) text
  | comparison {l r : Structure} {left right : List Char} (operator : Comparison)
    (hl : Prints 0 l left) (hr : Prints 0 r right) :
    Prints 1 (.comparison l [(operator, r)]) (left ++ (operator.written.toList ++ right))
  | comparisonMore {first r : Structure} {others : List (Comparison × Structure)}
    {left right : List Char} (operator : Comparison)
    (hl : Prints 1 (.comparison first others) left) (hr : Prints 0 r right) :
    Prints 1 (.comparison first (others ++ [(operator, r)]))
      (left ++ (operator.written.toList ++ right))
  | negation {n : Nat} {inner : Structure} {text : List Char} (hn : n < 3)
    (h : Prints n inner text) : Prints 2 (.negation inner) ('!' :: text)
  | conjunction {m n : Nat} {l r : Structure} {left right : List Char} (hm : m < 3) (hn : n < 3)
    (hl : Prints m l left) (hr : Prints n r right) :
    Prints 3 (.conjunction [l, r]) (left ++ ("&&".toList ++ right))
  | conjunctionMore {n : Nat} {parts : List Structure} {r : Structure} {left right : List Char}
    (hn : n < 3) (hl : Prints 3 (.conjunction parts) left) (hr : Prints n r right) :
    Prints 3 (.conjunction (parts ++ [r])) (left ++ ("&&".toList ++ right))
  | disjunction {m n : Nat} {l r : Structure} {left right : List Char} (hm : m < 4) (hn : n < 4)
    (hl : Prints m l left) (hr : Prints n r right) :
    Prints 4 (.disjunction [l, r]) (left ++ ("||".toList ++ right))
  | disjunctionMore {n : Nat} {parts : List Structure} {r : Structure} {left right : List Char}
    (hn : n < 4) (hl : Prints 4 (.disjunction parts) left) (hr : Prints n r right) :
    Prints 4 (.disjunction (parts ++ [r])) (left ++ ("||".toList ++ right))
  | parentheses {n : Nat} {s : Structure} {text : List Char} (h : Prints n s text) :
    Prints 0 s ('(' :: (text ++ [')']))
  | before {n : Nat} {s : Structure} {text : List Char} (c : Char) (hc : IsSpacing c)
    (h : Prints n s text) : Prints n s (c :: text)
  | after {n : Nat} {s : Structure} {text : List Char} (c : Char) (hc : IsSpacing c)
    (h : Prints n s text) : Prints n s (text ++ [c])

/-- The layers of a formula that is printed for a structure, by how tightly it binds. -/
inductive Layered : Nat → Structure → Layers → Prop where
  | atom (s : Structure) : Layered 0 s [[{ first := s }]]
  | comparison (first : Structure) {others : List (Comparison × Structure)} (h : others ≠ []) :
    Layered 1 (.comparison first others) [[{ first, others }]]
  | negation (a : Chain) : Layered 2 (.negation a.toStructure) [[a.negated]]
  | conjunction {C : List Chain} (h : 2 ≤ C.length) :
    Layered 3 (.conjunction (C.map Chain.toStructure)) [C]
  | disjunction {L : Layers} (h : 2 ≤ L.length) :
    Layered 4 (.disjunction (L.map fun C => conjoin (C.map Chain.toStructure))) L

lemma exists_of_length {α : Type} {as : List α} (h : 2 ≤ as.length) :
    ∃ a b rest, as = a :: b :: rest := by
  match as, h with
  | a :: b :: rest, _ => exact ⟨a, b, rest, rfl⟩

lemma conjoin_of_length {parts : List Structure} (h : 2 ≤ parts.length) :
    conjoin parts = .conjunction parts := by
  obtain ⟨a, b, rest, rfl⟩ := exists_of_length h
  rfl

lemma disjoin_of_length {parts : List Structure} (h : 2 ≤ parts.length) :
    disjoin parts = .disjunction parts := by
  obtain ⟨a, b, rest, rfl⟩ := exists_of_length h
  rfl

namespace Layered

variable {n : Nat} {s : Structure} {L : Layers}

lemma eq_atom (h : Layered 0 s L) : L = [[{ first := s }]] := by
  cases h
  rfl

lemma eq_comparison {first : Structure} {others : List (Comparison × Structure)}
    (h : Layered 1 (.comparison first others) L) : L = [[{ first, others }]] := by
  cases h
  rfl

lemma eq_conjunction {parts : List Structure} (h : Layered 3 (.conjunction parts) L) :
    ∃ C : List Chain, L = [C] ∧ C.map Chain.toStructure = parts ∧ 2 ≤ C.length := by
  cases h with
  | conjunction hC => exact ⟨_, rfl, rfl, hC⟩

lemma eq_disjunction {parts : List Structure} (h : Layered 4 (.disjunction parts) L) :
    (L.map fun C => conjoin (C.map Chain.toStructure)) = parts ∧ 2 ≤ L.length := by
  cases h with
  | disjunction hL => exact ⟨rfl, hL⟩

lemma exists_chain (h : Layered n s L) (hn : n < 3) :
    ∃ a : Chain, L = [[a]] ∧ a.toStructure = s := by
  cases h with
  | atom => exact ⟨_, rfl, rfl⟩
  | @comparison first others hne =>
    obtain ⟨other, others, rfl⟩ := List.exists_cons_of_ne_nil hne
    exact ⟨_, rfl, rfl⟩
  | negation a => exact ⟨_, rfl, rfl⟩
  | conjunction => omega
  | disjunction => omega

lemma exists_conjuncts (h : Layered n s L) (hn : n < 4) :
    ∃ C : List Chain, L = [C] ∧ conjoin (C.map Chain.toStructure) = s := by
  by_cases hlt : n < 3
  · obtain ⟨a, rfl, rfl⟩ := h.exists_chain hlt
    exact ⟨[a], rfl, rfl⟩
  · cases h with
    | @conjunction C hC => exact ⟨C, rfl, conjoin_of_length (by simpa using hC)⟩
    | _ => omega

lemma toStructure_eq (h : Layered n s L) : L.toStructure = s := by
  by_cases hlt : n < 4
  · obtain ⟨C, rfl, rfl⟩ := h.exists_conjuncts hlt
    rfl
  · cases h with
    | @disjunction L hL => exact disjoin_of_length (by simpa using hL)
    | _ => omega

end Layered

/-- A text is read as the symbols of a formula, and that has the layers of a structure. -/
structure Represents (n : Nat) (s : Structure) (text : List Char) (e : Formula (List Char)) :
    Prop where
  layered : Layered n s (e.layers id)
  allowed : e.Allowed
  beginsPlain : n = 0 → e.beginsWithNot = false
  begins : ∃ c cs, text = c :: cs ∧ c ≠ '='
  noTab : '\t' ∉ text
  scan : ∀ rest, EndsOperand rest →
    Structure.scan (text ++ rest) = (Structure.scan rest).map (e.symbols id ++ ·)

namespace Represents

variable {m n : Nat} {s l r : Structure} {text left right : List Char} {e e' : Formula (List Char)}

lemma head_ne (h : Represents n s text e) (rest : List Char) :
    ∀ c ∈ (text ++ rest).head?, c ≠ '=' := by
  obtain ⟨c, cs, rfl, hc⟩ := h.begins
  rintro d ⟨⟩
  exact hc

lemma operand (h : IsOperand text) :
    Represents 0 (.operand (.ofList text)) text (.operand text) where
  layered := .atom _
  allowed := trivial
  beginsPlain := fun _ => rfl
  begins := by
    obtain ⟨c, cs, rfl, hc⟩ := h.exists_eq_cons
    refine ⟨c, cs, rfl, ?_⟩
    rintro rfl
    exact hc (by decide)
  noTab := h.noTab
  scan := fun _ hrest => h.scan_append hrest

lemma join {k : Nat} {operator : List Char} {symbol : Symbol} {whole : Formula (List Char)}
    (h : Represents m l left e) (h' : Represents n r right e')
    (hlayered : Layered k s (whole.layers id)) (hk : k ≠ 0) (hallowed : whole.Allowed)
    (hsymbols : whole.symbols id = e.symbols id ++ symbol :: e'.symbols id)
    (hends : ∀ rest, EndsOperand (operator ++ rest)) (htab : '\t' ∉ operator)
    (hoperator : ∀ rest, (∀ c ∈ rest.head?, c ≠ '=') →
      Structure.scan (operator ++ rest) = (Structure.scan rest).map (symbol :: ·)) :
    Represents k s (left ++ (operator ++ right)) whole where
  layered := hlayered
  allowed := hallowed
  beginsPlain := fun hzero => absurd hzero hk
  begins := by
    obtain ⟨c, cs, rfl, hc⟩ := h.begins
    exact ⟨c, _, rfl, hc⟩
  noTab := by simp [h.noTab, htab, h'.noTab]
  scan := by
    intro rest hrest
    rw [List.append_assoc, List.append_assoc, h.scan _ (hends _), hoperator _ (h'.head_ne rest),
      h'.scan rest hrest, hsymbols]
    exact (congrArg _ (map_append_map [symbol] _ _)).trans (map_append_map _ _ _)

lemma compare {k : Nat} (operator : Comparison) (h : Represents m l left e)
    (h' : Represents 0 r right e') (hk : k ≠ 0)
    (hlayered : Layered k s ((Formula.compare operator e e').layers id)) :
    Represents k s (left ++ (operator.written.toList ++ right)) (.compare operator e e') :=
  h.join h' hlayered hk ⟨h.allowed, h'.allowed, h'.beginsPlain rfl⟩ rfl
    (endsOperand_comparison operator) (by cases operator <;> decide)
    fun _ => scan_comparison operator

lemma and {k : Nat} (h : Represents m l left e) (h' : Represents n r right e') (hk : k ≠ 0)
    (hlayered : Layered k s ((Formula.and e e').layers id)) :
    Represents k s (left ++ ("&&".toList ++ right)) (.and e e') :=
  h.join h' hlayered hk ⟨h.allowed, h'.allowed⟩ rfl (fun _ => endsOperand_cons (by decide) _)
    (by decide) fun _ _ => scan_symbol rfl rfl

lemma or {k : Nat} (h : Represents m l left e) (h' : Represents n r right e') (hk : k ≠ 0)
    (hlayered : Layered k s ((Formula.or e e').layers id)) :
    Represents k s (left ++ ("||".toList ++ right)) (.or e e') :=
  h.join h' hlayered hk ⟨h.allowed, h'.allowed⟩ rfl (fun _ => endsOperand_cons (by decide) _)
    (by decide) fun _ _ => scan_symbol rfl rfl

lemma not {k : Nat} (h : Represents n l text e) (hk : k ≠ 0)
    (hlayered : Layered k s ((Formula.not e).layers id)) :
    Represents k s ('!' :: text) (.not e) where
  layered := hlayered
  allowed := h.allowed
  beginsPlain := fun hzero => absurd hzero hk
  begins := ⟨'!', text, rfl, by decide⟩
  noTab := by simp [h.noTab]
  scan := by
    intro rest hrest
    rw [List.cons_append, scan_symbol rfl (splitSymbol_single (h.head_ne rest)).1,
      h.scan rest hrest]
    exact map_append_map [.not] _ _

lemma group (h : Represents n s text e) : Represents 0 s ('(' :: (text ++ [')'])) (.group e) where
  layered := by
    rw [Formula.layers, h.layered.toStructure_eq]
    exact .atom s
  allowed := h.allowed
  beginsPlain := fun _ => rfl
  begins := ⟨'(', _, rfl, by decide⟩
  noTab := by simp [h.noTab]
  scan := by
    intro rest hrest
    have hclosing : Structure.scan ([')'] ++ rest) = (Structure.scan rest).map (.closing :: ·) :=
      scan_symbol rfl rfl
    have hopening : Structure.scan ('(' :: (text ++ ([')'] ++ rest))) =
        (Structure.scan (text ++ ([')'] ++ rest))).map (.opening :: ·) := scan_symbol rfl rfl
    have hend : EndsOperand ([')'] ++ rest) := endsOperand_cons (by decide) _
    rw [List.cons_append, List.append_assoc, hopening, h.scan _ hend, hclosing, Formula.symbols]
    refine (congrArg _ (map_append_map _ [.closing] _)).trans ?_
    exact map_append_map [.opening] _ _

lemma before {c : Char} (h : Represents n s text e) (hc : IsSpacing c) :
    Represents n s (c :: text) e where
  layered := h.layered
  allowed := h.allowed
  beginsPlain := h.beginsPlain
  begins := ⟨c, text, rfl, by obtain rfl | rfl | rfl := hc <;> decide⟩
  noTab := by obtain rfl | rfl | rfl := hc <;> simp [h.noTab]
  scan := by
    intro rest hrest
    have hspace : isSpace c = true := by obtain rfl | rfl | rfl := hc <;> rfl
    rw [List.cons_append, scan_space hspace, h.scan rest hrest]

lemma after {c : Char} (h : Represents n s text e) (hc : IsSpacing c) :
    Represents n s (text ++ [c]) e where
  layered := h.layered
  allowed := h.allowed
  beginsPlain := h.beginsPlain
  begins := by
    obtain ⟨d, cs, rfl, hd⟩ := h.begins
    exact ⟨d, _, rfl, hd⟩
  noTab := by obtain rfl | rfl | rfl := hc <;> simp [h.noTab]
  scan := by
    intro rest hrest
    have hspace : isSpace c = true := by obtain rfl | rfl | rfl := hc <;> rfl
    have hends : EndsOperand (c :: rest) := by
      refine endsOperand_cons ?_ rest
      obtain rfl | rfl | rfl := hc <;> decide
    rw [List.append_assoc, List.singleton_append, h.scan _ hends, scan_space hspace]

end Represents

/-- Every printed text is read as a formula for its structure. -/
theorem Prints.represents {n : Nat} {s : Structure} {text : List Char} (h : Prints n s text) :
    ∃ e, Represents n s text e := by
  induction h with
  | operand h => exact ⟨_, .operand h⟩
  | comparison operator hl hr ihl ihr =>
    obtain ⟨e, he⟩ := ihl
    obtain ⟨e', he'⟩ := ihr
    refine ⟨_, he.compare operator he' Nat.one_ne_zero ?_⟩
    rw [Formula.layers, he.layered.eq_atom, he'.layered.eq_atom]
    exact .comparison _ (List.cons_ne_nil _ _)
  | comparisonMore operator hl hr ihl ihr =>
    obtain ⟨e, he⟩ := ihl
    obtain ⟨e', he'⟩ := ihr
    refine ⟨_, he.compare operator he' Nat.one_ne_zero ?_⟩
    rw [Formula.layers, he.layered.eq_comparison, he'.layered.eq_atom]
    exact .comparison _ (List.append_ne_nil_of_right_ne_nil _ (List.cons_ne_nil _ _))
  | negation hn h ih =>
    obtain ⟨e, he⟩ := ih
    obtain ⟨a, ha, rfl⟩ := he.layered.exists_chain hn
    refine ⟨_, he.not (Nat.succ_ne_zero 1) ?_⟩
    rw [Formula.layers, ha]
    exact .negation a
  | conjunction hm hn hl hr ihl ihr =>
    obtain ⟨e, he⟩ := ihl
    obtain ⟨e', he'⟩ := ihr
    obtain ⟨a, ha, rfl⟩ := he.layered.exists_chain hm
    obtain ⟨b, hb, rfl⟩ := he'.layered.exists_chain hn
    refine ⟨_, he.and he' (Nat.succ_ne_zero 2) ?_⟩
    rw [Formula.layers, ha, hb]
    exact .conjunction (C := [a, b]) (Nat.le_refl 2)
  | conjunctionMore hn hl hr ihl ihr =>
    obtain ⟨e, he⟩ := ihl
    obtain ⟨e', he'⟩ := ihr
    obtain ⟨C, hC, rfl, hlength⟩ := he.layered.eq_conjunction
    obtain ⟨b, hb, rfl⟩ := he'.layered.exists_chain hn
    refine ⟨_, he.and he' (Nat.succ_ne_zero 2) ?_⟩
    have hparts : C.map Chain.toStructure ++ [b.toStructure] =
        (C ++ [b]).map Chain.toStructure := by simp
    rw [Formula.layers, hC, hb, hparts]
    refine .conjunction ?_
    rw [List.length_append]
    omega
  | disjunction hm hn hl hr ihl ihr =>
    obtain ⟨e, he⟩ := ihl
    obtain ⟨e', he'⟩ := ihr
    obtain ⟨C, hC, rfl⟩ := he.layered.exists_conjuncts hm
    obtain ⟨D, hD, rfl⟩ := he'.layered.exists_conjuncts hn
    refine ⟨_, he.or he' (Nat.succ_ne_zero 3) ?_⟩
    rw [Formula.layers, hC, hD]
    exact .disjunction (L := [C, D]) (Nat.le_refl 2)
  | disjunctionMore hn hl hr ihl ihr =>
    obtain ⟨e, he⟩ := ihl
    obtain ⟨e', he'⟩ := ihr
    obtain ⟨rfl, hlength⟩ := he.layered.eq_disjunction
    obtain ⟨D, hD, rfl⟩ := he'.layered.exists_conjuncts hn
    refine ⟨_, he.or he' (Nat.succ_ne_zero 3) ?_⟩
    have hparts : (e.layers id).map (fun C => conjoin (C.map Chain.toStructure)) ++
        [conjoin (D.map Chain.toStructure)] =
          (e.layers id ++ [D]).map fun C => conjoin (C.map Chain.toStructure) := by simp
    rw [Formula.layers, hD, hparts]
    refine .disjunction ?_
    rw [List.length_append]
    omega
  | parentheses h ih =>
    obtain ⟨e, he⟩ := ih
    exact ⟨_, he.group⟩
  | before c hc h ih =>
    obtain ⟨e, he⟩ := ih
    exact ⟨e, he.before hc⟩
  | after c hc h ih =>
    obtain ⟨e, he⟩ := ih
    exact ⟨e, he.after hc⟩

lemma Prints.ofText?_eq {n : Nat} {s : Structure} {text : List Char} (h : Prints n s text) :
    ofText? text = some s := by
  obtain ⟨e, he⟩ := h.represents
  have hscan := he.scan [] fun c hc => nomatch hc
  have hnil : scan [] = some [] := scan_of_blank rfl
  rw [List.append_nil, hnil, Option.map_some, List.append_nil] at hscan
  rw [ofText?, Text.expandTabs, expandTabsFrom_eq he.noTab, hscan, Option.bind_some,
    build_eq id he.allowed, Formula.toStructure, he.layered.toStructure_eq]

/-- Chains have at least two parts, and operands are such as a whole. -/
inductive Printable : Structure → Prop where
  | operand {text : List Char} (h : IsOperand text) : Printable (.operand (.ofList text))
  | comparison {first : Structure} {others : List (Comparison × Structure)}
    (hfirst : Printable first) (hothers : ∀ other ∈ others, Printable other.2)
    (hne : others ≠ []) : Printable (.comparison first others)
  | negation {inner : Structure} (h : Printable inner) : Printable (.negation inner)
  | conjunction {parts : List Structure} (h : ∀ part ∈ parts, Printable part)
    (hlength : 2 ≤ parts.length) : Printable (.conjunction parts)
  | disjunction {parts : List Structure} (h : ∀ part ∈ parts, Printable part)
    (hlength : 2 ≤ parts.length) : Printable (.disjunction parts)

lemma append_induction {α : Type} {P : List α → Prop} {start rest : List α} (h : P start)
    (hmore : ∀ a ∈ rest, ∀ front, P front → P (front ++ [a])) : P (start ++ rest) := by
  induction rest generalizing start with
  | nil => rwa [List.append_nil]
  | cons a rest ih =>
    obtain ⟨ha, hrest⟩ := List.forall_mem_cons.1 hmore
    rw [← List.singleton_append, ← List.append_assoc]
    exact ih (ha start h) hrest

lemma exists_prints_of_parts (n : Nat) {chain : List Structure → Structure}
    {parts : List Structure}
    (hbegin : ∀ {l r left right}, Prints 0 l left → Prints 0 r right →
      ∃ text, Prints n (chain [l, r]) text)
    (hmore : ∀ {front r left right}, Prints n (chain front) left → Prints 0 r right →
      ∃ text, Prints n (chain (front ++ [r])) text)
    (h : ∀ part ∈ parts, ∃ text, Prints 0 part text) (hlength : 2 ≤ parts.length) :
    ∃ text, Prints 0 (chain parts) text := by
  obtain ⟨a, b, rest, rfl⟩ := exists_of_length hlength
  obtain ⟨⟨left, hleft⟩, ⟨right, hright⟩, hrest⟩ := by simpa only [List.forall_mem_cons] using h
  have hchain : ∃ text, Prints n (chain ([a, b] ++ rest)) text := by
    refine append_induction (P := fun parts => ∃ text, Prints n (chain parts) text)
      (hbegin hleft hright) ?_
    rintro next hnext front ⟨text, htext⟩
    obtain ⟨last, hlast⟩ := hrest next hnext
    exact hmore htext hlast
  obtain ⟨text, htext⟩ := hchain
  exact ⟨_, .parentheses htext⟩

lemma Printable.exists_prints {s : Structure} (h : s.Printable) : ∃ text, Prints 0 s text := by
  induction h with
  | operand h => exact ⟨_, .operand h⟩
  | @comparison first others hfirst hothers hne ihfirst ihothers =>
    obtain ⟨other, others, rfl⟩ := List.exists_cons_of_ne_nil hne
    obtain ⟨ihother, ihothers⟩ := List.forall_mem_cons.1 ihothers
    obtain ⟨left, hleft⟩ := ihfirst
    obtain ⟨right, hright⟩ := ihother
    have hchain : ∃ text, Prints 1 (.comparison first ([other] ++ others)) text := by
      refine append_induction (P := fun others => ∃ text, Prints 1 (.comparison first others) text)
        ⟨_, .comparison other.1 hleft hright⟩ ?_
      rintro next hnext front ⟨text, htext⟩
      obtain ⟨last, hlast⟩ := ihothers next hnext
      exact ⟨_, .comparisonMore next.1 htext hlast⟩
    obtain ⟨text, htext⟩ := hchain
    exact ⟨_, .parentheses htext⟩
  | negation h ih =>
    obtain ⟨text, htext⟩ := ih
    exact ⟨_, .parentheses (.negation (by omega) htext)⟩
  | conjunction h hlength ih =>
    refine exists_prints_of_parts 3 (fun hl hr => ?_) (fun hl hr => ?_) ih hlength
    · exact ⟨_, .conjunction (by omega) (by omega) hl hr⟩
    · exact ⟨_, .conjunctionMore (by omega) hl hr⟩
  | disjunction h hlength ih =>
    refine exists_prints_of_parts 4 (fun hl hr => ?_) (fun hl hr => ?_) ih hlength
    · exact ⟨_, .disjunction (by omega) (by omega) hl hr⟩
    · exact ⟨_, .disjunctionMore (by omega) hl hr⟩

/-- Every structure can be printed, and it is read from each of its texts: with parentheses around
all parts that bind no more tightly than the chain around them, any number of further parentheses,
and any spaces and line breaks. -/
theorem ofText?_of_prints {s : Structure} (h : s.Printable) :
    (∃ level text, Prints level s text) ∧
      ∀ level text, Prints level s text → ofText? text = some s := by
  obtain ⟨text, htext⟩ := h.exists_prints
  exact ⟨⟨0, text, htext⟩, fun level text htext => htext.ofText?_eq⟩

/-- A quoted text with a line break in it, redundant parentheses and spaces. -/
theorem ofText?_of_prints_spaced :
    ofText? "!(A && \"x\ny\")||((B)<=0x1F)".toList =
      some (.disjunction [.negation (.conjunction [.operand "A", .operand "\"x\ny\""]),
        .comparison (.operand "B") [(.le, .operand "0x1F")]]) := by
  have hA : IsOperand "A".toList := ⟨by decide +kernel, by decide⟩
  have hB : IsOperand "B".toList := ⟨by decide +kernel, by decide⟩
  have hquoted : IsOperand "\"x\ny\"".toList := ⟨by decide +kernel, by decide⟩
  have hhex : IsOperand "0x1F".toList := ⟨by decide +kernel, by decide⟩
  have hand : Prints 3 _ "A && \"x\ny\"".toList :=
    .conjunction (Nat.zero_lt_succ 2) (Nat.zero_lt_succ 2) (.after ' ' (.inl rfl) (.operand hA))
      (.before ' ' (.inl rfl) (.operand hquoted))
  have hnot : Prints 2 _ "!(A && \"x\ny\")".toList :=
    .negation (Nat.zero_lt_succ 2) (.parentheses hand)
  have hle : Prints 0 _ "((B)<=0x1F)".toList :=
    .parentheses (.comparison .le (.parentheses (.operand hB)) (.operand hhex))
  have hor : Prints 4 _ "!(A && \"x\ny\")||((B)<=0x1F)".toList :=
    .disjunction (by decide) (by decide) hnot hle
  refine (ofText?_of_prints ?_).2 4 _ hor
  refine .disjunction ?_ (by decide)
  refine List.forall_mem_cons.2 ⟨.negation (.conjunction ?_ (by decide)), ?_⟩
  · exact List.forall_mem_cons.2 ⟨.operand hA, List.forall_mem_singleton.2 (.operand hquoted)⟩
  · refine List.forall_mem_singleton.2 (.comparison (.operand hB) ?_ (List.cons_ne_nil _ _))
    exact List.forall_mem_singleton.2 (.operand hhex)

end Structure

end Kconfig
