import Kconfig.Entry
import Kconfig.Json
import Kconfig.Text.DecimalDigit
import Kconfig.Text.Tabs
import Kconfig.Text.WordChar

/-!
# The structure of conditions

The normalised text of a condition is read back into its structure. Comparisons bind tightest, then
`!`, then `&&`, then `||`; chains of one level are flat, and parentheses group without leaving a
mark. The text is cut into symbols first. Then one pass over the symbols builds the structure, with
a stack of what has been read outside each open parenthesis.
-/

namespace Kconfig

inductive Comparison where
  | eq
  | ne
  | le
  | ge
  | lt
  | gt
  deriving Repr, DecidableEq

/-- The written form of a comparison operator. -/
def Comparison.written : Comparison → String
  | .eq => "="
  | .ne => "!="
  | .le => "<="
  | .ge => ">="
  | .lt => "<"
  | .gt => ">"

inductive Structure where
  | operand (text : String)
  | comparison (first : Structure) (others : List (Comparison × Structure))
  | negation (inner : Structure)
  | conjunction (parts : List Structure)
  | disjunction (parts : List Structure)
  deriving Repr

namespace Structure

open Text (isWideHexDigit)

/-- The symbols that conditions are written with. -/
inductive Symbol where
  | operand (text : List Char)
  | comparison (operator : Comparison)
  | not
  | and
  | or
  | opening
  | closing
  deriving Repr, DecidableEq

def isSpace (c : Char) : Bool :=
  c == ' ' || c == '\t' || c == '\n' || c == '\r'

/-- The characters of operands that are not quoted. -/
def isOperandChar (c : Char) : Bool :=
  Text.isWordChar c || c == '-'

/-- Splits off a quoted text, with its quotes. -/
def splitQuoted : List Char → Option (List Char × List Char)
  | [] => none
  | c :: cs =>
    if c = '"' ∨ c = '\'' then
      match cs.dropWhile (· ≠ c) with
      | [] => none
      | _ :: rest => some (c :: cs.takeWhile (· ≠ c) ++ [c], rest)
    else none

def splitHex : List Char → Option (List Char × List Char)
  | '0' :: x :: cs =>
    if (x = 'x' ∨ x = 'X') ∧ cs.takeWhile isWideHexDigit ≠ [] then
      some ('0' :: x :: cs.takeWhile isWideHexDigit, cs.dropWhile isWideHexDigit)
    else none
  | _ => none

/-- Splits off a number, a symbol, or a symbol after a dollar sign. -/
def splitWord : List Char → Option (List Char × List Char)
  | [] => none
  | c :: cs =>
    if isOperandChar c then some (c :: cs.takeWhile isOperandChar, cs.dropWhile isOperandChar)
    else if c = '$' ∧ cs.takeWhile isOperandChar ≠ [] then
      some ('$' :: cs.takeWhile isOperandChar, cs.dropWhile isOperandChar)
    else none

/-- Splits off an operand: a quoted text, else a hexadecimal number, else a word. -/
def splitOperand (cs : List Char) : Option (List Char × List Char) :=
  match splitQuoted cs with
  | some split => some split
  | none =>
    match splitHex cs with
    | some split => some split
    | none => splitWord cs

/-- Splits off the symbol that a text begins with. -/
def splitSymbol : List Char → Option (Symbol × List Char)
  | '(' :: cs => some (.opening, cs)
  | ')' :: cs => some (.closing, cs)
  | '=' :: cs => some (.comparison .eq, cs)
  | '!' :: '=' :: cs => some (.comparison .ne, cs)
  | '!' :: cs => some (.not, cs)
  | '<' :: '=' :: cs => some (.comparison .le, cs)
  | '<' :: cs => some (.comparison .lt, cs)
  | '>' :: '=' :: cs => some (.comparison .ge, cs)
  | '>' :: cs => some (.comparison .gt, cs)
  | '&' :: '&' :: cs => some (.and, cs)
  | '|' :: '|' :: cs => some (.or, cs)
  | cs => (splitOperand cs).map fun (text, rest) => (.operand text, rest)

theorem length_of_splitQuoted {cs text rest : List Char}
    (h : splitQuoted cs = some (text, rest)) : rest.length < cs.length := by
  unfold splitQuoted at h
  split at h
  · cases h
  · rename_i c cs
    split at h
    · split at h
      · cases h
      · rename_i hrest
        cases h
        have := (List.dropWhile_suffix (· ≠ c) (l := cs)).length_le
        rw [hrest] at this
        simp only [List.length_cons] at this ⊢
        omega
    · cases h

theorem length_of_splitHex {cs text rest : List Char}
    (h : splitHex cs = some (text, rest)) : rest.length < cs.length := by
  unfold splitHex at h
  split at h
  · rename_i x cs
    split at h
    · cases h
      have := (List.dropWhile_suffix isWideHexDigit (l := cs)).length_le
      simp only [List.length_cons]
      omega
    · cases h
  · cases h

theorem length_of_splitWord {cs text rest : List Char}
    (h : splitWord cs = some (text, rest)) : rest.length < cs.length := by
  unfold splitWord at h
  split at h
  · cases h
  · rename_i c cs
    have := (List.dropWhile_suffix isOperandChar (l := cs)).length_le
    simp only [List.length_cons]
    split at h
    · cases h
      omega
    · split at h
      · cases h
        omega
      · cases h

theorem length_of_splitOperand {cs text rest : List Char}
    (h : splitOperand cs = some (text, rest)) : rest.length < cs.length := by
  unfold splitOperand at h
  split at h
  · cases h
    exact length_of_splitQuoted (by assumption)
  · split at h
    · cases h
      exact length_of_splitHex (by assumption)
    · exact length_of_splitWord h

theorem length_of_splitSymbol {cs rest : List Char} {symbol : Symbol}
    (h : splitSymbol cs = some (symbol, rest)) : rest.length < cs.length := by
  unfold splitSymbol at h
  split at h
  case h_12 =>
    obtain ⟨⟨text, rest'⟩, ho, he⟩ := Option.map_eq_some_iff.1 h
    cases he
    exact length_of_splitOperand ho
  all_goals
    cases h
    simp only [List.length_cons]
    omega

/-- Cuts a text into symbols, if it consists of such. -/
def scan (cs : List Char) : Option (List Symbol) :=
  match _hcs : cs.dropWhile isSpace with
  | [] => some []
  | c :: cs' =>
    match _h : splitSymbol (c :: cs') with
    | none => none
    | some (symbol, rest) => (scan rest).map (symbol :: ·)
termination_by cs.length
decreasing_by
  have h₁ := length_of_splitSymbol _h
  have h₂ := (List.dropWhile_suffix isSpace (l := cs)).length_le
  rw [_hcs] at h₂
  omega

/-- What has been read of a condition, outside the parentheses that are open: the finished parts of
the disjunction and of its last conjunction, the number of `!` in front of the present comparison,
and that comparison. -/
structure Partial where
  disjuncts : List Structure := []
  conjuncts : List Structure := []
  negations : Nat := 0
  first : Option Structure := none
  others : List (Comparison × Structure) := []
  /-- The operator whose right side is to come. -/
  operator : Option Comparison := none

namespace Partial

/-- A chain of comparisons; one operand alone is no chain. -/
def chain (first : Structure) : List (Comparison × Structure) → Structure
  | [] => first
  | others => .comparison first others

/-- Negates a structure the given number of times. -/
def negate : Nat → Structure → Structure
  | 0, s => s
  | n + 1, s => .negation (negate n s)

/-- A conjunction; one part alone is no conjunction. -/
def conjoin : List Structure → Structure
  | [s] => s
  | parts => .conjunction parts

/-- A disjunction; one part alone is no disjunction. -/
def disjoin : List Structure → Structure
  | [s] => s
  | parts => .disjunction parts

/-- Whether an operand has to come next. -/
def awaitsOperand (p : Partial) : Bool :=
  p.first.isNone || p.operator.isSome

/-- Takes an operand, where one can stand. -/
def operand (p : Partial) (s : Structure) : Option Partial :=
  match p.first, p.operator with
  | none, _ => some { p with first := some s }
  | some _, some operator =>
    some { p with others := p.others ++ [(operator, s)], operator := none }
  | some _, none => none

/-- The finished comparison with the `!` in front of it. -/
def comparison? (p : Partial) : Option Structure :=
  match p.first, p.operator with
  | some first, none => some (negate p.negations (chain first p.others))
  | _, _ => none

def conjunction? (p : Partial) : Option Structure :=
  p.comparison?.map fun s => conjoin (p.conjuncts ++ [s])

def disjunction? (p : Partial) : Option Structure :=
  p.conjunction?.map fun s => disjoin (p.disjuncts ++ [s])

end Partial

/-- Reads on after `p`; `outer` has been read in front of each open parenthesis, the innermost
first. -/
def build (outer : List Partial) (p : Partial) : List Symbol → Option Structure
  | [] =>
    match outer with
    | [] => p.disjunction?
    | _ :: _ => none
  | .operand text :: symbols =>
    match p.operand (.operand (.ofList text)) with
    | some p => build outer p symbols
    | none => none
  | .opening :: symbols => if p.awaitsOperand then build (p :: outer) {} symbols else none
  | .closing :: symbols =>
    match outer, p.disjunction? with
    | before :: outer, some s =>
      match before.operand s with
      | some p => build outer p symbols
      | none => none
    | _, _ => none
  | .comparison operator :: symbols =>
    if p.awaitsOperand then none
    else build outer { p with operator := some operator } symbols
  | .not :: symbols =>
    if p.first.isNone then build outer { p with negations := p.negations + 1 } symbols else none
  | .and :: symbols =>
    match p.comparison? with
    | some s =>
      build outer { disjuncts := p.disjuncts, conjuncts := p.conjuncts ++ [s] } symbols
    | none => none
  | .or :: symbols =>
    match p.conjunction? with
    | some s => build outer { disjuncts := p.disjuncts ++ [s] } symbols
    | none => none

/-- Reads the structure of a condition back from its text, in which tabs count as the spaces they
stand for. -/
def ofText? (text : List Char) : Option Structure :=
  (scan (Text.expandTabs text)).bind (build [] {})

mutual

/-- The structure as nested arrays: chains hold their parts and operators in order. -/
def toJson : Structure → Json
  | .operand text => .str text
  | .comparison first others => .arr (toJson first :: comparisonsToJson others)
  | .negation inner => .arr [.str "!", toJson inner]
  | .conjunction parts => .arr (partsToJson "&&" parts)
  | .disjunction parts => .arr (partsToJson "||" parts)

/-- The operators and operands of a chain after the first operand. -/
def comparisonsToJson : List (Comparison × Structure) → List Json
  | [] => []
  | (operator, s) :: others => .str operator.written :: toJson s :: comparisonsToJson others

/-- The parts of a chain with the operator between them. -/
def partsToJson (operator : String) : List Structure → List Json
  | [] => []
  | [s] => [toJson s]
  | s :: parts => toJson s :: .str operator :: partsToJson operator parts

end

end Structure

/-- The structure of a condition, if its text has one. -/
def Condition.structure? (c : Condition) : Option Structure :=
  Structure.ofText? c.text.toList

end Kconfig
