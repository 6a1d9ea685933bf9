import Kconfig.Fault
import Kconfig.Text.Blank
import Kconfig.TokenStream

/-!
# Expressions

An expression is read from the tokens of a line up to the first one that cannot belong to it, and
written in a normal form: a blank on each side of `&&` and `||`, none around other operators, and
one between operands that follow each other directly. Nothing is evaluated.
-/

namespace Kconfig

/-- A lone `&` or `|` in an expression. -/
inductive Slip where
  /-- It has been left out. -/
  | dangling (c : Char)
  /-- It has been read as the operator. -/
  | doubled (c : Char)
  deriving Repr, DecidableEq

/-- Why nothing can be read from the tokens of a line. -/
inductive ReadFailure where
  | problem (problem : Problem)
  /-- A token is asked for after the last one. -/
  | usedUp
  deriving Repr, DecidableEq

/-- What has been read from a line: a value, the slips noticed on the way, and where reading
stopped. -/
structure Reading (α : Type) where
  value : α
  slips : List Slip := []
  stop : Stop
  deriving Repr

def Reading.map {α β : Type} (f : α → β) (r : Reading α) : Reading β :=
  { value := f r.value, slips := r.slips, stop := r.stop }

/-- Reads from the tokens up to the first one that cannot be delivered; those from there on are left
after the stop. -/
def readDeliverable {α : Type} (read : List Token → Except ReadFailure (Reading α))
    (tokens : List Token) : Except ReadFailure (Reading α) :=
  (read (tokens.takeWhile Token.isDeliverable)).map fun r =>
    let left := tokens.dropWhile Token.isDeliverable
    { r with stop := { r.stop with rest := r.stop.rest ++ left } }

namespace Expression

/-- The part of an expression that has been read, inside one pair of parentheses. -/
structure Pieces where
  text : List Char := []
  /-- The last piece was an operand. -/
  afterOperand : Bool := false
  deriving Repr, DecidableEq

namespace Pieces

def operand (p : Pieces) (piece : List Char) : Pieces :=
  { text := p.text ++ (if p.afterOperand then ' ' :: piece else piece), afterOperand := true }

def operator (p : Pieces) (piece : List Char) : Pieces :=
  { text := p.text ++ piece, afterOperand := false }

/-- The normal form of what has been read. -/
def result (p : Pieces) : List Char :=
  Text.trim p.text

end Pieces

/-- The lexemes that an operand, or `!` in front of one, begins with. -/
def beginsOperand : Lexeme → Bool
  | .word text => text ≠ "if"
  | .number _ _ => true
  | .quoted _ _ => true
  | .char c => c == '(' || c == '!'
  | _ => false

/-- Notes a slip in front of those of a later part. -/
def withSlip (slip : Slip) (r : Except ReadFailure (Reading String)) :
    Except ReadFailure (Reading String) :=
  r.map fun r => { r with slips := slip :: r.slips }

/-- Stops reading. Open parentheses are a problem. -/
def stopAt (outer : List Pieces) (pieces : Pieces) (problem : Problem) (stop : Stop) :
    Except ReadFailure (Reading String) :=
  match outer with
  | [] => .ok { value := .ofList pieces.result, stop }
  | _ :: _ => .error (.problem problem)

/-- The characters that operators and parentheses consist of. -/
def marks : List Char :=
  ['(', ')', '!', '=', '<', '>', '&', '|']

/-- Whether a lexeme cannot belong to an expression in which `depth` parentheses are open. -/
def stops (depth : Nat) : Lexeme → Bool
  | .word text => text = "if"
  | .number _ _ => false
  | .quoted _ _ => false
  | .char c => c ∉ marks ∨ c = ')' ∧ depth = 0
  | .lineEnd => true
  | .fileEnd => true

/-- What is wrong where an expression stops with open parentheses. -/
def obstacle : Lexeme → Problem
  | .char c => .unexpectedInExpression (.singleton c)
  | _ => .parenthesisOpen

/-- Reads on after `pieces`; `outer` are the parts read before each open parenthesis, the innermost
first. A token that belongs to the expression is looked at together with the one after it. -/
def readFrom (outer : List Pieces) (pieces : Pieces) :
    List Token → Except ReadFailure (Reading String)
  | [] => .error .usedUp
  | [last] =>
    if stops outer.length last.lexeme then
      stopAt outer pieces (obstacle last.lexeme) { token := last, rest := [] }
    else .error .usedUp
  | token :: next :: rest =>
    match token.lexeme with
    | .lineEnd => stopAt outer pieces .parenthesisOpen { token, rest := next :: rest }
    | .fileEnd => stopAt outer pieces .parenthesisOpen { token, rest := next :: rest }
    | .word text =>
      if text = "if" then stopAt outer pieces .parenthesisOpen { token, rest := next :: rest }
      else readFrom outer (pieces.operand text.toList) (next :: rest)
    | .number text _ => readFrom outer (pieces.operand text.toList) (next :: rest)
    | .quoted _ text =>
      readFrom outer (pieces.operand ('"' :: text.toList ++ ['"'])) (next :: rest)
    | .char c =>
      if c = '(' then readFrom (pieces :: outer) {} (next :: rest)
      else if c = ')' then
        match outer with
        | [] => stopAt [] pieces .parenthesisOpen { token, rest := next :: rest }
        | before :: outer =>
          readFrom outer (before.operand ('(' :: pieces.result ++ [')'])) (next :: rest)
      else if c = '=' then readFrom outer (pieces.operator ['=']) (next :: rest)
      else if c = '!' ∨ c = '<' ∨ c = '>' then
        if next.lexeme = .char '=' then readFrom outer (pieces.operator [c, '=']) rest
        else readFrom outer (pieces.operator [c]) (next :: rest)
      else if c = '&' ∨ c = '|' then
        if next.lexeme = .char c then readFrom outer (pieces.operator [' ', c, c, ' ']) rest
        else if beginsOperand next.lexeme then
          withSlip (.doubled c)
            (readFrom outer (pieces.operator [' ', c, c, ' ']) (next :: rest))
        else withSlip (.dangling c) (readFrom outer pieces (next :: rest))
      else
        stopAt outer pieces (.unexpectedInExpression token.lexeme.written)
          { token, rest := next :: rest }

/-- Reads an expression from the tokens of a line. Its text is empty if there is none. -/
def read (tokens : List Token) : Except ReadFailure (Reading String) :=
  readFrom [] {} tokens

/-- Reads an expression that has to be there. -/
def readSome (problem : Problem) (tokens : List Token) : Except ReadFailure (Reading String) :=
  match read tokens with
  | .error failure => .error failure
  | .ok r => if r.value = "" then .error (.problem problem) else .ok r

end Expression

namespace Condition

/-- Reads the condition that follows an `if`. -/
def read (tokens : List Token) : Except ReadFailure (Reading Condition) :=
  (Expression.readSome .conditionExpected tokens).map (·.map Condition.mk)

/-- Reads `if` and a condition, if the tokens begin with `if`. -/
def readOptional (tokens : List Token) : Except ReadFailure (Reading (Option Condition)) :=
  match tokens with
  | [] => .error .usedUp
  | token :: rest =>
    if token.lexeme.wordText? = some "if" then (read rest).map (·.map some)
    else .ok { value := none, stop := { token, rest } }

end Condition

end Kconfig
