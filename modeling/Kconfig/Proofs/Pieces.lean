import Kconfig.Proofs.Placement
import Kconfig.Proofs.RawLines

/-!
# Pieces of lines

A line is taken in one piece, raw, or in its tokens up to the end of the line. A line that has been
put back gives the tokens of its raw form.
-/

namespace Kconfig

inductive Piece where
  | token (token : Token)
  | raw (text : List Char)
  deriving Repr, DecidableEq

def Piece.token? : Piece → Option Token
  | .token delivered => some delivered
  | .raw _ => none

/-- The text of a raw line. -/
def Piece.raw? : Piece → Option (List Char)
  | .token _ => none
  | .raw text => some text

namespace Placed

/-- The text that is read for a line, if the lines that start at the numbers in `returned` have been
put back. -/
def textRead (returned : List Nat) (p : Placed) : List Char :=
  if p.start ∈ returned then Line.raw p.line.text else p.line.text

/-- What is read for a line. -/
def read (returned : List Nat) (p : Placed) : Placed :=
  { p with line := ⟨p.textRead returned, p.line.height⟩ }

/-- The pieces that are taken of lines, one line after the other. Each is taken raw or as its
tokens, of which only the last is the end of the line, and words that are too long for a number are
left out; if the line has been put back and its raw form is not plain, these are the tokens of its
raw form. -/
inductive Taken (returned : List Nat) : List Placed → List Piece → Prop where
  | nil : Taken returned [] []
  | raw {before : List Placed} {pieces : List Piece} (p : Placed)
    (h : Taken returned before pieces) :
    Taken returned (before ++ [p]) (pieces ++ [.raw (Line.raw p.line.text)])
  | tokens {before : List Placed} {pieces : List Piece} {p : Placed} {text : List Char}
    {lexemes : List Lexeme} (h : Taken returned before pieces)
    (htext : text = if p.start ∈ returned ∧ ¬Line.Plain p.line.text then Line.raw p.line.text
      else p.line.text)
    (hscan : Lexeme.scan text = lexemes ++ [.lineEnd])
    (hends : ∀ lexeme ∈ lexemes, lexeme.isEnd = false) :
    Taken returned (before ++ [p]) (pieces ++
      (((lexemes ++ [Lexeme.lineEnd]).map (⟨·, p.start⟩)).filter Token.isDeliverable).map .token)

variable {returned : List Nat} {k : Nat} {before after : List Placed} {p : Placed}
  {pieces : List Piece}

lemma read_nil (p : Placed) : p.read [] = p := by
  rw [read, textRead, if_neg List.not_mem_nil]

lemma textRead_cons_of_ne (h : p.start ≠ k) :
    p.textRead (k :: returned) = p.textRead returned := by
  simp only [textRead, List.mem_cons, h, false_or]

lemma map_read_cons (h : ∀ p ∈ after, p.start ≠ k) :
    after.map (·.read (k :: returned)) = after.map (·.read returned) := by
  refine List.map_congr_left fun p hmem => ?_
  rw [read, read, textRead_cons_of_ne (h p hmem)]

lemma scan_textRead (returned : List Nat) (p : Placed) : Lexeme.scan (p.textRead returned) =
    Lexeme.scan (if p.start ∈ returned ∧ ¬Line.Plain p.line.text then Line.raw p.line.text
      else p.line.text) := by
  by_cases hstart : p.start ∈ returned
  · by_cases hplain : Line.Plain p.line.text
    · rw [textRead, if_pos hstart, if_neg fun h => h.2 hplain, Line.scan_raw_eq_iff]
      exact hplain
    · rw [textRead, if_pos hstart, if_pos ⟨hstart, hplain⟩]
  · rw [textRead, if_neg hstart, if_neg fun h => hstart h.1]

lemma Taken.ofLine (h : Taken returned before pieces) (p : Placed) :
    Taken returned (before ++ [p]) (pieces ++
      ((Token.ofLine p.start (p.textRead returned)).filter Token.isDeliverable).map .token) := by
  obtain ⟨lexemes, hscan, hends⟩ := Lexeme.scan_eq_append (p.textRead returned)
  rw [Token.ofLine, hscan]
  exact h.tokens rfl ((scan_textRead _ _).symm.trans hscan) hends

lemma Taken.putBack (h : Taken returned before pieces) (hk : ∀ p ∈ before, p.start ≠ k) :
    Taken (k :: returned) before pieces := by
  induction h with
  | nil => exact .nil
  | raw p h ih => exact .raw p (ih (List.forall_mem_append.1 hk).1)
  | @tokens before pieces p text lexemes h htext hscan hends ih =>
    obtain ⟨hbefore, hp⟩ := List.forall_mem_append.1 hk
    refine .tokens (ih hbefore) ?_ hscan hends
    have hne : p.start ≠ k := hp p List.mem_cons_self
    simpa only [List.mem_cons, hne, false_or] using htext

end Placed

end Kconfig
