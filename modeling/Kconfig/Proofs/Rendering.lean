import Kconfig.Proofs.NormalForms

/-!
# Lines that are written again

Text that is skipped is given in the written form of its tokens, with a blank between two of them.
Written so, a line is read as the same line: a blank ends a word and stands outside of quotes, an
open quote is closed at the end of its text, and a comment is no longer there.
-/

namespace Kconfig

namespace Lexeme

lemma written_ofWord (word : List Char) : (ofWord word).written = .ofList word := by
  unfold ofWord
  split <;> rfl

lemma toList_written_quoted (quote : Char) (text : List Char) :
    (Lexeme.quoted quote (.ofList text)).written.toList = quote :: text ++ [quote] := by
  rw [written, String.toList_append, String.toList_append, String.toList_ofList,
    String.toList_singleton]
  rfl

lemma scan_written {line rest more : List Char} {lexeme : Lexeme}
    (h : first? line = some (lexeme, rest)) (hmore : EndsWord more) :
    scan (lexeme.written.toList ++ more) = lexeme :: scan more := by
  unfold first? at h
  split at h
  · cases h
  · rename_i c cs hcs
    have hsep : isSeparator c = false := by
      have hnot := List.head?_dropWhile_not isSeparator line
      rw [hcs] at hnot
      exact hnot
    split at h
    · cases h
    · rename_i hhash
      split at h
      · rename_i hquote
        cases h
        have hmem : c ∉ cs.takeWhile (· ≠ c) := fun hc => by simpa using List.mem_takeWhile_imp hc
        rw [toList_written_quoted, List.append_assoc]
        exact scan_closed hquote hmem
      · rename_i hquote
        split at h
        · rename_i hletter
          cases h
          rw [written_ofWord, String.toList_ofList]
          refine scan_word (List.cons_ne_nil _ _) ?_ hmore
          exact List.forall_mem_cons.2 ⟨hletter, fun _ => List.mem_takeWhile_imp⟩
        · rename_i hletter
          cases h
          rw [written, String.toList_singleton]
          refine scan_single ?_
          simp [isSingle, hsep, hquote, hletter, hhash]

/-- The lexemes of a line, written with a blank between two of them, are the lexemes of what has
been written. -/
theorem scan_intercalate_written (line : List Char) :
    scan (" ".intercalate ((scan line).dropLast.map written)).toList = scan line := by
  fun_induction scan line with
  | case1 line h => exact scan_nil
  | case2 line lexeme rest h ih =>
    rw [dropLast_cons_scan, List.map_cons]
    rw [String.toList_intercalate] at ih ⊢
    -- A blank is written only if the end of the line is not next.
    cases htexts : (scan rest).dropLast.map written with
    | nil =>
      have hrest : scan [] = scan rest := by rwa [htexts] at ih
      rw [List.map_singleton, List.intercalate_singleton, ← List.append_nil lexeme.written.toList,
        scan_written h (by decide), hrest]
    | cons text texts =>
      have hrest : scan (" ".toList.intercalate ((text :: texts).map String.toList)) =
          scan rest := by rwa [htexts] at ih
      have hends : ∀ more, EndsWord (" ".toList ++ more) := by
        rintro more c ⟨⟩
        rfl
      rw [List.map_cons, List.map_cons, List.intercalate_cons_cons, List.append_assoc,
        scan_written h (hends _)]
      exact congrArg (lexeme :: ·) ((scan_separator rfl).trans hrest)

end Lexeme

namespace Token

variable (linenr : Nat)

/-- The tokens of a line without its end, in written form with a blank between two of them. -/
def render (tokens : List Token) : String :=
  " ".intercalate (tokens.dropLast.map (·.lexeme.written))

lemma render_ofLine (line : List Char) :
    render (ofLine linenr line) =
      " ".intercalate ((Lexeme.scan line).dropLast.map Lexeme.written) := by
  unfold render ofLine
  rw [← List.map_dropLast, List.map_map]
  rfl

lemma ofLine_of_first? {line rest : List Char} {lexeme : Lexeme}
    (h : Lexeme.first? line = some (lexeme, rest)) :
    ofLine linenr line = ⟨lexeme, linenr⟩ :: ofLine linenr rest := by
  unfold ofLine
  rw [Lexeme.scan_of_first? h, List.map_cons]

lemma skipRest_ofLine (line : List Char) :
    skipRest (ofLine linenr line) = .ok ((Lexeme.scan line).dropLast.map Lexeme.written,
      { token := ⟨.lineEnd, linenr⟩, rest := [] }) := by
  fun_induction Lexeme.scan line with
  | case1 line h =>
    unfold ofLine
    rw [Lexeme.scan_of_none h]
    rfl
  | case2 line lexeme rest h ih =>
    have hend := Lexeme.isEnd_of_first? h
    rw [ofLine_of_first? linenr h, Lexeme.dropLast_cons_scan, List.map_cons, skipRest, ih,
      if_neg (by rw [hend]; exact Bool.false_ne_true)]
    rfl

/-- What is skipped of a line is reported as its rendering. A line that is written again from its
tokens without the end has the same tokens: the same words, numbers with their values, quoted texts
with their quotes and single characters, in the same order. -/
theorem ofLine_render (line : List Char) :
    readRest (" ".intercalate ·) (ofLine linenr line) = .ok {
        value := render (ofLine linenr line)
        stop := { token := ⟨.lineEnd, linenr⟩, rest := [] } } ∧
      ofLine linenr (render (ofLine linenr line)).toList = ofLine linenr line := by
  constructor
  · rw [readRest, skipRest_ofLine, render_ofLine]
    rfl
  · rw [render_ofLine]
    unfold ofLine
    rw [Lexeme.scan_intercalate_written]

example : render (ofLine 3 "\"a' b'-0x10 # c".toList) = "\"a' b'-0x10 # c\"" ∧
    render (ofLine 3 " a=-4\t'b # c".toList) = "a = -4 'b # c'" := by
  cbv

end Token

end Kconfig
