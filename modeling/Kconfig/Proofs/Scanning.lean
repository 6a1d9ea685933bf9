import Kconfig.TokenStream.Size
import Mathlib.Data.List.TakeWhile
import Mathlib.Tactic.Lemma

/-!
# Scanning piece by piece

A line is scanned from left to right, and what a piece of it gives depends on little of what
follows: a word has to be followed by another character, and a quoted text by its closing quote. So
two texts that differ only behind some point have the same lexemes in front of it, unless the point
lies in a quoted text.
-/

namespace Kconfig

section Characters

variable {c : Char}

lemma isSeparator_iff : isSeparator c = true ↔ c.toNat ≤ 32 := by
  rw [isSeparator, decide_eq_true_iff, Char.le_def, UInt32.le_iff_toNat_le]
  exact Iff.rfl

lemma isWordLetter_iff :
    isWordLetter c = true ↔ c.toNat = 45 ∨ (48 ≤ c.toNat ∧ c.toNat ≤ 57) ∨
      (65 ≤ c.toNat ∧ c.toNat ≤ 90) ∨ c.toNat = 95 ∨ (97 ≤ c.toNat ∧ c.toNat ≤ 122) := by
  have hdash : c = '-' ↔ c.toNat = 45 := Char.toNat_inj.symm
  have hunderscore : c = '_' ↔ c.toNat = 95 := Char.toNat_inj.symm
  change (((decide (c.val ≥ 'A'.val ∧ c.val ≤ 'Z'.val) ||
    (decide (c.val ≥ 'a'.val) && decide (c.val ≤ 'z'.val))) ||
      (decide (c.val ≥ '0'.val) && decide (c.val ≤ '9'.val))) || c == '-' || c == '_') = true ↔ _
  simp only [Bool.or_eq_true, Bool.and_eq_true, beq_iff_eq, decide_eq_true_eq, hdash, hunderscore,
    UInt32.le_iff_toNat_le, ge_iff_le]
  change ((((65 ≤ c.toNat ∧ c.toNat ≤ 90) ∨ (97 ≤ c.toNat ∧ c.toNat ≤ 122)) ∨
    (48 ≤ c.toNat ∧ c.toNat ≤ 57)) ∨ c.toNat = 45) ∨ c.toNat = 95 ↔ _
  omega

lemma isQuote_iff : isQuote c = true ↔ c.toNat = 34 ∨ c.toNat = 39 := by
  have hdouble : c = '"' ↔ c.toNat = 34 := Char.toNat_inj.symm
  have hsingle : c = '\'' ↔ c.toNat = 39 := Char.toNat_inj.symm
  simp only [isQuote, Bool.or_eq_true, beq_iff_eq, hdouble, hsingle]

lemma not_isQuote_of_isSeparator (h : isSeparator c = true) : isQuote c = false := by
  rw [isSeparator_iff] at h
  rw [← Bool.not_eq_true, isQuote_iff]
  omega

lemma not_isQuote_of_isWordLetter (h : isWordLetter c = true) : isQuote c = false := by
  rw [isWordLetter_iff] at h
  rw [← Bool.not_eq_true, isQuote_iff]
  omega

lemma not_isSeparator_of_isWordLetter (h : isWordLetter c = true) : isSeparator c = false := by
  rw [isWordLetter_iff] at h
  rw [← Bool.not_eq_true, isSeparator_iff]
  omega

end Characters

/-- The characters of a text are looked at one by one, and not all characters that there are. -/
instance (priority := 2000) decidableForallMem (text : List Char) (p : Char → Prop)
    [DecidablePred p] : Decidable (∀ c ∈ text, p c) :=
  List.decidableBAll p text

section Runs

variable {p : Char → Bool} {text rest : List Char}

lemma takeWhile_append (htext : ∀ c ∈ text, p c = true) (hrest : ∀ c ∈ rest.head?, p c = false) :
    (text ++ rest).takeWhile p = text := by
  rw [List.takeWhile_append_of_pos htext]
  cases rest with
  | nil => rw [List.takeWhile_nil, List.append_nil]
  | cons c rest => rw [List.takeWhile_cons_of_neg (by simp [hrest c rfl]), List.append_nil]

lemma dropWhile_append (htext : ∀ c ∈ text, p c = true) (hrest : ∀ c ∈ rest.head?, p c = false) :
    (text ++ rest).dropWhile p = rest := by
  rw [List.dropWhile_append_of_pos htext]
  cases rest with
  | nil => rfl
  | cons c rest => exact List.dropWhile_cons_of_neg (by simp [hrest c rfl])

end Runs

/-- A text does not go on a word in front of it. -/
def EndsWord (text : List Char) : Prop :=
  ∀ c ∈ text.head?, isWordLetter c = false

instance (text : List Char) : Decidable (EndsWord text) :=
  Option.decidableForallMem text.head?

lemma EndsWord.append {text rest : List Char} (htext : EndsWord text) (hrest : EndsWord rest) :
    EndsWord (text ++ rest) := by
  cases text with
  | nil => exact hrest
  | cons c text => exact htext

namespace Lexeme

variable {line text : List Char} {c : Char}

lemma scan_of_first? {lexeme : Lexeme} {rest : List Char}
    (h : first? line = some (lexeme, rest)) : scan line = lexeme :: scan rest := by
  rw [scan]
  split
  · rename_i hnone
    rw [h] at hnone
    cases hnone
  · rename_i hsome
    rw [h] at hsome
    cases hsome
    rfl

lemma scan_of_none (h : first? line = none) : scan line = [.lineEnd] := by
  rw [scan]
  split
  · rfl
  · rename_i hsome
    rw [h] at hsome
    cases hsome

@[simp]
lemma scan_nil : scan [] = [.lineEnd] :=
  scan_of_none rfl

lemma scan_separator (hc : isSeparator c = true) : scan (c :: line) = scan line := by
  have hfirst : first? (c :: line) = first? line := by
    rw [first?, first?, List.dropWhile_cons_of_pos hc]
  cases h : first? line with
  | none => rw [scan_of_none h, scan_of_none (hfirst.trans h)]
  | some piece => rw [scan_of_first? h, scan_of_first? (hfirst.trans h)]

lemma scan_comment : scan ('#' :: line) = [.lineEnd] :=
  scan_of_none rfl

lemma scan_quote (hc : isQuote c = true) :
    scan (c :: line) =
      .quoted c (.ofList (line.takeWhile (· ≠ c))) :: scan ((line.dropWhile (· ≠ c)).drop 1) := by
  have hsep : ¬isSeparator c = true := by
    intro hsep
    rw [not_isQuote_of_isSeparator hsep] at hc
    cases hc
  have hhash : c ≠ '#' := by
    rintro rfl
    cases hc
  refine scan_of_first? ?_
  rw [first?, List.dropWhile_cons_of_neg hsep]
  dsimp only
  rw [if_neg hhash, if_pos hc]

lemma scan_word {word : List Char} (hne : word ≠ []) (hword : ∀ c ∈ word, isWordLetter c = true)
    (hrest : EndsWord line) : scan (word ++ line) = ofWord word :: scan line := by
  obtain ⟨c, cs, rfl⟩ := List.exists_cons_of_ne_nil hne
  obtain ⟨hc, hcs⟩ := List.forall_mem_cons.1 hword
  have hsep := not_isSeparator_of_isWordLetter hc
  have hquote := not_isQuote_of_isWordLetter hc
  have hhash : c ≠ '#' := by
    rintro rfl
    cases hc
  refine scan_of_first? ?_
  rw [List.cons_append, first?, List.dropWhile_cons_of_neg (by simp [hsep])]
  dsimp only
  rw [if_neg hhash, if_neg (by simp [hquote]), if_pos hc, takeWhile_append hcs hrest,
    dropWhile_append hcs hrest]

/-- A character that is a lexeme of its own. -/
def isSingle (c : Char) : Bool :=
  !isSeparator c && !isQuote c && !isWordLetter c && c != '#'

lemma scan_single (hc : isSingle c = true) : scan (c :: line) = .char c :: scan line := by
  simp only [isSingle, Bool.and_eq_true, Bool.not_eq_true', bne_iff_ne] at hc
  obtain ⟨⟨⟨hsep, hquote⟩, hletter⟩, hhash⟩ := hc
  refine scan_of_first? ?_
  rw [first?, List.dropWhile_cons_of_neg (by simp [hsep])]
  dsimp only
  rw [if_neg hhash, if_neg (by simp [hquote]), if_neg (by simp [hletter])]

/-- A statement about lines holds if it holds for the empty one and for comments, and is kept when a
separator, a quoted text, a word or a single character is put in front of a line. A quoted text that
is not closed goes up to the end. -/
theorem line_induction {motive : List Char → Prop} (nil : motive [])
    (comment : ∀ line, motive ('#' :: line))
    (separator : ∀ c line, isSeparator c = true → motive line → motive (c :: line))
    (closed : ∀ c text line, isQuote c = true → c ∉ text → motive line →
      motive (c :: text ++ c :: line))
    (unclosed : ∀ c text, isQuote c = true → c ∉ text → motive (c :: text))
    (word : ∀ word line, word ≠ [] → (∀ c ∈ word, isWordLetter c = true) → EndsWord line →
      motive line → motive (word ++ line))
    (single : ∀ c line, isSingle c = true → motive line → motive (c :: line))
    (line : List Char) : motive line := by
  induction hlength : line.length using Nat.strongRecOn generalizing line with | ind n ih
  cases line with
  | nil => exact nil
  | cons c line =>
    rw [List.length_cons] at hlength
    by_cases hsep : isSeparator c = true
    · exact separator c line hsep (ih line.length (by omega) line rfl)
    by_cases hquote : isQuote c = true
    · by_cases hmem : c ∈ line
      · obtain ⟨text, rest, rfl, htext⟩ := List.eq_append_cons_of_mem hmem
        refine closed c text rest hquote htext (ih rest.length ?_ rest rfl)
        rw [List.length_append, List.length_cons] at hlength
        omega
      · exact unclosed c line hquote hmem
    by_cases hletter : isWordLetter c = true
    · have hle := (List.dropWhile_suffix isWordLetter (l := line)).length_le
      have hword := word (c :: line.takeWhile isWordLetter) (line.dropWhile isWordLetter)
        (List.cons_ne_nil _ _) ?_ ?_ (ih _ (by omega) _ rfl)
      · rwa [List.cons_append, List.takeWhile_append_dropWhile] at hword
      · refine List.forall_mem_cons.2 ⟨hletter, fun d hd => List.mem_takeWhile_imp hd⟩
      · intro d hd
        have hnot := List.head?_dropWhile_not isWordLetter line
        rw [Option.mem_def.1 hd] at hnot
        simpa using hnot
    by_cases hhash : c = '#'
    · rw [hhash]
      exact comment line
    · refine single c line ?_ (ih line.length (by omega) line rfl)
      simp [isSingle, hsep, hquote, hletter, hhash]

lemma isEnd_of_first? {lexeme : Lexeme} {rest : List Char}
    (h : first? line = some (lexeme, rest)) : lexeme.isEnd = false := by
  unfold first? at h
  split at h
  · cases h
  · split at h
    · cases h
    · split at h
      · cases h
        rfl
      · split at h
        · cases h
          unfold ofWord
          split <;> rfl
        · cases h
          rfl

lemma scan_eq_append (line : List Char) :
    ∃ front, scan line = front ++ [.lineEnd] ∧ ∀ lexeme ∈ front, lexeme.isEnd = false := by
  fun_induction scan line with
  | case1 line h => exact ⟨[], rfl, List.forall_mem_nil _⟩
  | case2 line lexeme rest h ih =>
    obtain ⟨front, hfront, hend⟩ := ih
    refine ⟨lexeme :: front, by rw [hfront, List.cons_append], ?_⟩
    exact List.forall_mem_cons.2 ⟨isEnd_of_first? h, hend⟩

/-- The open quote after a character, given the one in front of it. -/
def nextQuote (quote : Option Char) (c : Char) : Option Char :=
  match quote with
  | none => if isQuote c then some c else none
  | some quote => if c = quote then none else some quote

/-- The quote that is open at the end of a text. -/
def openQuote? (text : List Char) : Option Char :=
  text.foldl nextQuote none

lemma openQuote?_cons (hc : isQuote c = false) : openQuote? (c :: line) = openQuote? line := by
  have hnext : nextQuote none c = none := by simp [nextQuote, hc]
  rw [openQuote?, List.foldl_cons, hnext, openQuote?]

lemma openQuote?_append (hline : ∀ c ∈ line, isQuote c = false) :
    openQuote? (line ++ text) = openQuote? text := by
  induction line with
  | nil => rfl
  | cons c line ih =>
    obtain ⟨hc, hline⟩ := List.forall_mem_cons.1 hline
    rw [List.cons_append, openQuote?_cons hc, ih hline]

lemma foldl_nextQuote_of_not_mem (h : c ∉ line) : line.foldl nextQuote (some c) = some c := by
  induction line with
  | nil => rfl
  | cons d line ih =>
    obtain ⟨hd, hline⟩ := List.ne_and_not_mem_of_not_mem_cons h
    rw [List.foldl_cons, nextQuote, if_neg (Ne.symm hd), ih hline]

lemma openQuote?_quote (hc : isQuote c = true) (h : c ∉ line) :
    openQuote? (c :: line ++ c :: text) = openQuote? text := by
  have hopen : nextQuote none c = some c := by simp [nextQuote, hc]
  have hclose : nextQuote (some c) c = none := by simp [nextQuote]
  unfold openQuote?
  rw [List.cons_append, List.foldl_cons, List.foldl_append, List.foldl_cons, hopen,
    foldl_nextQuote_of_not_mem h, hclose]

lemma openQuote?_unclosed (hc : isQuote c = true) (h : c ∉ line) :
    openQuote? (c :: line) = some c := by
  have hopen : nextQuote none c = some c := by simp [nextQuote, hc]
  unfold openQuote?
  rw [List.foldl_cons, hopen, foldl_nextQuote_of_not_mem h]

lemma scan_closed (hc : isQuote c = true) (h : c ∉ line) :
    scan (c :: line ++ c :: text) = .quoted c (.ofList line) :: scan text := by
  have hline : ∀ d ∈ line, (decide (d ≠ c)) = true := by
    intro d hd
    exact decide_eq_true fun heq => h (heq ▸ hd)
  rw [List.cons_append, scan_quote hc, List.takeWhile_append_of_pos hline,
    List.dropWhile_append_of_pos hline, List.takeWhile_cons_of_neg (by simp),
    List.dropWhile_cons_of_neg (by simp), List.append_nil, List.drop_one, List.tail_cons]

lemma scan_unclosed (hc : isQuote c = true) (h : c ∉ line) :
    scan (c :: line ++ text) =
      .quoted c (.ofList (line ++ text.takeWhile (· ≠ c))) ::
        scan ((text.dropWhile (· ≠ c)).drop 1) := by
  have hline : ∀ d ∈ line, (decide (d ≠ c)) = true := by
    intro d hd
    exact decide_eq_true fun heq => h (heq ▸ hd)
  rw [List.cons_append, scan_quote hc, List.takeWhile_append_of_pos hline,
    List.dropWhile_append_of_pos hline]

lemma dropLast_cons_scan (lexeme : Lexeme) (line : List Char) :
    (lexeme :: scan line).dropLast = lexeme :: (scan line).dropLast :=
  List.dropLast_cons_of_ne_nil (scan_ne_nil line)

lemma not_isQuote_of_isSingle (h : isSingle c = true) : isQuote c = false := by
  simp only [isSingle, Bool.and_eq_true, Bool.not_eq_true'] at h
  exact h.1.1.2

/-- Outside of quoted texts, the lexemes of a line are followed by those of the text after it. -/
theorem scan_append {rest : List Char} (hline : '#' ∉ line) (hquote : openQuote? line = none)
    (hrest : EndsWord rest) : scan (line ++ rest) = (scan line).dropLast ++ scan rest := by
  induction line using line_induction with
  | nil => rw [scan_nil, List.dropLast_singleton, List.nil_append, List.nil_append]
  | comment line => exact absurd List.mem_cons_self hline
  | separator c line hc ih =>
    rw [openQuote?_cons (not_isQuote_of_isSeparator hc)] at hquote
    rw [List.cons_append, scan_separator hc, scan_separator hc]
    exact ih (List.not_mem_of_not_mem_cons hline) hquote
  | closed c text line hc htext ih =>
    rw [openQuote?_quote hc htext] at hquote
    have hline' : '#' ∉ line := fun h => hline (by simp [h])
    have hassoc : c :: text ++ c :: line ++ rest = c :: text ++ c :: (line ++ rest) :=
      List.append_assoc _ _ _
    rw [hassoc, scan_closed hc htext, scan_closed hc htext, dropLast_cons_scan, ih hline' hquote,
      List.cons_append]
  | unclosed c text hc htext =>
    rw [openQuote?_unclosed hc htext] at hquote
    cases hquote
  | word word line hne hword hend ih =>
    have hnot : ∀ c ∈ word, isQuote c = false :=
      fun c hc => not_isQuote_of_isWordLetter (hword c hc)
    rw [openQuote?_append hnot] at hquote
    have hline' : '#' ∉ line := fun h => hline (List.mem_append_right _ h)
    rw [List.append_assoc, scan_word hne hword (EndsWord.append hend hrest),
      scan_word hne hword hend, dropLast_cons_scan, ih hline' hquote, List.cons_append]
  | single c line hc ih =>
    rw [openQuote?_cons (not_isQuote_of_isSingle hc)] at hquote
    rw [List.cons_append, scan_single hc, scan_single hc, dropLast_cons_scan,
      ih (List.not_mem_of_not_mem_cons hline) hquote, List.cons_append]

lemma isQuote_of_openQuote? {q : Char} (h : openQuote? line = some q) : isQuote q = true := by
  have hstep : ∀ (line : List Char) (quote : Option Char), (∀ c ∈ quote, isQuote c = true) →
      ∀ c ∈ line.foldl nextQuote quote, isQuote c = true := by
    intro line
    induction line with
    | nil => exact fun quote hquote => hquote
    | cons d line ih =>
      intro quote hquote
      refine ih _ ?_
      intro c hc
      unfold nextQuote at hc
      split at hc
      · split at hc
        · rename_i hd
          cases hc
          exact hd
        · cases hc
      · split at hc
        · cases hc
        · exact hquote c hc
  exact hstep line none (fun c hc => nomatch hc) q h

/-- What follows a line belongs to a quoted text in it up to the closing quote. -/
def Unclosed (q : Char) (line : List Char) : Prop :=
  ∃ front text, ∀ rest, scan (line ++ rest) =
    front ++ .quoted q (.ofList (text ++ rest.takeWhile (· ≠ q))) ::
      scan ((rest.dropWhile (· ≠ q)).drop 1)

lemma Unclosed.append {q : Char} (piece : List Char) (front : List Lexeme) (h : Unclosed q line)
    (hpiece : ∀ rest, scan (piece ++ (line ++ rest)) = front ++ scan (line ++ rest)) :
    Unclosed q (piece ++ line) := by
  obtain ⟨front', text, hscan⟩ := h
  refine ⟨front ++ front', text, fun rest => ?_⟩
  rw [List.append_assoc, hpiece, hscan, List.append_assoc]

theorem unclosed_of_openQuote? {q : Char} (hline : '#' ∉ line) (hquote : openQuote? line = some q) :
    Unclosed q line := by
  induction line using line_induction with
  | nil => cases hquote
  | comment line => exact absurd List.mem_cons_self hline
  | separator c line hc ih =>
    rw [openQuote?_cons (not_isQuote_of_isSeparator hc)] at hquote
    refine (ih (List.not_mem_of_not_mem_cons hline) hquote).append [c] [] ?_
    exact fun rest => scan_separator hc
  | closed c text line hc htext ih =>
    rw [openQuote?_quote hc htext] at hquote
    have hline' : '#' ∉ line := fun h => hline (by simp [h])
    have hpiece : ∀ rest, scan (c :: text ++ [c] ++ (line ++ rest)) =
        [.quoted c (.ofList text)] ++ scan (line ++ rest) := by
      intro rest
      rw [List.append_assoc]
      exact scan_closed hc htext
    have hunclosed := (ih hline' hquote).append _ _ hpiece
    rwa [List.append_assoc] at hunclosed
  | unclosed c text hc htext =>
    rw [openQuote?_unclosed hc htext] at hquote
    cases hquote
    exact ⟨[], text, fun rest => scan_unclosed hc htext⟩
  | word word line hne hword hend ih =>
    have hnot : ∀ c ∈ word, isQuote c = false :=
      fun c hc => not_isQuote_of_isWordLetter (hword c hc)
    rw [openQuote?_append hnot] at hquote
    have hline' : '#' ∉ line := fun h => hline (List.mem_append_right _ h)
    refine (ih hline' hquote).append word [ofWord word] fun rest => scan_word hne hword ?_
    cases line with
    | nil => cases hquote
    | cons c line => exact hend
  | single c line hc ih =>
    rw [openQuote?_cons (not_isQuote_of_isSingle hc)] at hquote
    refine (ih (List.not_mem_of_not_mem_cons hline) hquote).append [c] [.char c] ?_
    exact fun rest => scan_single hc

end Lexeme

end Kconfig
