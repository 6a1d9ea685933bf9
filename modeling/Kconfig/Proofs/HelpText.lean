import Kconfig.Proofs.RawLines

/-!
# Help texts

A help text begins and ends with characters that are no blanks, apart from one line break at its
end. The first line of the text sets the indentation and is not blank. No line has blanks at its
end, and lines that are blank are left out at the end of the text.
-/

namespace Kconfig

/-- A text without blanks at its beginning and with exactly one line break at its end. -/
structure IsHelpText (text : String) : Prop where
  begins : ∃ c rest, text.toList = c :: rest ∧ Text.isBlank c = false
  ends : ∃ front c, text.toList = front ++ [c, '\n'] ∧ Text.isBlank c = false

/-- The last character of a text is there and is no blank. -/
def EndsInInk (text : List Char) : Prop :=
  ∃ front c, text = front ++ [c] ∧ Text.isBlank c = false

lemma EndsInInk.dropWhile {text : List Char} (h : EndsInInk text) :
    ∃ c rest, text.dropWhile Text.isBlank = c :: rest ∧ Text.isBlank c = false := by
  obtain ⟨front, c, rfl, hc⟩ := h
  have hne : (front ++ [c]).dropWhile Text.isBlank ≠ [] := by
    intro hnil
    have hblank := List.dropWhile_eq_nil_iff.1 hnil c (by simp)
    rw [hc] at hblank
    cases hblank
  obtain ⟨b, rest, hrest⟩ := List.exists_cons_of_ne_nil hne
  refine ⟨b, rest, hrest, ?_⟩
  have hnot := List.head?_dropWhile_not Text.isBlank (front ++ [c])
  rw [hrest] at hnot
  simpa using hnot

lemma EndsInInk.drop {text : List Char} (h : EndsInInk text) {n : Nat}
    (hn : n ≤ Text.indentation text) : EndsInInk (text.drop n) := by
  obtain ⟨front, c, rfl, hc⟩ := h
  refine ⟨front.drop n, c, ?_, hc⟩
  refine List.drop_append_of_le_length (hn.trans ?_)
  rw [Text.indentation, List.takeWhile_append]
  split
  · rw [List.takeWhile_cons_of_neg (by simp [hc]), List.append_nil]
  · exact (List.takeWhile_prefix _).length_le

lemma drop_indentation (text : List Char) :
    text.drop (Text.indentation text) = text.dropWhile Text.isBlank := by
  have hdrop : (text.takeWhile Text.isBlank ++ text.dropWhile Text.isBlank).drop
      (text.takeWhile Text.isBlank).length = text.dropWhile Text.isBlank := List.drop_left
  rwa [List.takeWhile_append_dropWhile] at hdrop

lemma endsInInk_expandTabsFrom (column : Nat) {text : List Char} (h : EndsInInk text) :
    EndsInInk (Text.expandTabsFrom column text) := by
  obtain ⟨front, c, rfl, hc⟩ := h
  have htab : c ≠ '\t' := by
    rintro rfl
    cases hc
  induction front generalizing column with
  | nil =>
    refine ⟨[], c, ?_, hc⟩
    rw [List.nil_append, Text.expandTabsFrom, if_neg htab, Text.expandTabsFrom,
      Text.expandTabsFrom, ite_self]
  | cons b front ih =>
    have hcons : ∀ (column : Nat) (piece : List Char),
        EndsInInk (piece ++ Text.expandTabsFrom column (front ++ [c])) := by
      intro column piece
      obtain ⟨front', c', hfront, hc'⟩ := ih column
      exact ⟨piece ++ front', c', by rw [hfront, List.append_assoc], hc'⟩
    rw [List.cons_append, Text.expandTabsFrom]
    split
    · exact hcons _ _
    · split
      · exact hcons 0 [b]
      · exact hcons (column + 1) [b]

namespace Line

lemma endsInInk_of_raw {line : List Char} (hraw : raw line = line)
    (hblank : Text.isBlankText line = false) : EndsInInk line := by
  have hne : line ≠ [] := by
    rintro rfl
    cases hblank
  have htrim : line = line.rdropWhile Text.isBlank := by
    conv_lhs => rw [← hraw, raw, Text.trimRight]
    rw [beforeComment, List.takeWhile_eq_self_iff.2]
    · rfl
    · intro c hc
      obtain ⟨-, -, -, -, -, -, hhash⟩ := raw_append line
      rw [hraw] at hhash
      refine decide_eq_true ?_
      rintro rfl
      exact hhash hc
  refine ⟨line.dropLast, line.getLast hne, (List.dropLast_append_getLast hne).symm, ?_⟩
  have hlast := List.rdropWhile_last_not Text.isBlank line (htrim ▸ hne)
  simpa [← htrim] using hlast

end Line

namespace TokenStream

variable {s s' : TokenStream} {p : List Char → Bool} {lines : List (List Char)}
  {stop : Option (List Char)}

lemma mem_takeLines (h : s.takeLines p = .ok (lines, stop, s')) :
    ∀ line ∈ lines, p line = true ∧ Line.raw line = line := by
  fun_induction takeLines p s generalizing lines stop s' with
  | case1 s fault hr => cases h
  | case2 s t hr =>
    cases h
    exact List.forall_mem_nil _
  | case3 s line t hr hp fault hrec ih => cases h
  | case4 s line t hr hp lines' stop' u hrec ih =>
    cases h
    obtain ⟨-, text, reader, -, rfl, -⟩ := readLine_eq_some hr
    exact List.forall_mem_cons.2 ⟨⟨hp, Line.raw_raw text⟩, ih hrec⟩
  | case5 s line t hr hp fault hu => cases h
  | case6 s line t hr hp u hu =>
    cases h
    exact List.forall_mem_nil _

lemma readLine_of_takeLines {line : List Char}
    (h : s.takeLines p = .ok (lines, some line, s')) :
    p line = false ∧ ∃ t, s'.readLine = .ok (some line, t) := by
  obtain ⟨u, t, -, hread, -, hstop⟩ := takeLines_eq_ok h
  obtain ⟨hp, hunread⟩ := hstop line rfl
  obtain ⟨hline, text, reader, hnext, rfl, rfl⟩ := readLine_eq_some hread
  obtain ⟨reader', hagain, hback⟩ := hline.unreadLine hnext
  rw [hback] at hunread
  cases hunread
  have hline' : (u.movedTo reader' reader.lineStart).AtLine := ⟨hline.pushedBack, hline.rest⟩
  have hfirst := hline'.readLine hagain
  rw [Line.raw_raw] at hfirst
  exact ⟨hp, _, hfirst⟩

lemma takeLines_eq_cons {line : List Char} {t : TokenStream}
    (hread : s.readLine = .ok (some line, t)) (hp : p line = true)
    (h : s.takeLines p = .ok (lines, stop, s')) : ∃ more, lines = line :: more := by
  obtain ⟨u, v, hreads, hstop, -, hlast⟩ := takeLines_eq_ok h
  cases lines with
  | nil =>
    cases hreads
    rw [hread] at hstop
    cases hstop
    rw [(hlast line rfl).1] at hp
    cases hp
  | cons first more =>
    obtain ⟨w, hw, -⟩ := hreads
    rw [hread] at hw
    cases hw
    exact ⟨more, rfl⟩

end TokenStream

namespace Directive

open TokenStream

lemma endsInInk_drop_column {line : List Char} {indent : Nat} (hraw : Line.raw line = line)
    (hblank : Text.isBlankText line = false) (hindent : indent ≤ column line) :
    EndsInInk ((Text.expandTabs line).drop indent) :=
  (endsInInk_expandTabsFrom 0 (Line.endsInInk_of_raw hraw hblank)).drop hindent

lemma isHelpText_helpText {first : List Char} {more : List (List Char)}
    (hfirst : Text.isBlankText first = false)
    (hlines : ∀ line ∈ first :: more, Line.raw line = line ∧
      (Text.isBlankText line = false → column first ≤ column line)) :
    IsHelpText (helpText (column first) (first :: more)) := by
  let body (line : List Char) : List Char :=
    (if Text.isBlankText line then [] else (Text.expandTabs line).drop (column first)) ++ ['\n']
  let kept := (first :: more).rdropWhile Text.isBlankText
  have hbody : ∀ line, Text.isBlankText line = false →
      body line = (Text.expandTabs line).drop (column first) ++ ['\n'] := by
    intro line hline
    simp only [body, hline, Bool.false_eq_true, if_false]
  have htext : (helpText (column first) (first :: more)).toList = kept.flatMap body :=
    String.toList_ofList
  have hkept : kept ≠ [] := by
    intro hnil
    have hall := List.rdropWhile_eq_nil_iff.1 hnil first List.mem_cons_self
    rw [hfirst] at hall
    cases hall
  refine ⟨?_, ?_⟩
  · -- The first line is kept, and its indentation is just what is taken off.
    obtain ⟨c, rest, hrest, hc⟩ :=
      (endsInInk_expandTabsFrom 0
        (Line.endsInInk_of_raw (hlines first (by simp)).1 hfirst)).dropWhile
    obtain ⟨head, tail, htail⟩ := List.exists_cons_of_ne_nil hkept
    have hhead : head = first := by
      have hprefix : kept <+: first :: more := List.rdropWhile_prefix _ _
      rw [htail] at hprefix
      exact (List.cons_prefix_cons.1 hprefix).1
    refine ⟨c, rest ++ ['\n'] ++ tail.flatMap body, ?_, hc⟩
    rw [htext, htail, hhead, List.flatMap_cons, hbody first hfirst, column, drop_indentation]
    change List.dropWhile Text.isBlank (Text.expandTabsFrom 0 first) ++ _ ++ _ = _
    rw [hrest]
    rfl
  · -- The last line that is kept is not blank, and it has no less indentation than the first.
    have hlast := List.rdropWhile_last_not Text.isBlankText (first :: more) hkept
    rw [Bool.not_eq_true] at hlast
    have hmem : kept.getLast hkept ∈ first :: more :=
      (List.rdropWhile_prefix _ _).subset (List.getLast_mem hkept)
    obtain ⟨front, c, hfront, hc⟩ := endsInInk_drop_column (hlines _ hmem).1 hlast
      ((hlines _ hmem).2 hlast)
    refine ⟨kept.dropLast.flatMap body ++ front, c, ?_, hc⟩
    rw [htext]
    conv_lhs => rw [← List.dropLast_append_getLast hkept]
    rw [List.flatMap_append, List.flatMap_singleton, hbody _ hlast, hfront]
    simp only [List.append_assoc, List.cons_append, List.nil_append]

/-- Whatever is read after the keyword of a help text, if it is a text, it is one of this form. -/
theorem isHelpText_of_readHelp {s s' : TokenStream} {text : String}
    (h : readHelp s = .ok (some text, s')) : IsHelpText text := by
  obtain ⟨t, -, h⟩ := bind_eq_ok.1 h
  obtain ⟨⟨blanks, first, u⟩, hblanks, h⟩ := bind_eq_ok.1 h
  cases first with
  | none => cases pure_eq_ok.1 h
  | some line =>
    dsimp only at h
    split at h
    · cases pure_eq_ok.1 h
    · obtain ⟨⟨lines, stop, v⟩, hlines, h⟩ := bind_eq_ok.1 h
      cases pure_eq_ok.1 h
      obtain ⟨hblank, w, hread⟩ := readLine_of_takeLines hblanks
      obtain ⟨more, rfl⟩ := takeLines_eq_cons hread (by simp) hlines
      refine isHelpText_helpText hblank fun line' hmem => ?_
      obtain ⟨hp, hraw⟩ := mem_takeLines hlines line' hmem
      refine ⟨hraw, fun hblank' => ?_⟩
      simpa [hblank'] using hp

end Directive

end Kconfig
