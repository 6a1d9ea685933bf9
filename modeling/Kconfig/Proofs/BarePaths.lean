import Kconfig.Proofs.Complete
import Kconfig.Proofs.RawLines
import Kconfig.Proofs.Rendering
import Kconfig.Source

/-!
# Paths that need no quotes

An inclusion directive names a file by a quoted text, or by all that is left of its line. A path
without separators, quotes and `#` can be written both ways. Without quotes it is cut into words and
single characters and put together again, which gives the same path.
-/

namespace Kconfig

/-- A path that can be written without quotes. It holds no number that is too long. -/
structure IsBare (path : List Char) : Prop where
  ne_nil : path ≠ []
  letters : ∀ c ∈ path, isSeparator c = false ∧ isQuote c = false ∧ c ≠ '#'
  digits : ∀ lexeme ∈ Lexeme.scan path, lexeme.excessDigits? = none

/-- The lines that hold an inclusion directive and nothing else but blanks and a comment. -/
inductive SourceKind.Writes (kind : SourceKind) (path : List Char) : List Char → Prop where
  | bare {lead gap tail : List Char} (hlead : ∀ c ∈ lead, isSeparator c = true)
    (hgap : ∀ c ∈ gap, isSeparator c = true) (hne : gap ≠ [])
    (htail : Lexeme.scan tail = [.lineEnd]) :
    Writes kind path (lead ++ (kind.keyword.toList ++ (gap ++ (path ++ tail))))
  | quoted {lead gap tail : List Char} {quote : Char} (hlead : ∀ c ∈ lead, isSeparator c = true)
    (hgap : ∀ c ∈ gap, isSeparator c = true) (hne : gap ≠ [])
    (htail : Lexeme.scan tail = [.lineEnd]) (hquote : isQuote quote = true) :
    Writes kind path (lead ++ (kind.keyword.toList ++ (gap ++ (quote :: path ++ quote :: tail))))

namespace Lexeme

variable {path line tail : List Char}

lemma scan_separators {blanks : List Char} (hblanks : ∀ c ∈ blanks, isSeparator c = true) :
    scan (blanks ++ line) = scan line := by
  induction blanks with
  | nil => rfl
  | cons c blanks ih =>
    obtain ⟨hc, hblanks⟩ := List.forall_mem_cons.1 hblanks
    rw [List.cons_append, scan_separator hc, ih hblanks]

lemma endsWord_of_scan (h : scan tail = [.lineEnd]) : EndsWord tail := by
  cases tail with
  | nil => decide
  | cons c cs =>
    rintro d ⟨⟩
    by_contra hletter
    rw [Bool.not_eq_false] at hletter
    have hcut : scan (c :: cs) = ofWord (c :: cs.takeWhile isWordLetter) ::
        scan (cs.dropWhile isWordLetter) := by
      refine scan_of_first? ?_
      have hsep := not_isSeparator_of_isWordLetter hletter
      have hquote := not_isQuote_of_isWordLetter hletter
      have hhash : c ≠ '#' := by
        rintro rfl
        cases hletter
      simp [first?, hsep, hquote, hhash, hletter]
    rw [h] at hcut
    exact scan_ne_nil _ (List.cons.inj hcut).2.symm

lemma scan_bare (hpath : IsBare path) (htail : scan tail = [.lineEnd]) :
    scan (path ++ tail) = scan path := by
  have hhash : '#' ∉ path := fun h => (hpath.letters _ h).2.2 rfl
  have hquote : openQuote? path = none := by
    rw [← List.append_nil path, openQuote?_append fun c hc => (hpath.letters c hc).2.1]
    rfl
  obtain ⟨front, hfront, -⟩ := scan_eq_append path
  rw [scan_append hhash hquote (endsWord_of_scan htail), htail, hfront, List.dropLast_concat]

lemma join_written (hletters : ∀ c ∈ path, isSeparator c = false ∧ isQuote c = false ∧ c ≠ '#') :
    String.join ((scan path).dropLast.map written) = .ofList path := by
  induction path using line_induction with
  | nil => rw [scan_nil, List.dropLast_singleton, List.map_nil, String.join_nil, String.ofList_nil]
  | comment line => exact absurd rfl (hletters '#' List.mem_cons_self).2.2
  | separator c line hc ih => exact absurd hc (by simp [(hletters c List.mem_cons_self).1])
  | closed c text line hc htext ih =>
    exact absurd hc (by simp [(hletters c List.mem_cons_self).2.1])
  | unclosed c text hc htext => exact absurd hc (by simp [(hletters c List.mem_cons_self).2.1])
  | word word line hne hword hend ih =>
    rw [scan_word hne hword hend, dropLast_cons_scan, List.map_cons, String.join_cons,
      written_ofWord, ih fun c hc => hletters c (List.mem_append_right _ hc), String.ofList_append]
  | single c line hc ih =>
    rw [scan_single hc, dropLast_cons_scan, List.map_cons, String.join_cons,
      ih fun d hd => hletters d (List.mem_cons_of_mem _ hd), written, ← String.toList_inj,
      String.toList_append, String.toList_singleton, String.toList_ofList, String.toList_ofList,
      List.singleton_append]

lemma first?_bare (hpath : IsBare path) : ∃ lexeme rest, first? path = some (lexeme, rest) ∧
    ∀ quote text, lexeme ≠ .quoted quote text := by
  obtain ⟨c, cs, rfl⟩ := List.exists_cons_of_ne_nil hpath.ne_nil
  obtain ⟨hsep, hquote, hhash⟩ := hpath.letters c List.mem_cons_self
  have hdrop : (c :: cs).dropWhile isSeparator = c :: cs :=
    List.dropWhile_cons_of_neg (by simp [hsep])
  unfold first?
  rw [hdrop]
  dsimp only
  rw [if_neg hhash, if_neg (by simp [hquote])]
  split
  · refine ⟨_, _, rfl, ?_⟩
    unfold ofWord
    split <;> exact fun _ _ => Lexeme.noConfusion
  · exact ⟨_, _, rfl, fun _ _ => Lexeme.noConfusion⟩

end Lexeme

namespace Line

lemma beforeComment_of_scan {tail : List Char} (htail : Lexeme.scan tail = [.lineEnd]) :
    ∀ c ∈ beforeComment tail, isSeparator c = true := by
  have hone : ∀ {lexeme : Lexeme} {rest : List Char}, lexeme :: Lexeme.scan rest ≠ [.lineEnd] :=
    fun h => Lexeme.scan_ne_nil _ (List.cons.inj h).2
  induction tail using Lexeme.line_induction with
  | nil => exact List.forall_mem_nil _
  | comment line => exact List.forall_mem_nil _
  | separator c line hc ih =>
    rw [Lexeme.scan_separator hc] at htail
    have hhash : c ≠ '#' := by
      rintro rfl
      cases hc
    have hcons : beforeComment (c :: line) = c :: beforeComment line :=
      List.takeWhile_cons_of_pos (decide_eq_true hhash)
    rw [hcons]
    exact List.forall_mem_cons.2 ⟨hc, ih htail⟩
  | closed c text line hc htext => exact absurd (Lexeme.scan_closed hc htext ▸ htail) hone
  | unclosed c text hc htext => exact absurd (Lexeme.scan_quote hc ▸ htail) hone
  | word word line hne hword hend => exact absurd (Lexeme.scan_word hne hword hend ▸ htail) hone
  | single c line hc => exact absurd (Lexeme.scan_single hc ▸ htail) hone

lemma trimRight_append {front : List Char} (h : ∀ c ∈ front.getLast?, Text.isBlank c = false)
    (back : List Char) : Text.trimRight (front ++ back) = front ++ Text.trimRight back := by
  have hfront : front.reverse.dropWhile Text.isBlank = front.reverse := by
    cases hreverse : front.reverse with
    | nil => rfl
    | cons c cs =>
      rw [← List.head?_reverse, hreverse] at h
      exact List.dropWhile_cons_of_neg (by simp [h c rfl])
  rw [Text.trimRight, List.reverse_append, List.dropWhile_append, hfront, Text.trimRight]
  split
  · rename_i hempty
    rw [List.isEmpty_iff.1 hempty]
    simp
  · simp

lemma raw_append_of_scan {front tail : List Char} (hhash : '#' ∉ front)
    (hblank : ∀ c ∈ front.getLast?, Text.isBlank c = false)
    (htail : Lexeme.scan tail = [.lineEnd]) :
    ∃ blanks, raw (front ++ tail) = front ++ blanks ∧ Lexeme.scan blanks = [.lineEnd] := by
  have hbefore : beforeComment (front ++ tail) = front ++ beforeComment tail := by
    refine List.takeWhile_append_of_pos fun c hc => decide_eq_true ?_
    rintro rfl
    exact hhash hc
  refine ⟨Text.trimRight (beforeComment tail), ?_, ?_⟩
  · rw [raw, hbefore, trimRight_append hblank]
  · rw [← List.append_nil (Text.trimRight _), Lexeme.scan_separators, Lexeme.scan_nil]
    intro c hc
    refine beforeComment_of_scan htail c ?_
    exact List.mem_reverse.1 ((List.dropWhile_suffix _).subset (List.mem_reverse.1 hc))

end Line

namespace SourceKind

variable {kind : SourceKind} {path line : List Char}

lemma ofWord?_keyword (kind : SourceKind) :
    BlockKeyword.ofWord? kind.keyword = some (.source kind) := by
  obtain ⟨relative, optional⟩ := kind
  cases relative <;> cases optional <;> rfl

lemma scan_keyword {lead gap more : List Char} (hlead : ∀ c ∈ lead, isSeparator c = true)
    (hgap : ∀ c ∈ gap, isSeparator c = true) (hne : gap ≠ []) :
    Lexeme.scan (lead ++ (kind.keyword.toList ++ (gap ++ more))) =
      .word kind.keyword :: Lexeme.scan more := by
  have hword : kind.keyword.toList ≠ [] ∧ (∀ c ∈ kind.keyword.toList, isWordLetter c = true) ∧
      Lexeme.ofWord kind.keyword.toList = .word kind.keyword := by
    obtain ⟨relative, optional⟩ := kind
    cases relative <;> cases optional <;> decide
  have hends : EndsWord (gap ++ more) := by
    obtain ⟨c, gap, rfl⟩ := List.exists_cons_of_ne_nil hne
    rintro d ⟨⟩
    by_contra hletter
    have hsep := not_isSeparator_of_isWordLetter ((Bool.not_eq_false _).mp hletter)
    rw [hgap c List.mem_cons_self] at hsep
    cases hsep
  rw [Lexeme.scan_separators hlead, Lexeme.scan_word hword.1 hword.2.1 hends, hword.2.2,
    Lexeme.scan_separators hgap]

lemma readPath_of_ne_quoted (kind : SourceKind) {token : Token} {rest : List Token}
    {texts : List String} {stop : Stop} (hquoted : ∀ quote text, token.lexeme ≠ .quoted quote text)
    (hend : token.lexeme.isEnd = false) (hskip : skipRest (token :: rest) = .ok (texts, stop)) :
    kind.readPath (token :: rest) = .ok { value := (String.join texts, []), stop } := by
  rw [skipRest, if_neg (by rw [hend]; exact Bool.false_ne_true)] at hskip
  cases hrest : skipRest rest with
  | error failure =>
    rw [hrest] at hskip
    cases hskip
  | ok result =>
    rw [hrest] at hskip
    cases hskip
    obtain ⟨lexeme, linenr⟩ := token
    cases lexeme with
    | quoted quote text => exact absurd rfl (hquoted quote text)
    | lineEnd => cases hend
    | fileEnd => cases hend
    | _ =>
      rw [readPath]
      · rw [if_neg (by exact Bool.false_ne_true), readRest, hrest]
        rfl
      · exact fun quote text _ heq => hquoted quote text (congrArg Token.lexeme heq)

lemma readPath_of_writes (hpath : IsBare path) (h : kind.Writes path line) (linenr : Nat) :
    ∃ tokens, Token.ofLine linenr line = ⟨.word kind.keyword, linenr⟩ :: tokens ∧
      (∀ token ∈ tokens, token.isDeliverable = true) ∧
        kind.readPath tokens = .ok {
          value := (.ofList path, [])
          stop := { token := ⟨.lineEnd, linenr⟩, rest := [] } } := by
  cases h with
  | bare hlead hgap hne htail =>
    refine ⟨Token.ofLine linenr path, ?_, ?_, ?_⟩
    · unfold Token.ofLine
      rw [scan_keyword hlead hgap hne, Lexeme.scan_bare hpath htail, List.map_cons]
    · intro token htoken
      obtain ⟨lexeme, hlexeme, rfl⟩ := List.mem_map.1 htoken
      exact Token.isDeliverable_iff.2 (hpath.digits lexeme hlexeme)
    · obtain ⟨lexeme, rest, hfirst, hquoted⟩ := Lexeme.first?_bare hpath
      have hskip := Token.skipRest_ofLine linenr path
      rw [Token.ofLine_of_first? linenr hfirst] at hskip ⊢
      rw [readPath_of_ne_quoted kind hquoted (Lexeme.isEnd_of_first? hfirst) hskip,
        Lexeme.join_written hpath.letters]
  | @quoted lead gap tail quote hlead hgap hne htail hquote =>
    have hmem : quote ∉ path := fun hmem => by simp [(hpath.letters quote hmem).2.1] at hquote
    refine ⟨⟨.quoted quote (.ofList path), linenr⟩ :: Token.ofLine linenr tail, ?_, ?_, ?_⟩
    · unfold Token.ofLine
      rw [scan_keyword hlead hgap hne, Lexeme.scan_closed hquote hmem, List.map_cons, List.map_cons]
    · unfold Token.ofLine
      rw [htail]
      exact List.forall_mem_cons.2 ⟨rfl, List.forall_mem_singleton.2 rfl⟩
    · have hskip := Token.skipRest_ofLine linenr tail
      rw [htail] at hskip
      rw [readPath, readRest, hskip]
      rfl

lemma hash_notMem_keyword (kind : SourceKind) : '#' ∉ kind.keyword.toList := by
  obtain ⟨relative, optional⟩ := kind
  cases relative <;> cases optional <;> decide

lemma hash_notMem_separators {blanks : List Char} (h : ∀ c ∈ blanks, isSeparator c = true) :
    '#' ∉ blanks := by
  intro hmem
  cases h _ hmem

lemma Writes.raw (hpath : IsBare path) (hblank : ∀ c ∈ path.getLast?, Text.isBlank c = false)
    (h : kind.Writes path line) : kind.Writes path (Line.raw line) := by
  have hhash : '#' ∉ path := fun hmem => (hpath.letters _ hmem).2.2 rfl
  cases h with
  | @bare lead gap tail hlead hgap hne htail =>
    have hfront : '#' ∉ lead ++ (kind.keyword.toList ++ (gap ++ path)) := by
      simp only [List.mem_append, hash_notMem_separators hlead, hash_notMem_separators hgap,
        kind.hash_notMem_keyword, hhash, or_self, not_false_eq_true]
    have hlast : (lead ++ (kind.keyword.toList ++ (gap ++ path))).getLast? = path.getLast? := by
      simp only [← List.append_assoc]
      exact List.getLast?_append_of_ne_nil _ hpath.ne_nil
    obtain ⟨blanks, hraw, hscan⟩ := Line.raw_append_of_scan hfront (hlast ▸ hblank) htail
    simp only [List.append_assoc] at hraw
    rw [hraw]
    exact .bare hlead hgap hne hscan
  | @quoted lead gap tail quote hlead hgap hne htail hquote =>
    have hquoteHash : '#' ≠ quote := by
      rintro rfl
      cases hquote
    have hfront : '#' ∉ lead ++ (kind.keyword.toList ++ (gap ++ (quote :: path ++ [quote]))) := by
      simp only [List.mem_append, List.mem_cons, List.not_mem_nil, hash_notMem_separators hlead,
        hash_notMem_separators hgap, kind.hash_notMem_keyword, hhash, hquoteHash, or_self,
        not_false_eq_true]
    have hlast : (lead ++ (kind.keyword.toList ++ (gap ++ (quote :: path ++ [quote])))).getLast? =
        some quote := by
      simp only [← List.append_assoc]
      exact List.getLast?_concat
    have hquoteBlank : ∀ c ∈ some quote, Text.isBlank c = false := by
      rintro _ ⟨⟩
      exact Bool.not_eq_true _ ▸ fun hc => by simp [(Line.endsWord_of_blank hc).2.1] at hquote
    obtain ⟨blanks, hraw, hscan⟩ := Line.raw_append_of_scan hfront (hlast ▸ hquoteBlank) htail
    simp only [List.append_assoc, List.cons_append, List.nil_append] at hraw
    change kind.Writes path (Line.raw (lead ++ (kind.keyword.toList ++
      (gap ++ quote :: (path ++ quote :: tail)))))
    rw [hraw]
    exact .quoted hlead hgap hne hscan hquote

end SourceKind

end Kconfig
