import Kconfig.Proofs.Agreement
import Kconfig.Proofs.Decoding
import Kconfig.Proofs.Snapshots

/-!
# Comments behind lines

A comment behind a line is seen neither by the tokens of the line, unless a quoted text is still
open there, nor by its raw text. So files that differ in such comments alone are read alike, whether
their lines are read as tokens, as a help text, or as both.
-/

namespace Kconfig

/-- A comment as it stands behind a line: blanks, and `#` with any text. -/
def IsComment (text : List Char) : Prop :=
  ∃ blanks remark, text = blanks ++ '#' :: remark ∧ blanks ≠ [] ∧ ∀ c ∈ blanks, c = ' ' ∨ c = '\t'

namespace Lexeme

variable {line text : List Char} {c : Char}

/-- The quote that is open at the end of a line when it is read as tokens, given the one that is
open at its beginning. In a comment none is. -/
def quoteAtEnd? (quote : Option Char) : List Char → Option Char
  | [] => quote
  | c :: line => if quote = none ∧ c = '#' then none else quoteAtEnd? (nextQuote quote c) line

lemma quoteAtEnd?_cons (hc : isQuote c = false) (hhash : c ≠ '#') :
    quoteAtEnd? none (c :: line) = quoteAtEnd? none line := by
  rw [quoteAtEnd?, if_neg (fun h => hhash h.2), nextQuote, if_neg (by simp [hc])]

lemma quoteAtEnd?_inside {q : Char} (h : q ∉ line) :
    quoteAtEnd? (some q) (line ++ text) = quoteAtEnd? (some q) text := by
  induction line with
  | nil => rfl
  | cons d line ih =>
    obtain ⟨hd, hline⟩ := List.ne_and_not_mem_of_not_mem_cons h
    rw [List.cons_append, quoteAtEnd?, if_neg (fun h => nomatch h.1), nextQuote,
      if_neg (Ne.symm hd), ih hline]

lemma quoteAtEnd?_quote (hc : isQuote c = true) :
    quoteAtEnd? none (c :: line) = quoteAtEnd? (some c) line := by
  have hhash : c ≠ '#' := by
    rintro rfl
    cases hc
  rw [quoteAtEnd?, if_neg (fun h => hhash h.2), nextQuote, if_pos hc]

lemma quoteAtEnd?_closed (hc : isQuote c = true) (h : c ∉ text) :
    quoteAtEnd? none (c :: text ++ c :: line) = quoteAtEnd? none line := by
  rw [List.cons_append, quoteAtEnd?_quote hc, quoteAtEnd?_inside h, quoteAtEnd?,
    if_neg (fun h => nomatch h.1), nextQuote, if_pos rfl]

lemma quoteAtEnd?_unclosed (hc : isQuote c = true) (h : c ∉ text) :
    quoteAtEnd? none (c :: text) = some c := by
  rw [quoteAtEnd?_quote hc, ← List.append_nil text, quoteAtEnd?_inside h, quoteAtEnd?]

lemma quoteAtEnd?_word {word : List Char} (hword : ∀ c ∈ word, isWordLetter c = true) :
    quoteAtEnd? none (word ++ line) = quoteAtEnd? none line := by
  induction word with
  | nil => rfl
  | cons c word ih =>
    obtain ⟨hc, hword⟩ := List.forall_mem_cons.1 hword
    have hhash : c ≠ '#' := by
      rintro rfl
      cases hc
    rw [List.cons_append, quoteAtEnd?_cons (not_isQuote_of_isWordLetter hc) hhash, ih hword]

end Lexeme

namespace IsComment

open Lexeme

variable {line comment : List Char}

lemma endsWord (h : IsComment comment) : EndsWord comment := by
  obtain ⟨blanks, remark, rfl, hne, hblanks⟩ := h
  obtain ⟨b, blanks, rfl⟩ := List.exists_cons_of_ne_nil hne
  intro c hc
  cases hc
  rcases hblanks b List.mem_cons_self with rfl | rfl <;> rfl

lemma scan_eq (h : IsComment comment) : scan comment = [.lineEnd] := by
  obtain ⟨blanks, remark, rfl, -, hblanks⟩ := h
  induction blanks with
  | nil => exact scan_comment
  | cons b blanks ih =>
    obtain ⟨hb, hblanks⟩ := List.forall_mem_cons.1 hblanks
    have hsep : isSeparator b = true := by rcases hb with rfl | rfl <;> rfl
    rw [List.cons_append, scan_separator hsep, ih hblanks]

/-- The tokens of a line do not change with a comment behind it, unless a quoted text is open. -/
theorem scan_append (h : IsComment comment) (hquote : quoteAtEnd? none line = none) :
    scan (line ++ comment) = scan line := by
  induction line using line_induction with
  | nil => rw [List.nil_append, h.scan_eq, scan_nil]
  | comment line => rw [List.cons_append, scan_comment, scan_comment]
  | separator c line hc ih =>
    have hhash : c ≠ '#' := by
      rintro rfl
      cases hc
    rw [quoteAtEnd?_cons (not_isQuote_of_isSeparator hc) hhash] at hquote
    rw [List.cons_append, scan_separator hc, scan_separator hc, ih hquote]
  | closed c text line hc htext ih =>
    rw [quoteAtEnd?_closed hc htext] at hquote
    have hassoc : c :: text ++ c :: line ++ comment = c :: text ++ c :: (line ++ comment) :=
      List.append_assoc _ _ _
    rw [hassoc, scan_closed hc htext, scan_closed hc htext, ih hquote]
  | unclosed c text hc htext =>
    rw [quoteAtEnd?_unclosed hc htext] at hquote
    cases hquote
  | word word line hne hword hend ih =>
    rw [quoteAtEnd?_word hword] at hquote
    rw [List.append_assoc, scan_word hne hword (EndsWord.append hend h.endsWord),
      scan_word hne hword hend, ih hquote]
  | single c line hc ih =>
    have hhash : c ≠ '#' := by
      rintro rfl
      cases hc
    rw [quoteAtEnd?_cons (not_isQuote_of_isSingle hc) hhash] at hquote
    rw [List.cons_append, scan_single hc, scan_single hc, ih hquote]

/-- The raw text of a line never changes with a comment behind it. -/
theorem raw_append (h : IsComment comment) (line : List Char) :
    Line.raw (line ++ comment) = Line.raw line := by
  have hplain : ∀ text : List Char, '#' ∉ text → ∀ c ∈ text, decide (c ≠ '#') = true :=
    fun text htext c hc => decide_eq_true fun hhash => htext (hhash ▸ hc)
  unfold Line.raw Line.beforeComment
  by_cases hline : '#' ∈ line
  · obtain ⟨front, back, rfl, hfront⟩ := List.eq_append_cons_of_mem hline
    rw [List.append_assoc, List.takeWhile_append_of_pos (hplain front hfront),
      List.takeWhile_append_of_pos (hplain front hfront), List.cons_append,
      List.takeWhile_cons_of_neg (by simp), List.takeWhile_cons_of_neg (by simp)]
  · obtain ⟨blanks, remark, rfl, -, hblanks⟩ := h
    have hblanks' : '#' ∉ blanks := fun hhash => by simpa using hblanks '#' hhash
    have hisBlank : ∀ c ∈ blanks.reverse, Text.isBlank c = true := by
      intro c hc
      rcases hblanks c (List.mem_reverse.1 hc) with rfl | rfl <;> rfl
    have hwhole : line.takeWhile (decide <| · ≠ '#') = line := by
      rw [List.takeWhile_eq_self_iff]
      exact hplain line hline
    rw [List.takeWhile_append_of_pos (hplain line hline),
      List.takeWhile_append_of_pos (hplain blanks hblanks'), List.takeWhile_cons_of_neg (by simp),
      List.append_nil, hwhole, Text.trimRight, Text.trimRight, List.reverse_append,
      List.dropWhile_append_of_pos hisBlank]

end IsComment

/-- The second line is the first one, or the first one with a comment behind it. In the latter case
no quoted text is open at the end of the first one. -/
def Line.Commented (line line' : Line) : Prop :=
  line' = line ∨ ∃ comment, IsComment comment ∧ line'.text = line.text ++ comment ∧
    line'.height = line.height ∧ Lexeme.quoteAtEnd? none line.text = none

lemma Line.Commented.similar {line line' : Line} (h : line.Commented line') :
    line.Similar line' := by
  rcases h with rfl | ⟨comment, hcomment, htext, hheight, hquote⟩
  · exact .refl _
  · refine ⟨hheight, ?_, ?_⟩
    · rw [htext, hcomment.scan_append hquote]
    · rw [htext, hcomment.raw_append]

/-- Two file systems that differ in nothing but comments behind the lines of files that are text. -/
def FileSystem.Commented (fs fs' : FileSystem) : Prop :=
  ∀ path, fs'.look path = fs.look path ∨ ∃ bytes bytes' text text',
    fs.look path = .file bytes ∧ Text.decodeUtf8 bytes = .whole text ∧
      fs'.look path = .file bytes' ∧ Text.decodeUtf8 bytes' = .whole text' ∧
        List.Forall₂ Line.Commented (Line.ofText text) (Line.ofText text')

namespace FileSystem.Commented

variable {fs fs' : FileSystem} {a b : Context}

lemma look (h : fs.Commented fs') (path : String) : (fs.look path).Similar (fs'.look path) := by
  rcases h path with hsame | ⟨bytes, bytes', text, text', hbytes, htext, hbytes', htext', hlines⟩
  · rw [hsame]
    exact .same _
  · rw [hbytes, hbytes']
    refine .file fun name => ⟨Line.ofText text', ?_, ?_⟩
    · rw [LineReader.ofBytes_of_whole name htext]
      exact hlines.imp fun _ _ => Line.Commented.similar
    · rw [LineReader.ofBytes_of_whole name htext, LineReader.ofBytes_of_whole name htext']

lemma readSource {root : String} (h : fs.Commented fs') (kind : SourceKind)
    (hab : a.Agrees (.none root) b) :
    Agree False (Context.Agrees (.none root)) (a.readSource fs kind) (b.readSource fs' kind) := by
  refine hab.readSource fun {a b} start target hab => ?_
  unfold Context.openTarget
  split
  · exact hab.openSource start (h.look _) fun _ _ => congrArg (· ++ [_]) hab.visited
  · exact hab.openLoose start (h.look _)

end FileSystem.Commented

namespace State

variable {fs fs' : FileSystem}

/-- Two runs over lines that differ in comments behind them end alike. -/
theorem run_commented {root : String} (hfs : fs.Commented fs') (s : State) :
    ∀ {b : Context}, s.ctx.Agrees (.none root) b →
      Agree False (Context.AgreesWith (.none root)) ((s.run fs).mapError Failure.fault)
        (({ s with ctx := b }.run fs').mapError Failure.fault) := by
  induction s using step_induction fs with
  | next s ih =>
    intro b hab
    rcases (step_agrees hfs.readSource hab).split with
      ⟨fault, ha, hlax | hb⟩ | ⟨p, q, ha, hb, hpq⟩
    · exact hlax.elim
    · rw [run_of_error ha, run_of_error hb]
      exact .fail fault
    · cases hpq with
      | running hab =>
        rw [run_of_running ha, run_of_running hb]
        exact ih _ ha hab
      | sourced hblock hab =>
        rw [run_of_running ha, run_of_running hb]
        exact ih _ ha hab
      | finished hab =>
        rw [run_of_finished ha, run_of_finished hb]
        exact ⟨rfl, hab⟩

end State

namespace Tree

variable {fs fs' : FileSystem} {settings : Settings} {bytes bytes' : List UInt8}

lemma ofRun_of_agrees {root : String} {a b : Context} (h : a.Agrees (.none root) b) (e : Entry) :
    ofRun e b = ofRun e a := by
  have hreport : a.report = b.report := h.report
  have hvisited : a.visited = b.visited := h.visited
  unfold ofRun
  dsimp only
  rw [h.symbols, ← hreport, ← hvisited]

lemma parse_of_opened (h : fs.look (Path.join settings.root settings.file) = .file bytes) :
    parse fs settings =
      (((settings.opened bytes).run fs).mapError Failure.fault).map fun r => ofRun r.1 r.2 := by
  rw [parse_eq, Settings.start_eq, h]
  dsimp only
  cases (settings.opened bytes).run fs <;> rfl

lemma parse_of_similar (hfs : fs.Commented fs')
    (hbytes : fs.look (Path.join settings.root settings.file) = .file bytes)
    (hbytes' : fs'.look (Path.join settings.root settings.file) = .file bytes')
    (h : (LineReader.ofBytes settings.file bytes).Similar
      (LineReader.ofBytes settings.file bytes')) :
    parse fs' settings = parse fs settings := by
  have hab : (settings.opened bytes).ctx.Agrees (.none settings.root)
      (settings.opened bytes').ctx :=
    ⟨rfl, rfl, rfl, rfl, rfl, .cons ⟨_, h, rfl⟩ .nil, rfl, rfl, rfl, rfl⟩
  rw [parse_of_opened hbytes, parse_of_opened hbytes']
  rcases (State.run_commented hfs (settings.opened bytes) hab).split with
    ⟨fault, ha, hlax | hb⟩ | ⟨⟨_, x⟩, ⟨e, y⟩, ha, hb, rfl, hxy⟩
  · exact hlax.elim
  · exact congrArg _ (hb.trans ha.symm)
  · rw [ha]
    refine (congrArg _ hb).trans ?_
    exact congrArg Except.ok (ofRun_of_agrees hxy e)

/-- Comments behind lines make no difference: a parse gives the same tree with the same symbols,
files and report, or the same error. -/
theorem parse_commented (h : fs.Commented fs') (settings : Settings) :
    parse fs' settings = parse fs settings := by
  have hlook := h.look (Path.join settings.root settings.file)
  cases hfound : fs.look (Path.join settings.root settings.file) with
  | file bytes =>
    cases hfound' : fs'.look (Path.join settings.root settings.file) with
    | file bytes' =>
      rw [hfound, hfound'] at hlook
      refine parse_of_similar h hfound hfound' ?_
      cases hlook with
      | same => exact .refl _
      | file hlines => exact hlines _
    | _ =>
      rw [hfound, hfound'] at hlook
      cases hlook
  | _ =>
    rw [hfound] at hlook
    rw [parse_eq, parse_eq, Settings.start_eq, Settings.start_eq, hfound]
    generalize fs'.look (Path.join settings.root settings.file) = found' at hlook
    cases hlook
    rfl

end Tree

/-- A file with a help text. -/
def helped : String :=
  "config A\n bool \"#\"\n help\n  text\nconfig B\n"

/-- The same file with comments behind its lines, also behind the one of the help text. -/
def helpedCommented : String :=
  "config A\n bool \"#\" # a\n help\t# b\n  text  # c\nconfig B # \"d\n"

theorem parse_commented_helped :
    (Snapshot.write {} "K" helped.toUTF8.toList).toFileSystem.Commented
        (Snapshot.write {} "K" helpedCommented.toUTF8.toList).toFileSystem ∧
      Tree.parse (Snapshot.write {} "K" helpedCommented.toUTF8.toList).toFileSystem
          { root := "", file := "K" } =
        Tree.parse (Snapshot.write {} "K" helped.toUTF8.toList).toFileSystem
          { root := "", file := "K" } := by
  have hcommented : (Snapshot.write {} "K" helped.toUTF8.toList).toFileSystem.Commented
      (Snapshot.write {} "K" helpedCommented.toUTF8.toList).toFileSystem := by
    intro path
    have htext : Text.decodeUtf8 helped.toUTF8.toList = .whole helped.toList := by decide +kernel
    have htext' :
        Text.decodeUtf8 helpedCommented.toUTF8.toList = .whole helpedCommented.toList := by
      decide +kernel
    refine (Snapshot.look_write _ _ _ _ _).imp_right fun ⟨hold, hnew⟩ =>
      ⟨_, _, _, _, hold, htext, hnew, htext', ?_⟩
    have hlines : Line.ofText helpedCommented.toList =
        [⟨"config A".toList, 1⟩, ⟨" bool \"#\" # a".toList, 1⟩, ⟨" help\t# b".toList, 1⟩,
          ⟨"  text  # c".toList, 1⟩, ⟨"config B # \"d".toList, 1⟩] := by decide +kernel
    have hlines' : Line.ofText helped.toList =
        [⟨"config A".toList, 1⟩, ⟨" bool \"#\"".toList, 1⟩, ⟨" help".toList, 1⟩,
          ⟨"  text".toList, 1⟩, ⟨"config B".toList, 1⟩] := by decide +kernel
    rw [hlines, hlines']
    refine .cons (.inl rfl) <| .cons (.inr ?_) <| .cons (.inr ?_) <| .cons (.inr ?_) <|
      .cons (.inr ?_) .nil
    · exact ⟨" # a".toList, ⟨[' '], " a".toList, rfl, by decide, by decide⟩, rfl, rfl, rfl⟩
    · exact ⟨"\t# b".toList, ⟨['\t'], " b".toList, rfl, by decide, by decide⟩, rfl, rfl, rfl⟩
    · exact ⟨"  # c".toList, ⟨[' ', ' '], " c".toList, rfl, by decide, by decide⟩, rfl, rfl, rfl⟩
    · exact ⟨" # \"d".toList, ⟨[' '], " \"d".toList, rfl, by decide, by decide⟩, rfl, rfl, rfl⟩
  exact ⟨hcommented, Tree.parse_commented hcommented _⟩

/-- A line in front of a byte that begins no character. -/
def garbled (line : String) : Snapshot :=
  Snapshot.write {} "K" (line.toUTF8.toList ++ [0xFF, 0x0A])

/-- A file that is no text is another matter: a comment moves the place of the error. -/
theorem parse_ne_of_comment_before_garbled :
    Tree.parse (garbled "config A\n").toFileSystem { root := "", file := "K" } =
        .error (.undecodable ⟨0xFF, 9, 1, .start⟩) ∧
      Tree.parse (garbled "config A # c\n").toFileSystem { root := "", file := "K" } =
        .error (.undecodable ⟨0xFF, 13, 1, .start⟩) := by
  have hplain : Settings.faultAfter? (garbled "config A\n").toFileSystem { root := "", file := "K" }
      0 = some (.undecodable ⟨0xFF, 9, 1, .start⟩) := by decide +kernel
  have hcommented : Settings.faultAfter? (garbled "config A # c\n").toFileSystem
      { root := "", file := "K" } 0 = some (.undecodable ⟨0xFF, 13, 1, .start⟩) := by
    decide +kernel
  exact ⟨Tree.parse_of_faultAfter? hplain, Tree.parse_of_faultAfter? hcommented⟩

end Kconfig
