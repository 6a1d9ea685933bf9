import Kconfig.Proofs.Alongside
import Kconfig.Proofs.Positions

/-!
# What a help directive takes from the file

The lines after a help directive are passed over up to the first one that is not blank. If it has an
indentation, it begins the help text, which goes on as long as lines are blank or have no less
indentation. All this is about raw lines, with tabs expanded. The line after the text is the next
one to be tokenised, in its raw form and with its own number.
-/

namespace Kconfig

namespace Line

/-- The raw form of a line with tabs expanded. -/
def expanded (line : Line) : List Char :=
  Text.expandTabs (raw line.text)

def isBlank (line : Line) : Bool :=
  Text.isBlankText (raw line.text)

def indent (line : Line) : Nat :=
  Text.indentation line.expanded

/-- The text that lines make up if so many columns of their indentation are taken off. -/
def helpText (indent : Nat) (lines : List Line) : List Char :=
  ['\n'].intercalate ((lines.rdropWhile isBlank).map fun line =>
    if line.isBlank then [] else line.expanded.drop indent) ++ ['\n']

end Line

/-- What a help directive takes from lines: those that it passes over, those that are left, and the
help text if there is one. -/
inductive Extracts : List Line → List Line → List Line → Option (List Char) → Prop where
  | blank {lines : List Line} (hlines : ∀ line ∈ lines, line.isBlank = true) :
    Extracts lines lines [] none
  | unindented {blanks later : List Line} {line : Line}
    (hblanks : ∀ line ∈ blanks, line.isBlank = true) (hline : line.isBlank = false)
    (hindent : line.indent = 0) : Extracts (blanks ++ line :: later) blanks (line :: later) none
  | text {blanks block later : List Line} {line : Line}
    (hblanks : ∀ line ∈ blanks, line.isBlank = true) (hline : line.isBlank = false)
    (hindent : line.indent ≠ 0)
    (hblock : ∀ other ∈ block, other.isBlank = true ∨ line.indent ≤ other.indent)
    (hlater : ∀ other ∈ later.head?, other.isBlank = false ∧ other.indent < line.indent) :
    Extracts (blanks ++ line :: (block ++ later)) (blanks ++ line :: block) later
      (some (Line.helpText line.indent (line :: block)))

lemma exists_cut {α : Type} (p : α → Bool) (as : List α) :
    ∃ front rest, as = front ++ rest ∧ (∀ a ∈ front, p a = true) ∧
      ∀ a ∈ rest.head?, p a = false := by
  refine ⟨as.takeWhile p, as.dropWhile p, List.takeWhile_append_dropWhile.symm,
    fun a ha => List.mem_takeWhile_imp ha, fun a ha => ?_⟩
  have hnot := List.head?_dropWhile_not p as
  rw [Option.mem_def.1 ha] at hnot
  simpa using hnot

lemma exists_extracts (lines : List Line) :
    ∃ passed later help, Extracts lines passed later help := by
  obtain ⟨blanks, rest, rfl, hblanks, hrest⟩ := exists_cut Line.isBlank lines
  cases rest with
  | nil =>
    rw [List.append_nil]
    exact ⟨_, _, _, .blank hblanks⟩
  | cons line rest =>
    by_cases hindent : line.indent = 0
    · exact ⟨_, _, _, .unindented hblanks (hrest line rfl) hindent⟩
    · obtain ⟨block, later, rfl, hblock, hlater⟩ :=
        exists_cut (fun other => other.isBlank || decide (line.indent ≤ other.indent)) rest
      refine ⟨_, _, _, .text hblanks (hrest line rfl) hindent ?_ ?_⟩
      · simpa using hblock
      · simpa using hlater

lemma flatMap_concat {α : Type} (sep : α) {parts : List (List α)} (h : parts ≠ []) :
    parts.flatMap (· ++ [sep]) = [sep].intercalate parts ++ [sep] := by
  induction parts with
  | nil => exact absurd rfl h
  | cons part parts ih =>
    cases parts with
    | nil => simp
    | cons part' parts =>
      rw [List.flatMap_cons, ih (List.cons_ne_nil _ _), List.intercalate_cons_cons]
      simp

lemma Directive.helpText_eq {indent : Nat} {line : Line} {block : List Line}
    (hline : line.isBlank = false) :
    helpText indent ((line :: block).map (Line.raw ·.text)) =
      .ofList (Line.helpText indent (line :: block)) := by
  have hkept : ((line :: block).map (Line.raw ·.text)).rdropWhile Text.isBlankText =
      ((line :: block).rdropWhile Line.isBlank).map (Line.raw ·.text) := by
    rw [List.rdropWhile, List.rdropWhile, ← List.map_reverse, List.dropWhile_map,
      ← List.map_reverse]
    rfl
  have hne : (line :: block).rdropWhile Line.isBlank ≠ [] := by
    intro hnil
    have hall := List.rdropWhile_eq_nil_iff.1 hnil line List.mem_cons_self
    rw [hline] at hall
    cases hall
  change String.ofList ((((line :: block).map (Line.raw ·.text)).rdropWhile _).flatMap _) = _
  rw [hkept, Line.helpText, ← flatMap_concat '\n' (by simpa using hne),
    List.flatMap_map, List.flatMap_map]
  rfl

namespace LineReader

variable {before after : List Line} {r : LineReader}

lemma Between.map_raw (h : r.Between before after) :
    r.texts.map Line.raw = after.map (Line.raw ·.text) := by
  have hraw : ∀ {lines lines' : List Line}, List.Forall₂ Line.ReadAs lines lines' →
      lines'.map (Line.raw ·.text) = lines.map (Line.raw ·.text) := by
    intro lines lines' hlines
    induction hlines with
    | nil => rfl
    | cons hline hlines ih => rw [List.map_cons, List.map_cons, hline.raw_eq, ih]
  rw [texts, List.map_map]
  exact hraw h.upcoming

end LineReader

namespace TokenStream

variable {before after passed later : List Line} {s s' : TokenStream} {p : List Char → Bool}

/-- The stream is between the lines, and goes on with the raw form of the first one to come. -/
structure Resumes (before later : List Line) (s : TokenStream) : Prop where
  atLine : s.AtLine
  between : s.lines.Between before later
  first : s.lines.texts.head? = later.head?.map (Line.raw ·.text)

lemma takeLines_between (hs : s.AtLine) (h : s.lines.Between before (passed ++ later))
    (hpassed : ∀ line ∈ passed, p (Line.raw line.text) = true)
    (hlater : ∀ line ∈ later.head?, p (Line.raw line.text) = false)
    (hdamage : later = [] → s.lines.damage = none) :
    ∃ s', s.takeLines p =
        .ok (passed.map (Line.raw ·.text), later.head?.map (Line.raw ·.text), s') ∧
      s'.Resumes (before ++ passed) later ∧ s'.lines.damage = s.lines.damage := by
  have hraw := h.map_raw
  rw [List.map_append, List.map_eq_append_iff] at hraw
  obtain ⟨front, rest, htexts, hfront, hrest⟩ := hraw
  have hhead : rest.head?.map Line.raw = later.head?.map (Line.raw ·.text) := by
    rw [← List.head?_map, hrest, List.head?_map]
  have hfront' : ∀ l ∈ front, p (Line.raw l) = true := by
    intro l hl
    have hmem := List.mem_map_of_mem (f := Line.raw) hl
    rw [hfront] at hmem
    obtain ⟨line, hline, heq⟩ := List.mem_map.1 hmem
    exact heq ▸ hpassed line hline
  have hrest' : ∀ l ∈ rest.head?, p (Line.raw l) = false := by
    intro l hl
    rw [Option.mem_def.1 hl] at hhead
    obtain ⟨line, hline, heq⟩ := Option.map_eq_some_iff.1 hhead.symm
    exact heq ▸ hlater line hline
  have hnil : rest = [] → s.lines.damage = none := by
    rintro rfl
    exact hdamage (List.map_eq_nil_iff.1 hrest.symm)
  obtain ⟨s', htake, hline, hview⟩ := takeLines_append hs htexts hfront' hrest' hnil
  have htexts' : s'.lines.texts = putBackRaw rest := congrArg View.texts hview
  -- The position is the one behind the lines that have been taken, by the number of those left.
  obtain ⟨before', after', hlines, hseated⟩ := (Seated.of_nil h hs.upcoming).takeLines htake
  have hlength : later.length = after'.length := by
    have hrestLength := congrArg List.length hrest
    rw [List.length_map, List.length_map] at hrestLength
    have hput : (putBackRaw rest).length = rest.length := by cases rest <;> rfl
    rw [← hseated.reader.pending, LineReader.pending_eq, ← hrestLength, ← hput, ← htexts',
      LineReader.texts, List.length_map]
  rw [← List.append_assoc] at hlines
  obtain ⟨rfl, rfl⟩ := List.append_inj' hlines hlength
  rw [hfront, hhead] at htake
  refine ⟨s', htake, ⟨hline, hseated.reader, ?_⟩, congrArg View.damage hview⟩
  rw [htexts', ← hhead]
  cases rest <;> rfl

/-- The tokens that come first between lines: those of the first line in its raw form, with the
number of the line, or the end of the file. -/
def tokensAt (before later : List Line) (linenr : Nat) : List Token :=
  match later with
  | [] => [⟨.fileEnd, linenr⟩]
  | line :: _ => Token.ofLine (Line.totalHeight before + 1) (Line.raw line.text)

lemma Resumes.load (h : s.Resumes before later) (hdamage : later = [] → s.lines.damage = none) :
    ∃ t, s.load = .ok t ∧ t.upcoming = tokensAt before later s.linenr ∧
      t.lines.Between (before ++ later.take 1) (later.drop 1) := by
  have hnil := h.atLine.upcoming
  have hnot : ¬s.upcoming ≠ [] := not_not.2 hnil
  cases later with
  | nil =>
    have htexts : s.lines.texts = [] := List.head?_eq_none_iff.1 h.first
    have hnext := LineReader.next_of_texts_nil htexts
    rw [hdamage rfl] at hnext
    refine ⟨{ s with rest := [⟨.fileEnd, s.linenr⟩] }, ?_, ?_, ?_⟩
    · rw [TokenStream.load, if_neg hnot, hnext]
    · exact upcoming_refill hnil _ s.lines s.linenr
    · simpa using h.between
  | cons line later =>
    obtain ⟨lines, htexts⟩ := List.head?_eq_some_iff.1 h.first
    obtain ⟨r, hnext, -⟩ := LineReader.next_of_texts_cons htexts
    obtain ⟨line', later', hcons, hbetween, -, hstart, -⟩ := h.between.next hnext
    cases hcons
    refine ⟨_, h.atLine.load hnext, ?_, hbetween⟩
    rw [holding, upcoming_refill hnil, hstart, tokensAt]

lemma load_of_getLast? {token : Token} (hline : s.upcoming.getLast? = some token) :
    s.load = .ok s :=
  if_pos (List.getLast?_isSome.1 (Option.isSome_of_eq_some hline))

lemma discardLine_of_lineEnd {n : Nat} (hline : s.upcoming.getLast? = some ⟨.lineEnd, n⟩)
    (hdigits : s.upcoming.findSome? (·.lexeme.excessDigits?) = none) :
    ∃ t, s.discardLine = .ok t ∧ t.AtLine ∧ t.lines = s.lines := by
  refine ⟨s.stopAt { token := ⟨.lineEnd, n⟩, rest := [], kept := false }, ?_, ⟨rfl, rfl⟩, rfl⟩
  rw [discardLine, load_of_getLast? hline]
  dsimp only
  rw [hdigits, hline]
  rfl

lemma discardLine_of_digits {token : Token} {digits : Nat}
    (hline : s.upcoming.getLast? = some token)
    (hdigits : s.upcoming.findSome? (·.lexeme.excessDigits?) = some digits) :
    s.discardLine = .error (.tooManyDigits digits) := by
  rw [discardLine, load_of_getLast? hline]
  dsimp only
  rw [hdigits]

theorem readHelp_of_extracts {help : Option (List Char)} {n : Nat}
    (hline : s.upcoming.getLast? = some ⟨.lineEnd, n⟩)
    (hdigits : s.upcoming.findSome? (·.lexeme.excessDigits?) = none)
    (h : s.lines.Between before after) (hextracts : Extracts after passed later help)
    (hdamage : later = [] → s.lines.damage = none) :
    ∃ s', Directive.readHelp s = .ok (help.map .ofList, s') ∧
      s'.Resumes (before ++ passed) later ∧ s'.lines.damage = s.lines.damage := by
  obtain ⟨t, hdiscard, ht, hlines⟩ := discardLine_of_lineEnd hline hdigits
  rw [← hlines] at h hdamage ⊢
  cases hextracts with
  | blank hblank =>
    rw [← List.append_nil after] at h
    obtain ⟨s', htake, hresumes, hsame⟩ :=
      takeLines_between ht h hblank (by simp) hdamage
    refine ⟨s', ?_, hresumes, hsame⟩
    simp only [Directive.readHelp, hdiscard, bind, Except.bind, htake]
    rfl
  | @unindented blanks rest line hblanks hblank hindent =>
    obtain ⟨s', htake, hresumes, hsame⟩ := takeLines_between ht h hblanks
      (fun other hmem => by cases hmem; exact hblank) hdamage
    refine ⟨s', ?_, hresumes, hsame⟩
    have hcolumn : Directive.column (Line.raw line.text) = 0 := hindent
    simp only [Directive.readHelp, hdiscard, bind, Except.bind, htake]
    exact if_pos hcolumn
  | @text blanks block later line hblanks hblank hindent hblock hlater =>
    obtain ⟨s₁, htake, hresumes, hsame⟩ := takeLines_between ht h hblanks
      (fun other hmem => by cases hmem; exact hblank) (by simp)
    have hbetween : s₁.lines.Between (before ++ blanks) ((line :: block) ++ later) :=
      hresumes.between
    -- The line that is read again belongs to the text like those after it.
    have hblock' : ∀ other ∈ line :: block, (Text.isBlankText (Line.raw other.text) ||
        decide (Directive.column (Line.raw line.text) ≤
          Directive.column (Line.raw other.text))) = true := by
      refine List.forall_mem_cons.2 ⟨by simp, fun other hmem => ?_⟩
      rw [Bool.or_eq_true, decide_eq_true_iff]
      exact hblock other hmem
    have hlater' : ∀ other ∈ later.head?, (Text.isBlankText (Line.raw other.text) ||
        decide (Directive.column (Line.raw line.text) ≤
          Directive.column (Line.raw other.text))) = false := by
      intro other hmem
      obtain ⟨hother, hlt⟩ := hlater other hmem
      rw [Bool.or_eq_false_iff, decide_eq_false_iff_not]
      exact ⟨hother, Nat.not_le.2 hlt⟩
    obtain ⟨s', htake', hresumes', hsame'⟩ := takeLines_between
      (p := fun raw => Text.isBlankText raw ||
        decide (Directive.column (Line.raw line.text) ≤ Directive.column raw))
      hresumes.atLine hbetween hblock' hlater' fun hnil => hsame.trans (hdamage hnil)
    rw [List.append_assoc] at hresumes'
    refine ⟨s', ?_, hresumes', hsame'.trans hsame⟩
    have hcolumn : Directive.column (Line.raw line.text) ≠ 0 := hindent
    have htext : Directive.helpText (Directive.column (Line.raw line.text))
        ((line :: block).map (Line.raw ·.text)) =
          .ofList (Line.helpText line.indent (line :: block)) := Directive.helpText_eq hblank
    simp only [Directive.readHelp, hdiscard, bind, Except.bind, htake]
    dsimp only [List.head?_cons, Option.map_some]
    rw [if_neg hcolumn, htake']
    dsimp only
    rw [htext]
    rfl

end TokenStream

lemma isFor_help {e : Entry} {value : Value} (h : e.value? = some value) :
    DirectiveKind.help.isFor e.kind = true := by
  cases e with
  | config c =>
    obtain ⟨head, isMenu⟩ := c
    cases isMenu <;> rfl
  | choice c => rfl
  | comment c => cases h
  | menu head visibleIf children => cases h

lemma Context.location_of_current {ctx : Context} {s : TokenStream} (h : ctx.current = .ok s) :
    ctx.location = .ok s.location := by
  rw [location, h]
  rfl

lemma readDirective_of_readHelp {ctx : Context} {s s' : TokenStream} {e : Entry} {value : Value}
    {text : Option String} (keyword : String) (hcurrent : ctx.current = .ok s)
    (hvalue : e.value? = some value) (hread : Directive.readHelp s = .ok (text, s')) :
    ctx.readDirective .help keyword e =
      let applied := Directive.apply ctx.environment ⟨s.location, s.location⟩ [] (.help text) e
      .ok (applied.1, (ctx.setCurrent s').note applied.2) := by
  have hfor : ¬(!DirectiveKind.help.isFor e.kind) = true := by simp [isFor_help hvalue]
  rw [Context.readDirective, if_neg hfor]
  simp only [bind, Except.bind, Context.location_of_current hcurrent, hcurrent, hread]
  rfl

lemma readDirective_of_digits {ctx : Context} {s : TokenStream} {e : Entry} {value : Value}
    {digits : Nat} (keyword : String) (hcurrent : ctx.current = .ok s)
    (hvalue : e.value? = some value) (hdiscard : s.discardLine = .error (.tooManyDigits digits)) :
    ctx.readDirective .help keyword e = .error (.tooManyDigits digits) := by
  have hfor : ¬(!DirectiveKind.help.isFor e.kind) = true := by simp [isFor_help hvalue]
  rw [Context.readDirective, if_neg hfor]
  simp only [bind, Except.bind, Context.location_of_current hcurrent, hcurrent, Directive.readHelp,
    hdiscard]

/-- A help directive changes nothing but the help text of its entry. What is extracted from the
lines after it is the help text; if there is none, the entry stays as it is, with one finding, and
if the entry has one already, that is the only finding. Reading goes on with the first line that is
left, or at the end of the file. Only a number behind the keyword that is too long stops it. -/
theorem readDirective_help {ctx : Context} {s : TokenStream} {e : Entry} {value : Value}
    {before after : List Line} {n : Nat} (keyword : String) (hcurrent : ctx.current = .ok s)
    (hvalue : e.value? = some value) (hline : s.upcoming.getLast? = some ⟨.lineEnd, n⟩)
    (hbetween : s.lines.Between before after) :
    (∃ passed later help, Extracts after passed later help) ∧
      (∀ digits, s.upcoming.findSome? (·.lexeme.excessDigits?) = some digits →
        ctx.readDirective .help keyword e = .error (.tooManyDigits digits)) ∧
      (s.upcoming.findSome? (·.lexeme.excessDigits?) = none →
        ∀ passed later help, Extracts after passed later help →
          (later = [] → s.lines.damage = none) → ∃ s' t,
            (help = none → ctx.readDirective .help keyword e =
              .ok (e, (ctx.setCurrent s').note [.warning s.location (.helpEmpty e.title)])) ∧
            (∀ text, help = some text → ctx.readDirective .help keyword e =
              .ok (e.setValue { value with help := some (.ofList text) },
                (ctx.setCurrent s').note
                  (if value.help.isSome then [.warning s.location (.helpAgain e.title)] else []))) ∧
            s'.load = .ok t ∧
              t.upcoming = TokenStream.tokensAt (before ++ passed) later s'.linenr ∧
              t.lines.Between (before ++ passed ++ later.take 1) (later.drop 1)) := by
  refine ⟨exists_extracts after, fun digits hdigits => readDirective_of_digits keyword hcurrent
    hvalue (TokenStream.discardLine_of_digits hline hdigits), ?_⟩
  intro hdigits passed later help hextracts hdamage
  obtain ⟨s', hread, hresumes, hsame⟩ :=
    TokenStream.readHelp_of_extracts hline hdigits hbetween hextracts hdamage
  obtain ⟨t, hload, hupcoming, hbetween'⟩ := hresumes.load fun hnil => hsame.trans (hdamage hnil)
  refine ⟨s', t, ?_, ?_, hload, hupcoming, hbetween'⟩
  · rintro rfl
    exact readDirective_of_readHelp keyword hcurrent hvalue hread
  · rintro text rfl
    rw [readDirective_of_readHelp keyword hcurrent hvalue hread]
    simp [Directive.apply, Directive.modifyValue, Directive.slipFindings, hvalue]

/-- A file after its first two lines, with the second being read. -/
def inHelpLine : TokenStream where
  lines :=
    { file := "K"
      rest := [⟨"  \t".toList, 1⟩, ⟨"    one  # first".toList, 1⟩, ⟨"# note".toList, 1⟩,
        ⟨"\ttwo".toList, 1⟩, ⟨[], 1⟩, ⟨" config B  # next".toList, 1⟩]
      linenr := 2
      lineStart := 2
      lastHeight := 1 }
  rest := [⟨.lineEnd, 2⟩]
  linenr := 2

/-- A tab counts for eight columns, a comment alone in its line for a blank line, and blank lines at
the end are left out. -/
theorem readDirective_help_indented : ∃ s' t,
    { root := ".", files := [inHelpLine] : Context }.readDirective .help "help"
        (.config { head := { location := ⟨"K", 1⟩ } }) =
      .ok (.config
          { head := { location := ⟨"K", 1⟩ }, value := { help := some "one\n\n    two\n" } },
        { root := ".", files := [s'] }) ∧
      s'.load = .ok t ∧ t.upcoming.head? = some ⟨.word "config", 8⟩ := by
  have hbetween : inHelpLine.lines.Between [⟨"config A".toList, 1⟩, ⟨"  help".toList, 1⟩]
      inHelpLine.lines.rest := by
    refine ⟨List.forall₂_same.2 fun _ _ => ⟨rfl, .inl rfl⟩, rfl, ?_⟩
    rintro - line ⟨⟩
    rfl
  have hextracts : Extracts inHelpLine.lines.rest (inHelpLine.lines.rest.take 5)
      (inHelpLine.lines.rest.drop 5) (some "one\n\n    two\n".toList) := by
    have hblanks : ∀ line ∈ inHelpLine.lines.rest.take 1, line.isBlank = true := by decide
    have hblock : ∀ other ∈ (inHelpLine.lines.rest.drop 2).take 3,
        other.isBlank = true ∨ 4 ≤ other.indent := by decide
    have hlater : ∀ other ∈ (inHelpLine.lines.rest.drop 5).head?,
        other.isBlank = false ∧ other.indent < 4 := by
      rintro other ⟨⟩
      decide
    have hline : Line.isBlank ⟨"    one  # first".toList, 1⟩ = false := rfl
    exact .text hblanks hline (by decide) hblock hlater
  have hcurrent : Context.current { root := ".", files := [inHelpLine] } = .ok inHelpLine := rfl
  have hvalue : (Entry.config { head := { location := ⟨"K", 1⟩ } }).value? = some {} := rfl
  obtain ⟨s', t, -, hread, hload, hupcoming, -⟩ :=
    (readDirective_help "help" hcurrent hvalue rfl hbetween).2.2 rfl _ _ _ hextracts
      fun hnil => nomatch hnil
  refine ⟨s', t, hread _ rfl, hload, ?_⟩
  rw [hupcoming]
  change (Token.ofLine 8 (Line.raw " config B  # next".toList)).head? = _
  decide +kernel

end Kconfig
