import Kconfig.Context.Reads
import Kconfig.Proofs.Scanning
import Kconfig.TokenStream.Calls
import Mathlib.Data.List.DropRight

/-!
# Raw lines put back

Help texts are read in raw lines, and the line that ends one is put back in its raw form to be
tokenised. Its tokens are those of the line itself if and only if the raw form has lost nothing but
a comment and separators, all outside of quoted texts. The raw form is cut at the first `#`, also at
one in a quoted text, and it has no blanks of any sort at its end, also none that belong to a quoted
text or are no separators.
-/

namespace Kconfig

open Lexeme (openQuote?)

namespace Line

/-- What the raw form of a line lacks are separators and a comment, outside of quoted texts. -/
def Plain (text : List Char) : Prop :=
  raw text = text ∨ (openQuote? (raw text) = none ∧
    ∀ c ∈ (beforeComment text).drop (raw text).length, isSeparator c = true)

instance (text : List Char) : Decidable (Plain text) :=
  inferInstanceAs (Decidable (_ ∨ _))

lemma raw_append (text : List Char) :
    ∃ blanks comment, text = raw text ++ (blanks ++ comment) ∧
      beforeComment text = raw text ++ blanks ∧ (∀ c ∈ blanks, Text.isBlank c = true) ∧
        (∀ c ∈ comment.head?, c = '#') ∧ '#' ∉ raw text := by
  have hbefore : beforeComment text =
      raw text ++ ((beforeComment text).reverse.takeWhile Text.isBlank).reverse := by
    rw [raw, Text.trimRight, ← List.reverse_append, List.takeWhile_append_dropWhile,
      List.reverse_reverse]
  refine ⟨_, text.dropWhile (· ≠ '#'), ?_, hbefore, ?_, ?_, ?_⟩
  · rw [← List.append_assoc, ← hbefore, beforeComment, List.takeWhile_append_dropWhile]
  · intro c hc
    exact List.mem_takeWhile_imp (List.mem_reverse.1 hc)
  · intro c hc
    have hnot := List.head?_dropWhile_not (fun c => decide (c ≠ '#')) text
    rw [Option.mem_def.1 hc] at hnot
    simpa using hnot
  · intro hmem
    have hbefore' : '#' ∈ beforeComment text := by
      rw [hbefore]
      exact List.mem_append_left _ hmem
    have hne := List.mem_takeWhile_imp hbefore'
    simp at hne

lemma endsWord_of_blank {c : Char} (h : Text.isBlank c = true) :
    isWordLetter c = false ∧ isQuote c = false ∧ c ≠ '#' := by
  simp only [Text.isBlank, Bool.or_eq_true, Bool.and_eq_true, decide_eq_true_eq, beq_iff_eq] at h
  refine ⟨?_, ?_, ?_⟩
  · rw [← Bool.not_eq_true, isWordLetter_iff]
    omega
  · rw [← Bool.not_eq_true, isQuote_iff]
    omega
  · rintro rfl
    revert h
    decide

lemma raw_raw (line : List Char) : raw (raw line) = raw line := by
  obtain ⟨blanks, comment, -, -, -, -, hraw⟩ := raw_append line
  have hbefore : beforeComment (raw line) = raw line := by
    refine List.takeWhile_eq_self_iff.2 ?_
    intro c hc
    refine decide_eq_true ?_
    rintro rfl
    exact hraw hc
  rw [raw, hbefore, raw, Text.trimRight, Text.trimRight, List.reverse_reverse,
    List.dropWhile_idempotent]

lemma scan_blanks {blanks comment : List Char} (hblanks : ∀ c ∈ blanks, Text.isBlank c = true)
    (hcomment : ∀ c ∈ comment.head?, c = '#') :
    Lexeme.scan (blanks ++ comment) = [.lineEnd] ↔ ∀ c ∈ blanks, isSeparator c = true := by
  induction blanks with
  | nil =>
    cases comment with
    | nil => simp
    | cons c comment =>
      rw [hcomment c rfl, List.nil_append, Lexeme.scan_comment]
      simp
  | cons c blanks ih =>
    obtain ⟨hc, hblanks⟩ := List.forall_mem_cons.1 hblanks
    rw [List.cons_append, List.forall_mem_cons]
    by_cases hsep : isSeparator c = true
    · rw [Lexeme.scan_separator hsep, ih hblanks]
      simp [hsep]
    · obtain ⟨hletter, hquote, hhash⟩ := endsWord_of_blank hc
      have hsingle : Lexeme.isSingle c = true := by
        simp [Lexeme.isSingle, hsep, hquote, hletter, hhash]
      rw [Lexeme.scan_single hsingle]
      simp [hsep]

lemma head_after_raw {blanks comment : List Char} (hblanks : ∀ c ∈ blanks, Text.isBlank c = true)
    (hcomment : ∀ c ∈ comment.head?, c = '#') :
    ∀ c ∈ (blanks ++ comment).head?, isWordLetter c = false ∧ isQuote c = false := by
  intro c hc
  cases blanks with
  | nil =>
    rw [hcomment c hc]
    decide
  | cons b blanks =>
    cases hc
    have hb := endsWord_of_blank (hblanks _ List.mem_cons_self)
    exact ⟨hb.1, hb.2.1⟩

lemma plain_of_map_scan {α : Type} {f : Lexeme → α} {text : List Char}
    (hf : ∀ lexeme quote inside,
      f lexeme = f (.quoted quote inside) → lexeme = .quoted quote inside)
    (h : (Lexeme.scan (raw text)).map f = (Lexeme.scan text).map f) : Plain text := by
  obtain ⟨blanks, comment, htext, hbefore, hblanks, hcomment, hraw⟩ := raw_append text
  have hdrop : (beforeComment text).drop (raw text).length = blanks := by
    rw [hbefore, List.drop_left]
  rw [Plain, hdrop]
  have hhead := head_after_raw hblanks hcomment
  cases hquote : openQuote? (raw text) with
  | none =>
    refine .inr ⟨rfl, (scan_blanks hblanks hcomment).1 ?_⟩
    have hscan : Lexeme.scan text =
        (Lexeme.scan (raw text)).dropLast ++ Lexeme.scan (blanks ++ comment) := by
      rw [← Lexeme.scan_append hraw hquote fun c hc => (hhead c hc).1, ← htext]
    obtain ⟨front, hfront, -⟩ := Lexeme.scan_eq_append (raw text)
    rw [hscan, hfront, List.dropLast_concat, List.map_append, List.map_append,
      List.append_right_inj] at h
    -- The end of the line is the last lexeme, and so it is the only one.
    obtain ⟨more, hmore, -⟩ := Lexeme.scan_eq_append (blanks ++ comment)
    have hlength := congrArg List.length h
    rw [hmore, List.length_map, List.length_map, List.length_append] at hlength
    have hnil : more = [] := List.length_eq_zero_iff.1 (Nat.add_right_cancel hlength).symm
    rw [hmore, hnil]
    rfl
  | some q =>
    obtain ⟨front, inside, hscan⟩ := Lexeme.unclosed_of_openQuote? hraw hquote
    have hshort := hscan []
    have hlong := hscan (blanks ++ comment)
    rw [List.append_nil] at hshort
    rw [← htext] at hlong
    rw [hshort, hlong, List.map_append, List.map_append, List.append_right_inj] at h
    -- The quoted text at the end would be longer, and so nothing is left out.
    have hinside := congrArg String.toList (Lexeme.quoted.inj (hf _ _ _ (List.cons.inj h).1)).2
    rw [String.toList_ofList, String.toList_ofList, List.append_right_inj, List.takeWhile_nil]
      at hinside
    have hrest : blanks ++ comment = [] := by
      cases hrest : blanks ++ comment with
      | nil => rfl
      | cons c rest =>
        have hc : c ≠ q := by
          rintro rfl
          have hnot := (hhead c (by rw [hrest]; rfl)).2
          rw [Lexeme.isQuote_of_openQuote? hquote] at hnot
          cases hnot
        simp [hrest, hc] at hinside
    rw [hrest, List.append_nil] at htext
    exact .inl htext.symm

/-- The raw form of a line has the lexemes of the line if and only if it lacks nothing else than
separators and a comment. -/
theorem scan_raw_eq_iff (text : List Char) :
    Lexeme.scan (raw text) = Lexeme.scan text ↔ Plain text := by
  constructor
  · intro h
    exact plain_of_map_scan (f := id) (fun _ _ _ => id) (by rw [h])
  · rintro (heq | ⟨hquote, hlacks⟩)
    · rw [heq]
    · obtain ⟨blanks, comment, htext, hbefore, hblanks, hcomment, hraw⟩ := raw_append text
      rw [hbefore, List.drop_left] at hlacks
      obtain ⟨front, hfront, -⟩ := Lexeme.scan_eq_append (raw text)
      have hhead := head_after_raw hblanks hcomment
      have hscan := Lexeme.scan_append hraw hquote fun c hc => (hhead c hc).1
      rw [← htext, (scan_blanks hblanks hcomment).2 hlacks, hfront, List.dropLast_concat] at hscan
      rw [hscan, hfront]

end Line

namespace Token

/-- What is delivered for a token. -/
def outcome (token : Token) : Except Fault Token :=
  match token.lexeme.excessDigits? with
  | some digits => .error (.tooManyDigits digits)
  | none => .ok token

lemma outcome_eq_ok {token token' : Token} (hdigits : token'.lexeme.excessDigits? = none) :
    token.outcome = token'.outcome ↔ token = token' := by
  constructor
  · intro h
    unfold outcome at h
    rw [hdigits] at h
    split at h
    · cases h
    · exact Except.ok.inj h
  · rintro rfl
    rfl

end Token

lemma Token.map_lexeme_ofLine (linenr : Nat) (line : List Char) :
    (Token.ofLine linenr line).map Token.lexeme = Lexeme.scan line := by
  rw [Token.ofLine, List.map_map]
  exact List.map_id _

namespace LineReader

variable {r r' : LineReader} {line : List Char}

lemma unread_next (h : r.next = .ok (some line, r')) : r'.unread = none := by
  unfold next at h
  split at h
  · cases h
    rfl
  · rename_i hunread
    split at h
    · cases h
      exact hunread
    · split at h <;> cases h

lemma linenr_next (h : r.next = .ok (some line, r')) :
    r'.linenr - r'.lastHeight + 1 = r'.lineStart ∧ r'.lastHeight ≤ r'.linenr := by
  unfold next at h
  split at h
  · cases h
    exact ⟨by simp [take], by simp [take]⟩
  · split at h
    · cases h
      exact ⟨by simp [take], by simp [take]⟩
    · split at h <;> cases h

lemma next_putBack (h : r.next = .ok (some line, r')) (line' : List Char) :
    ∃ r'', r'.putBack line' = .ok r'' ∧ r''.next = .ok (some line', r') := by
  obtain ⟨hstart, hheight⟩ := linenr_next h
  have hunread := unread_next h
  refine ⟨{ r' with
    linenr := r'.linenr - r'.lastHeight
    unread := some ⟨line', r'.lastHeight⟩ }, ?_, ?_⟩
  · rw [putBack, hunread]
  · unfold next take
    dsimp only
    rw [hstart, Nat.sub_add_cancel hheight, ← hunread]

end LineReader

namespace TokenStream

variable {s s' : TokenStream}

/-- What the next `n` calls for a token give. -/
def deliveries : Nat → TokenStream → List (Except Fault Token)
  | 0, _ => []
  | n + 1, s => (nextCall.perform s).1 :: deliveries n (nextCall.perform s).2

/-- The stream after a line has been loaded. -/
def holding (s : TokenStream) (lines : LineReader) (line : List Char) : TokenStream :=
  { s with lines, linenr := lines.lineStart, rest := Token.ofLine lines.lineStart line }

/-- The stream between other lines. -/
def movedTo (s : TokenStream) (lines : LineReader) (linenr : Nat) : TokenStream :=
  { s with lines, linenr }

/-- The stream is between lines and no token is pending. -/
structure AtLine (s : TokenStream) : Prop where
  pushedBack : s.pushedBack = false
  rest : s.rest = []

lemma AtLine.upcoming (hs : s.AtLine) : s.upcoming = [] := by
  rw [TokenStream.upcoming, hs.pushedBack, hs.rest]
  rfl

lemma betweenLines_eq_ok {request : String} : s.betweenLines request = .ok () ↔ s.AtLine := by
  unfold betweenLines
  split
  · rename_i h
    refine ⟨fun hok => (nomatch hok), ?_⟩
    rintro ⟨hpushed, hrest⟩
    rcases h with h | h
    · rw [hpushed] at h
      cases h
    · exact absurd hrest h
  · rename_i h
    simp only [not_or, Bool.not_eq_true, ne_eq, Decidable.not_not] at h
    exact ⟨fun _ => ⟨h.1, h.2⟩, fun _ => rfl⟩

variable {line : List Char} {lines : LineReader}

namespace AtLine

lemma load (h : s.AtLine) (hnext : s.lines.next = .ok (some line, lines)) :
    s.load = .ok (s.holding lines line) := by
  rw [TokenStream.load, if_neg (by simp [h.upcoming]), hnext]
  rfl

lemma readLine (h : s.AtLine) (hnext : s.lines.next = .ok (some line, lines)) :
    s.readLine = .ok (some (Line.raw line), s.movedTo lines lines.lineStart) := by
  have hend : ¬s.atKeptEnd = true := by
    rw [atKeptEnd, h.pushedBack]
    exact Bool.false_ne_true
  rw [TokenStream.readLine, if_neg hend, betweenLines_eq_ok.2 h, LineReader.nextRaw, hnext]
  rfl

end AtLine

lemma deliveries_of_load (h : s.load = .ok s') (n : Nat) : s.deliveries n = s'.deliveries n := by
  have hload : s'.load = .ok s' := by rw [load, if_pos (load_after h).2]
  cases n with
  | zero => rfl
  | succ n =>
    have hnext : nextCall.perform s = nextCall.perform s' := by
      rw [perform_nextCall, perform_nextCall, h, hload]
    rw [deliveries, deliveries, hnext]

lemma nextCall_of_upcoming {token : Token} {rest : List Token} (h : s.upcoming = token :: rest) :
    ∃ s', nextCall.perform s = (token.outcome, s') ∧ s'.pushedBack = false ∧ s'.rest = rest := by
  have hload : s.load = .ok s := by rw [load, if_pos (by simp [h])]
  rw [perform_nextCall, hload]
  dsimp only
  rw [h, Token.outcome]
  dsimp only
  cases token.lexeme.excessDigits? with
  | some digits => exact ⟨_, rfl, rfl, rfl⟩
  | none => exact ⟨_, rfl, rfl, rfl⟩

lemma deliveries_of_le {n : Nat} (hn : n ≤ s.upcoming.length) :
    s.deliveries n = (s.upcoming.take n).map Token.outcome := by
  induction n generalizing s with
  | zero => rfl
  | succ n ih =>
    cases hupcoming : s.upcoming with
    | nil => simp [hupcoming] at hn
    | cons token rest =>
      obtain ⟨t, hnext, hpushed, hrest⟩ := nextCall_of_upcoming hupcoming
      have htrest : t.upcoming = rest := by
        rw [upcoming, hpushed, hrest]
        rfl
      rw [hupcoming, List.length_cons, ← htrest] at hn
      rw [deliveries, hnext, ih (Nat.le_of_succ_le_succ hn), htrest]
      rfl

lemma eq_of_take_eq {α : Type} {a : α} {as bs : List α} (hbs : a ∉ bs)
    (h : as ++ [a] <+: bs ++ [a]) : as ++ [a] = bs ++ [a] := by
  rcases List.prefix_concat_iff.1 h with h | h
  · exact h
  · exact absurd (h.subset (List.mem_append_right _ (List.mem_singleton_self a))) hbs

lemma deliveries_holding {n : Nat} (hpushed : s.pushedBack = false) (lines : LineReader)
    (line : List Char) (hn : n ≤ (Lexeme.scan line).length) :
    (s.holding lines line).deliveries n =
      ((Lexeme.scan line).map fun lexeme => Token.outcome ⟨lexeme, lines.lineStart⟩).take n := by
  have hupcoming : (s.holding lines line).upcoming = Token.ofLine lines.lineStart line := by
    rw [upcoming, holding, hpushed]
    rfl
  rw [deliveries_of_le (by simpa [hupcoming, Token.ofLine] using hn), hupcoming, Token.ofLine,
    List.map_take, List.map_map]
  rfl

lemma outcomes_of_deliveries (hpushed : s.pushedBack = false) (lines : LineReader)
    {line line' : List Char}
    (h : ∀ n, (s.holding lines line).deliveries n = (s.holding lines line').deliveries n) :
    (Lexeme.scan line).map (fun lexeme => Token.outcome ⟨lexeme, lines.lineStart⟩) =
      (Lexeme.scan line').map fun lexeme => Token.outcome ⟨lexeme, lines.lineStart⟩ := by
  obtain ⟨front, hfront, hend⟩ := Lexeme.scan_eq_append line
  obtain ⟨front', hfront', hend'⟩ := Lexeme.scan_eq_append line'
  have habsent : ∀ {front : List Lexeme}, (∀ lexeme ∈ front, lexeme.isEnd = false) →
      Token.outcome ⟨.lineEnd, lines.lineStart⟩ ∉
        front.map fun lexeme => Token.outcome ⟨lexeme, lines.lineStart⟩ := by
    intro front hend hmem
    obtain ⟨lexeme, hlexeme, heq⟩ := List.mem_map.1 hmem
    have hlineEnd : lexeme = .lineEnd := congrArg Token.lexeme ((Token.outcome_eq_ok rfl).1 heq)
    have hnot := hend lexeme hlexeme
    rw [hlineEnd] at hnot
    cases hnot
  have htake : ∀ n, n ≤ (Lexeme.scan line).length → n ≤ (Lexeme.scan line').length → _ :=
    fun n hn hn' => ((deliveries_holding hpushed lines line hn).symm.trans (h n)).trans
      (deliveries_holding hpushed lines line' hn')
  rw [hfront, hfront'] at htake ⊢
  rw [List.map_append, List.map_append] at htake ⊢
  rcases Nat.le_total (front ++ [Lexeme.lineEnd]).length (front' ++ [Lexeme.lineEnd]).length
    with hle | hle
  · refine eq_of_take_eq (habsent hend') ?_
    have hsame := htake _ (Nat.le_refl _) hle
    rw [← List.map_append, List.take_of_length_le (by rw [List.length_map]),
      List.map_append] at hsame
    exact hsame ▸ List.take_prefix _ _
  · refine (eq_of_take_eq (habsent hend) ?_).symm
    have hsame := (htake _ hle (Nat.le_refl _)).symm
    rw [← List.map_append, List.take_of_length_le (by rw [List.length_map]),
      List.map_append] at hsame
    exact hsame ▸ List.take_prefix _ _

/-- After a line has been read raw and put back, its raw form is the next line, and reading it leads
to where reading the line has led. -/
lemma AtLine.unreadLine (h : s.AtLine) (hnext : s.lines.next = .ok (some line, lines)) :
    ∃ lines', lines'.next = .ok (some (Line.raw line), lines) ∧
      (s.movedTo lines lines.lineStart).unreadLine (Line.raw line) =
        .ok (s.movedTo lines' lines.lineStart) := by
  obtain ⟨lines', hput, hagain⟩ := LineReader.next_putBack hnext (Line.raw line)
  refine ⟨lines', hagain, ?_⟩
  have hbetween : (s.movedTo lines lines.lineStart).betweenLines "unread_line" = .ok () :=
    betweenLines_eq_ok.2 ⟨h.pushedBack, h.rest⟩
  have hput' : (s.movedTo lines lines.lineStart).lines.putBack (Line.raw line) = .ok lines' := hput
  rw [TokenStream.unreadLine, hbetween]
  dsimp only
  rw [hput']
  rfl

lemma AtLine.deliveries_iff {lines' : LineReader} {linenr : Nat} (h : s.AtLine)
    (hnext : s.lines.next = .ok (some line, lines))
    (hagain : lines'.next = .ok (some (Line.raw line), lines)) :
    (∀ n, (s.movedTo lines' linenr).deliveries n = s.deliveries n) ↔ Line.Plain line := by
  have hback : (s.movedTo lines' linenr).AtLine := ⟨h.pushedBack, h.rest⟩
  have hload : (s.movedTo lines' linenr).load = .ok (s.holding lines (Line.raw line)) :=
    hback.load hagain
  simp only [deliveries_of_load hload, deliveries_of_load (h.load hnext)]
  constructor
  · intro hsame
    refine Line.plain_of_map_scan ?_ (outcomes_of_deliveries h.pushedBack lines hsame)
    intro lexeme quote inside heq
    exact congrArg Token.lexeme ((Token.outcome_eq_ok rfl).1 heq)
  · intro hplain n
    rw [holding, holding, Token.ofLine, Token.ofLine, (Line.scan_raw_eq_iff line).2 hplain]

/-- Reading raw lines one by one. -/
def ReadsRaw (s : TokenStream) : List (List Char) → TokenStream → Prop
  | [], s' => s' = s
  | line :: lines, s' => ∃ t, s.readLine = .ok (some line, t) ∧ t.ReadsRaw lines s'

lemma ReadsRaw.append {t : TokenStream} {lines lines' : List (List Char)} (h : s.ReadsRaw lines t)
    (h' : t.ReadsRaw lines' s') : s.ReadsRaw (lines ++ lines') s' := by
  induction lines generalizing s with
  | nil =>
    cases h
    exact h'
  | cons line lines ih =>
    obtain ⟨u, hu, h⟩ := h
    exact ⟨u, hu, ih h⟩

lemma readLine_eq_some {raw : List Char} (h : s.readLine = .ok (some raw, s')) :
    s.AtLine ∧ ∃ line lines, s.lines.next = .ok (some line, lines) ∧ raw = Line.raw line ∧
      s' = s.movedTo lines lines.lineStart := by
  unfold TokenStream.readLine at h
  split at h
  · cases h
  · split at h
    · cases h
    · rename_i hbetween
      split at h
      · cases h
      · rename_i line' lines hraw
        cases h
        unfold LineReader.nextRaw at hraw
        split at hraw
        · cases hraw
        · rename_i text reader hnext
          simp only [Except.ok.injEq, Prod.mk.injEq, Option.map_eq_some_iff] at hraw
          obtain ⟨⟨line, rfl, rfl⟩, rfl⟩ := hraw
          exact ⟨betweenLines_eq_ok.1 hbetween, line, reader, hnext, rfl, rfl⟩

lemma takeLines_eq_ok {p : List Char → Bool} {s s' : TokenStream} {lines : List (List Char)}
    {stop : Option (List Char)} (h : s.takeLines p = .ok (lines, stop, s')) :
    ∃ u t, s.ReadsRaw lines u ∧ u.readLine = .ok (stop, t) ∧ (stop = none → s' = t) ∧
      ∀ raw, stop = some raw → p raw = false ∧ t.unreadLine raw = .ok s' := by
  fun_induction takeLines p s generalizing lines stop s' with
  | case1 s fault hr => cases h
  | case2 s t hr =>
    cases h
    refine ⟨s, t, rfl, hr, fun _ => rfl, ?_⟩
    rintro raw ⟨⟩
  | case3 s line t hr hp fault hrec ih => cases h
  | case4 s line t hr hp lines' stop' u hrec ih =>
    cases h
    obtain ⟨v, w, hreads, hread, hstop⟩ := ih hrec
    exact ⟨v, w, ⟨t, hr, hreads⟩, hread, hstop⟩
  | case5 s line t hr hp fault hu => cases h
  | case6 s line t hr hp u hu =>
    cases h
    refine ⟨s, t, rfl, hr, ?_, ?_⟩
    · rintro ⟨⟩
    · rintro raw ⟨⟩
      exact ⟨by simpa using hp, hu⟩

/-- How the reading of a help text ends: at the end of the file, or in front of a line that is not
blank. The line is put back, and its tokens are those it has without that if its raw form is
plain. -/
inductive HelpEnds (s s' : TokenStream) : Prop where
  | fileEnd {t u : TokenStream} {raws : List (List Char)} (hdiscard : s.discardLine = .ok t)
    (hreads : t.ReadsRaw raws u) (hend : u.readLine = .ok (none, s'))
  | line {t u : TokenStream} {raws : List (List Char)} {line : List Char} {lines : LineReader}
    (hdiscard : s.discardLine = .ok t) (hreads : t.ReadsRaw raws u)
    (hbetween : u.betweenLines "read_line" = .ok ())
    (hnext : u.lines.next = .ok (some line, lines))
    (hblank : Text.isBlankText (Line.raw line) = false)
    (hsame : (∀ n, s'.deliveries n = u.deliveries n) ↔ Line.Plain line)

lemma HelpEnds.of_unreadLine {t u v : TokenStream} {raws : List (List Char)} {raw : List Char}
    (hdiscard : s.discardLine = .ok t) (hreads : t.ReadsRaw raws u)
    (hread : u.readLine = .ok (some raw, v)) (hunread : v.unreadLine raw = .ok s')
    (hblank : Text.isBlankText raw = false) : HelpEnds s s' := by
  obtain ⟨hline, line, lines, hnext, rfl, rfl⟩ := readLine_eq_some hread
  obtain ⟨lines', hagain, hback⟩ := hline.unreadLine hnext
  rw [hback] at hunread
  cases hunread
  exact .line hdiscard hreads (betweenLines_eq_ok.2 hline) hnext hblank
    (hline.deliveries_iff hnext hagain)

/-- Reading a help text goes on from line to line up to its end. -/
theorem helpEnds_of_readHelp {help : Option String}
    (h : Directive.readHelp s = .ok (help, s')) : HelpEnds s s' := by
  obtain ⟨t, hdiscard, h⟩ := bind_eq_ok.1 h
  obtain ⟨⟨blanks, first, s₁⟩, hblanks, h⟩ := bind_eq_ok.1 h
  obtain ⟨u, v, hreads, hread, hnone, hsome⟩ := takeLines_eq_ok hblanks
  cases first with
  | none =>
    cases pure_eq_ok.1 h
    cases hnone rfl
    exact .fileEnd hdiscard hreads hread
  | some raw =>
    obtain ⟨hblank, hunread⟩ := hsome raw rfl
    dsimp only at h
    split at h
    · cases pure_eq_ok.1 h
      exact .of_unreadLine hdiscard hreads hread hunread hblank
    obtain ⟨⟨raws, stop, s₂⟩, hraws, h⟩ := bind_eq_ok.1 h
    cases pure_eq_ok.1 h
    obtain ⟨u', v', hreads', hread', hnone', hsome'⟩ := takeLines_eq_ok hraws
    -- The first line is read again, with the same effect as when it was read from the file.
    obtain ⟨hline, line, lines, hnext, rfl, rfl⟩ := readLine_eq_some hread
    obtain ⟨lines', hagain, hback⟩ := hline.unreadLine hnext
    rw [hback] at hunread
    cases hunread
    have hline' : (u.movedTo lines' lines.lineStart).AtLine := ⟨hline.pushedBack, hline.rest⟩
    have hfirst := hline'.readLine hagain
    rw [Line.raw_raw] at hfirst
    cases raws with
    | nil =>
      cases hreads'
      rw [hfirst] at hread'
      cases hread'
      have hstop := (hsome' _ rfl).1
      simp at hstop
    | cons first raws =>
      obtain ⟨w, hw, hreads'⟩ := hreads'
      rw [hfirst] at hw
      cases hw
      have hall : t.ReadsRaw (blanks ++ Line.raw line :: raws) u' :=
        hreads.append ⟨_, hread, hreads'⟩
      cases stop with
      | none =>
        cases hnone' rfl
        exact .fileEnd hdiscard hall hread'
      | some raw =>
        obtain ⟨hstop, hunread'⟩ := hsome' raw rfl
        simp only [Bool.or_eq_false_iff] at hstop
        exact .of_unreadLine hdiscard hall hread' hunread' hstop.1

end TokenStream

open TokenStream

/-- To read the next line raw and to put it back is possible between lines. It leaves the tokens
that are delivered as they were if and only if the raw form of the line is plain; the same holds for
the line that ends a help text. -/
theorem deliveries_of_raw_lines (s : TokenStream) :
    (∀ (request : String) (line : List Char) (lines : LineReader),
      s.betweenLines request = .ok () → s.lines.next = .ok (some line, lines) →
        ∃ s₁ s₂, s.readLine = .ok (some (Line.raw line), s₁) ∧
          s₁.unreadLine (Line.raw line) = .ok s₂ ∧
            ((∀ n, s₂.deliveries n = s.deliveries n) ↔ Line.Plain line)) ∧
      ∀ (s' : TokenStream) (help : Option String),
        Directive.readHelp s = .ok (help, s') → HelpEnds s s' := by
  refine ⟨?_, fun s' help h => helpEnds_of_readHelp h⟩
  intro request line lines hbetween hnext
  have hline := betweenLines_eq_ok.1 hbetween
  obtain ⟨lines', hagain, hback⟩ := hline.unreadLine hnext
  exact ⟨_, _, hline.readLine hnext, hback, hline.deliveries_iff hnext hagain⟩

/-- A file with one line. -/
def oneLine (text : String) : TokenStream where
  lines := { file := "K", rest := [⟨text.toList, 1⟩] }

theorem deliveries_of_raw_lines_comment : ∃ s₁ s₂,
    (oneLine "config A  # new").readLine = .ok (some "config A".toList, s₁) ∧
      s₁.unreadLine "config A".toList = .ok s₂ ∧
        ∀ n, s₂.deliveries n = (oneLine "config A  # new").deliveries n := by
  obtain ⟨s₁, s₂, hread, hunread, hsame⟩ :=
    (deliveries_of_raw_lines (oneLine "config A  # new")).1 "read_line" "config A  # new".toList _
      rfl rfl
  have hraw : Line.raw "config A  # new".toList = "config A".toList := by decide
  rw [hraw] at hread hunread
  exact ⟨s₁, s₂, hread, hunread, hsame.2 (by decide)⟩

/-- A `#` in a quoted text is lost. -/
theorem deliveries_ne_of_quoted_hash : ∃ s₁ s₂ raw,
    (oneLine "prompt \"a # b\"").readLine = .ok (some raw, s₁) ∧ s₁.unreadLine raw = .ok s₂ ∧
      s₂.deliveries 2 = [.ok ⟨.word "prompt", 1⟩, .ok ⟨.quoted '"' "a", 1⟩] ∧
        (oneLine "prompt \"a # b\"").deliveries 2 =
          [.ok ⟨.word "prompt", 1⟩, .ok ⟨.quoted '"' "a # b", 1⟩] :=
  ⟨_, _, _, rfl, rfl, by decide +kernel, by decide +kernel⟩

end Kconfig
