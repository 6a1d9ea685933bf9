import Kconfig.Proofs.Complete
import Kconfig.Proofs.LineNumbers

/-!
# Requests to token streams

What each request to a token stream gives, in the states in which the parser makes it: no request is
refused, and the file is left at one of its lines. Reading fails only where the bytes of the file
are no text, or at a number with too many digits. -/

namespace Kconfig

/-- The fault of a line that cannot be read, or of a token that cannot be delivered. -/
inductive Fault.Unreadable : Fault → Prop where
  | undecodable (error : Text.DecodeError) : Unreadable (.undecodable error)
  | tooManyDigits {digits : Nat} (h : digitLimit < digits) : Unreadable (.tooManyDigits digits)

namespace TokenStream

/-- The stream is at a line of a file of the given number of lines, unless nothing has been read. -/
structure Within (height : Nat) (s : TokenStream) : Prop where
  lines : s.lines.Within height
  linenr_eq : s.linenr = s.lines.lineStart
  started : ∀ token ∈ s.upcoming, token.lexeme ≠ .fileEnd → 0 < s.linenr
  complete : s.upcoming ≠ [] → Complete s.upcoming

structure Moves (height : Nat) (s s' : TokenStream) : Prop where
  within : s'.Within height
  file : s'.file = s.file
  started : 0 < s.linenr → 0 < s'.linenr

/-- Raw lines can be read. -/
structure AtBreak (s : TokenStream) : Prop where
  rest : s.rest = []
  kept : s.pushedBack = true → s.atKeptEnd = true

variable {height : Nat} {s s' s'' : TokenStream}

lemma Within.linenr_le (h : s.Within height) : s.linenr ≤ height := by
  rw [h.linenr_eq]
  exact h.lines.lineStart_le

lemma Within.moves (h : s.Within height) : Moves height s s :=
  ⟨h, rfl, id⟩

lemma Moves.trans (h₁ : Moves height s s') (h₂ : Moves height s' s'') : Moves height s s'' :=
  ⟨h₂.within, h₂.file.trans h₁.file, fun h => h₂.started (h₁.started h)⟩

lemma within_ofBytes (file : String) (bytes : List UInt8) :
    Within (lineCount bytes) { lines := LineReader.ofBytes file bytes } where
  lines := LineReader.within_ofBytes file bytes
  linenr_eq := rfl
  started := fun _ hmem => by cases hmem
  complete := fun hne => absurd rfl hne

lemma load_ensures (hw : s.Within height) :
    Ensures (fun _ => True) (fun s' => Moves height s s' ∧ s'.upcoming ≠ []) s.load := by
  unfold load
  by_cases hup : s.upcoming ≠ []
  · rw [if_pos hup]
    exact ⟨hw.moves, hup⟩
  · rw [if_neg hup]
    -- With no token left in the line, those of the next one are all that is upcoming.
    have hrefill := upcoming_refill (Decidable.not_not.1 hup)
    cases hnext : s.lines.next with
    | error damage => exact True.intro
    | ok result =>
      obtain ⟨text, lines⟩ := result
      cases text with
      | none =>
        have hrest := hrefill [⟨.fileEnd, s.linenr⟩] s.lines s.linenr
        refine ⟨⟨⟨hw.lines, hw.linenr_eq, ?_, ?_⟩, rfl, id⟩, ?_⟩
        · intro token hmem hend
          rw [hrest, List.mem_singleton] at hmem
          rw [hmem] at hend
          exact absurd rfl hend
        · intro _
          rw [hrest]
          exact ⟨_, rfl, rfl⟩
        · rw [hrest]
          exact List.cons_ne_nil _ _
      | some line =>
        obtain ⟨hlines, hdelivered⟩ := LineReader.next_within hw.lines hnext
        obtain ⟨-, -, -, -, -, -, -, -, -, hfile⟩ := LineReader.next_eq_some hnext
        have hrest := hrefill (Token.ofLine lines.lineStart line) lines lines.lineStart
        have hcomplete := complete_ofLine lines.lineStart line
        refine ⟨⟨⟨hlines, rfl, fun _ _ _ => hdelivered.lineStart_pos, fun _ => ?_⟩, hfile,
          fun _ => hdelivered.lineStart_pos⟩, ?_⟩
        · rwa [hrest]
        · rw [hrest]
          exact hcomplete.ne_nil

lemma moves_stopAt (hw : s.Within height) {stop : Stop} (hstop : stop.upcoming <:+ s.upcoming) :
    Moves height s (s.stopAt stop) where
  within := by
    refine ⟨hw.lines, hw.linenr_eq, ?_, ?_⟩
    · rw [upcoming_stopAt]
      exact fun token hmem => hw.started token (hstop.subset hmem)
    · rw [upcoming_stopAt]
      intro hne
      have hsome := List.ne_nil_of_mem (hstop.subset (List.head_mem hne))
      exact (hw.complete hsome).suffix hstop hne
  file := rfl
  started := id

lemma next_ensures (hw : s.Within height) :
    Ensures Fault.Unreadable (fun r => Moves height s r.2 ∧ r.2.current = some r.1 ∧
      r.2.pushedBack = false ∧ (r.1.lexeme ≠ .fileEnd → 0 < r.2.linenr) ∧
        Complete (r.1 :: r.2.rest)) s.next := by
  have hload := load_ensures hw
  unfold next
  cases hs : s.load with
  | error error => exact .undecodable error
  | ok t =>
    rw [hs] at hload
    obtain ⟨hmoves, hne⟩ := hload
    obtain ⟨token, rest, hup⟩ := List.exists_cons_of_ne_nil hne
    dsimp only
    rw [hup]
    dsimp only
    cases hdigits : token.lexeme.excessDigits? with
    | some digits => exact .tooManyDigits (Lexeme.lt_of_excessDigits? hdigits)
    | none =>
      refine ⟨hmoves.trans (moves_stopAt hmoves.within ?_), rfl, rfl, ?_, ?_⟩
      · rw [hup]
        exact List.suffix_cons token rest
      · refine hmoves.within.started token ?_
        rw [hup]
        exact List.mem_cons_self
      · exact hup ▸ hmoves.within.complete hne

lemma pushBack_ensures {token : Token} (hw : s.Within height) (hcurrent : s.current = some token)
    (hpushed : s.pushedBack = false) (hstarted : token.lexeme ≠ .fileEnd → 0 < s.linenr)
    (hcomplete : Complete (token :: s.rest)) : ∃ s', s.pushBack = .ok s' ∧ Moves height s s' := by
  have hback : upcoming { s with pushedBack := true } = token :: s.rest := by
    rw [upcoming, if_pos rfl, hcurrent]
    rfl
  refine ⟨{ s with pushedBack := true }, ?_, ⟨hw.lines, hw.linenr_eq, ?_, ?_⟩, rfl, id⟩
  · rw [pushBack, hpushed, hcurrent]
    rfl
  · intro t hmem hend
    have hrest : s.upcoming = s.rest := by
      rw [upcoming, hpushed]
      rfl
    rw [hback] at hmem
    rcases List.mem_cons.1 hmem with rfl | hmem
    · exact hstarted hend
    · exact hw.started t (by rw [hrest]; exact hmem) hend
  · rw [hback]
    exact fun _ => hcomplete

lemma discardLine_ensures (hw : s.Within height) :
    Ensures Fault.Unreadable (fun s' => Moves height s s' ∧ s'.AtBreak) s.discardLine := by
  have hload := load_ensures hw
  unfold discardLine
  cases hs : s.load with
  | error error => exact .undecodable error
  | ok t =>
    rw [hs] at hload
    obtain ⟨hmoves, hne⟩ := hload
    have hlast := List.getLast?_eq_some_getLast hne
    dsimp only
    cases hdigits : t.upcoming.findSome? (·.lexeme.excessDigits?) with
    | some digits =>
      obtain ⟨token, -, htoken⟩ := List.exists_of_findSome?_eq_some hdigits
      exact .tooManyDigits (Lexeme.lt_of_excessDigits? htoken)
    | none =>
      dsimp only
      rw [hlast]
      refine ⟨hmoves.trans (moves_stopAt hmoves.within ?_), rfl, fun hkept => ?_⟩
      · unfold Stop.upcoming
        split
        · have h := List.dropLast_concat_getLast hne
          exact ⟨_, h⟩
        · exact List.nil_suffix
      · rw [atKeptEnd, hkept]
        exact hkept

lemma readLine_ensures (hw : s.Within height) (hb : s.AtBreak) :
    Ensures Fault.Unreadable (fun r => Moves height s r.2 ∧ r.2.AtBreak ∧
      (r.1 ≠ none → r.2.pushedBack = false ∧ r.2.lines.Delivered)) s.readLine := by
  unfold readLine
  by_cases hend : s.atKeptEnd = true
  · rw [if_pos hend]
    exact ⟨hw.moves, hb, fun h => absurd rfl h⟩
  · have hpushed : s.pushedBack = false := by
      cases hp : s.pushedBack with
      | false => rfl
      | true => exact absurd (hb.kept hp) hend
    have hup : s.upcoming = [] := by
      rw [upcoming, hpushed, hb.rest]
      rfl
    have hbetween : s.betweenLines "read_line" = .ok () := by
      rw [betweenLines, hpushed, hb.rest]
      rfl
    rw [if_neg hend, hbetween]
    dsimp only [LineReader.nextRaw]
    cases hnext : s.lines.next with
    | error error => exact .undecodable error
    | ok result =>
      obtain ⟨text, lines⟩ := result
      have hempty : upcoming { s with lines, linenr := lines.lineStart } = [] := hup
      have hbreak : AtBreak { s with lines, linenr := lines.lineStart } :=
        ⟨hb.rest, fun hp => absurd (hpushed.symm.trans hp) Bool.false_ne_true⟩
      cases text with
      | none =>
        have hlines := LineReader.next_none hnext
        subst hlines
        refine ⟨⟨⟨hw.lines, rfl, ?_, fun hne => absurd hempty hne⟩, rfl, ?_⟩, hbreak,
          fun h => absurd rfl h⟩
        · rw [hempty]
          exact fun _ hmem => by cases hmem
        · rw [hw.linenr_eq]
          exact id
      | some line =>
        obtain ⟨hlines, hdelivered⟩ := LineReader.next_within hw.lines hnext
        obtain ⟨-, -, -, -, -, -, -, -, -, hfile⟩ := LineReader.next_eq_some hnext
        refine ⟨⟨⟨hlines, rfl, ?_, fun hne => absurd hempty hne⟩, hfile,
          fun _ => hdelivered.lineStart_pos⟩, hbreak, fun _ => ⟨hpushed, hdelivered⟩⟩
        rw [hempty]
        exact fun _ hmem => by cases hmem

lemma unreadLine_ensures (hw : s.Within height) (hb : s.AtBreak) (hpushed : s.pushedBack = false)
    (hd : s.lines.Delivered) (line : List Char) :
    ∃ s', s.unreadLine line = .ok s' ∧ Moves height s s' ∧ s'.AtBreak := by
  obtain ⟨lines, hput, hlines, hstart, hfile⟩ := LineReader.putBack_within hw.lines hd line
  have hbetween : s.betweenLines "unread_line" = .ok () := by
    rw [betweenLines, hpushed, hb.rest]
    rfl
  refine ⟨{ s with lines }, ?_,
    ⟨⟨hlines, hw.linenr_eq.trans hstart.symm, hw.started, hw.complete⟩, hfile, id⟩, hb.rest,
    hb.kept⟩
  rw [unreadLine, hbetween]
  dsimp only
  rw [hput]

lemma takeLines_ensures (p : List Char → Bool) (hw : s.Within height) (hb : s.AtBreak) :
    Ensures Fault.Unreadable (fun r => Moves height s r.2.2 ∧ r.2.2.AtBreak)
      (s.takeLines p) := by
  fun_induction takeLines p s with
  | case1 s fault hread =>
    have h := readLine_ensures hw hb
    rw [hread] at h
    exact h
  | case2 s t hread =>
    have h := readLine_ensures hw hb
    rw [hread] at h
    exact ⟨h.1, h.2.1⟩
  | case3 s line t hread hp fault hrec ih =>
    have h := readLine_ensures hw hb
    rw [hread] at h
    have htake := ih h.1.within h.2.1
    rw [hrec] at htake
    exact htake
  | case4 s line t hread hp lines stop u hrec ih =>
    have h := readLine_ensures hw hb
    rw [hread] at h
    have htake := ih h.1.within h.2.1
    rw [hrec] at htake
    exact ⟨h.1.trans htake.1, htake.2⟩
  | case5 s line t hread hp fault hunread =>
    have h := readLine_ensures hw hb
    rw [hread] at h
    obtain ⟨hpushed, hdelivered⟩ := h.2.2 (Option.some_ne_none line)
    obtain ⟨u, hu, -⟩ := unreadLine_ensures h.1.within h.2.1 hpushed hdelivered line
    rw [hunread] at hu
    cases hu
  | case6 s line t hread hp u hunread =>
    have h := readLine_ensures hw hb
    rw [hread] at h
    obtain ⟨hpushed, hdelivered⟩ := h.2.2 (Option.some_ne_none line)
    obtain ⟨v, hv, hmoves, hbreak⟩ := unreadLine_ensures h.1.within h.2.1 hpushed hdelivered line
    rw [hunread] at hv
    cases hv
    exact ⟨h.1.trans hmoves, hbreak⟩

lemma readHelp_ensures (hw : s.Within height) :
    Ensures Fault.Unreadable (fun r => Moves height s r.2) (Directive.readHelp s) := by
  unfold Directive.readHelp
  refine (discardLine_ensures hw).bind ?_
  rintro t - ⟨ht, htbreak⟩
  refine (takeLines_ensures Text.isBlankText ht.within htbreak).bind ?_
  rintro ⟨blanks, first, u⟩ - ⟨hu, hubreak⟩
  dsimp only
  cases first with
  | none => exact ht.trans hu
  | some line =>
    dsimp only
    by_cases hindent : Directive.column line = 0
    · rw [if_pos hindent]
      exact ht.trans hu
    · rw [if_neg hindent]
      refine (takeLines_ensures _ hu.within hubreak).bind ?_
      rintro ⟨lines, stop, v⟩ - ⟨hv, -⟩
      exact (ht.trans hu).trans hv

end TokenStream

end Kconfig
