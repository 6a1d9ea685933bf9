import Kconfig.Keyword
import Kconfig.Proofs.Blind
import Kconfig.Proofs.LineNumbers
import Kconfig.Proofs.RawLines

/-!
# Views of token streams

What a stream has still to deliver is described by its view: the lexemes that are left of the
present line, and the lines to come. A view knows no line numbers. Loading, reading raw lines and
putting them back are told by the view alone. -/

namespace Kconfig

namespace LineReader

variable {r r' : LineReader} {line : List Char} {lines : List (List Char)}

def texts (r : LineReader) : List (List Char) :=
  r.upcoming.map (·.text)

lemma next_of_texts_cons (h : r.texts = line :: lines) :
    ∃ r', r.next = .ok (some line, r') ∧ r'.texts = lines ∧ r'.damage = r.damage ∧
      r'.file = r.file := by
  unfold texts upcoming at h
  cases hunread : r.unread with
  | some l =>
    rw [hunread] at h
    obtain ⟨hline, hlines⟩ := List.cons.inj h
    refine ⟨{ r.take l with unread := none }, ?_, hlines, rfl, rfl⟩
    rw [next, hunread, ← hline]
  | none =>
    rw [hunread] at h
    cases hrest : r.rest with
    | nil => simp [hrest] at h
    | cons l rest =>
      rw [hrest] at h
      obtain ⟨hline, hlines⟩ := List.cons.inj h
      refine ⟨{ r.take l with rest }, ?_, ?_, rfl, rfl⟩
      · rw [next, hunread, hrest, ← hline]
      · rw [texts, upcoming, take, hunread]
        exact hlines

lemma next_of_texts_nil (h : r.texts = []) :
    r.next = match r.damage with
      | some damage => .error damage.error
      | none => .ok (none, r) := by
  unfold texts upcoming at h
  obtain ⟨hunread, hrest⟩ := List.append_eq_nil_iff.1 (List.map_eq_nil_iff.1 h)
  rw [Option.toList_eq_nil_iff] at hunread
  cases hdamage : r.damage with
  | none => rw [next, hunread, hrest, hdamage]
  | some damage => rw [next, hunread, hrest, hdamage]

lemma texts_putBack (hunread : r.unread = none) (line : List Char) :
    ∃ r', r.putBack line = .ok r' ∧ r'.texts = line :: r.texts ∧ r'.damage = r.damage ∧
      r'.file = r.file := by
  refine ⟨{ r with linenr := r.linenr - r.lastHeight, unread := some ⟨line, r.lastHeight⟩ }, ?_, ?_,
    rfl, rfl⟩
  · rw [putBack, hunread]
  · rw [texts, texts, upcoming, upcoming, hunread]
    rfl

end LineReader

/-- The lexemes of the first line of a file. -/
def firstLexemes : List (List Char) → List Lexeme
  | [] => [.fileEnd]
  | line :: _ => Lexeme.scan line

/-- What a stream has still to deliver: the lexemes of the present line, the lines after it, and
what stops the reading after these. -/
structure View where
  file : String
  lexemes : List Lexeme
  texts : List (List Char)
  damage : Option Damage

namespace View

variable {v v' : View} {lexeme : Lexeme}

/-- The view when one more lexeme is to come first. -/
def push (v : View) (lexeme : Lexeme) : View :=
  { v with lexemes := lexeme :: v.lexemes }

/-- The view after the next line has been loaded if the present one has been delivered; it cannot be
loaded at the end of a file that is damaged. -/
def load (v : View) : Option View :=
  if v.lexemes ≠ [] then some v
  else if v.texts = [] ∧ v.damage ≠ none then none
  else some { v with lexemes := firstLexemes v.texts, texts := v.texts.tail }

lemma load_of_ne_nil (h : v.lexemes ≠ []) : v.load = some v :=
  if_pos h

lemma load_of_nil (h : v.lexemes = []) (hdamage : v.texts = [] → v.damage = none) :
    v.load = some { v with lexemes := firstLexemes v.texts, texts := v.texts.tail } := by
  rw [load, if_neg (not_not.2 h), if_neg fun hend => hend.2 (hdamage hend.1)]

lemma eq_of_load (h : v.lexemes = []) (hload : v.load = some v') :
    v' = { v with lexemes := firstLexemes v.texts, texts := v.texts.tail } ∧
      (v.texts = [] → v.damage = none) := by
  rw [load, if_neg (not_not.2 h)] at hload
  split at hload
  · cases hload
  · rename_i hend
    exact ⟨(Option.some.inj hload).symm, fun htexts => not_not.1 fun hne => hend ⟨htexts, hne⟩⟩

lemma file_of_load (h : v.load = some v') : v'.file = v.file := by
  unfold load at h
  split at h
  · cases h
    rfl
  · split at h
    · cases h
    · cases h
      rfl

end View

namespace TokenStream

variable {s s' t : TokenStream} {line : List Char} {lines : List (List Char)} {v : View}

def view (s : TokenStream) : View :=
  ⟨s.file, s.upcoming.map Token.lexeme, s.lines.texts, s.lines.damage⟩

lemma view_stopAt (s : TokenStream) (stop : Stop) :
    (s.stopAt stop).view = { s.view with lexemes := stop.upcoming.map Token.lexeme } := by
  rw [view, upcoming_stopAt]
  rfl

lemma view_eq {lexemes : List Lexeme} (hlexemes : s.upcoming.map Token.lexeme = lexemes)
    (hfile : s.file = v.file) (htexts : s.lines.texts = lines)
    (hdamage : s.lines.damage = v.damage) :
    s.view = { v with lexemes := lexemes, texts := lines } := by
  rw [view, hlexemes, hfile, htexts, hdamage]

lemma view_load (s : TokenStream) : s.load.toOption.map view = s.view.load := by
  by_cases h : s.upcoming = []
  · have hlexemes : s.view.lexemes = [] := List.map_eq_nil_iff.2 h
    have hload : ¬s.upcoming ≠ [] := not_not.2 h
    cases htexts : s.lines.texts with
    | nil =>
      have hnext := LineReader.next_of_texts_nil htexts
      cases hdamage : s.lines.damage with
      | none =>
        rw [hdamage] at hnext
        rw [View.load_of_nil hlexemes fun _ => hdamage, load, if_neg hload, hnext]
        have hupcoming := upcoming_refill h [⟨.fileEnd, s.linenr⟩] s.lines s.linenr
        refine congrArg some (view_eq ?_ rfl ?_ rfl)
        · rw [hupcoming, show s.view.texts = [] from htexts]
          rfl
        · rw [show s.view.texts = [] from htexts]
          exact htexts
      | some damage =>
        rw [hdamage] at hnext
        have hdamaged : s.view.damage ≠ none := by
          rw [show s.view.damage = some damage from hdamage]
          exact Option.some_ne_none damage
        rw [View.load, if_neg (not_not.2 hlexemes), if_pos ⟨htexts, hdamaged⟩, load, if_neg hload,
          hnext]
        rfl
    | cons line lines =>
      obtain ⟨r, hnext, hlines, hdamage, hfile⟩ := LineReader.next_of_texts_cons htexts
      have hsome : s.view.texts = [] → s.view.damage = none := by
        intro hnil
        exact absurd (htexts.symm.trans hnil) (List.cons_ne_nil _ _)
      rw [View.load_of_nil hlexemes hsome, load, if_neg hload, hnext]
      change some (s.holding r line).view = _
      refine congrArg some (view_eq ?_ hfile ?_ hdamage)
      · rw [holding, upcoming_refill h, Token.map_lexeme_ofLine,
          show s.view.texts = line :: lines from htexts]
        rfl
      · rw [show s.view.texts = line :: lines from htexts]
        exact hlines
  · rw [View.load_of_ne_nil fun hnil => h (List.map_eq_nil_iff.1 hnil), load, if_pos h]
    rfl

lemma view_of_load (h : s.load = .ok s') : s.view.load = some s'.view := by
  rw [← view_load, h]
  rfl

lemma exists_load (h : s.view.load = some v) : ∃ s', s.load = .ok s' ∧ s'.view = v := by
  rw [← view_load] at h
  obtain ⟨s', hs', hview⟩ := Option.map_eq_some_iff.1 h
  cases hload : s.load with
  | error damage =>
    rw [hload] at hs'
    cases hs'
  | ok t =>
    rw [hload] at hs'
    cases hs'
    exact ⟨_, rfl, hview⟩

lemma view_of_next {token : Token} (h : s.next = .ok (token, s')) :
    s.view.load = some (s'.view.push token.lexeme) := by
  obtain ⟨t, rest, hload, hupcoming, -, rfl⟩ := next_eq_ok.1 h
  rw [view_of_load hload, view_stopAt, view, hupcoming]
  rfl

lemma exists_next (h : s.view.load = some v)
    (hdigits : ∀ lexeme ∈ v.lexemes.head?, lexeme.excessDigits? = none) :
    ∃ token s', s.next = .ok (token, s') ∧ s'.view.push token.lexeme = v := by
  obtain ⟨t, hload, rfl⟩ := exists_load h
  obtain ⟨token, rest, hupcoming⟩ := List.exists_cons_of_ne_nil (load_after hload).2
  have hhead : token.lexeme ∈ t.view.lexemes.head? := by
    rw [view, hupcoming]
    rfl
  have hnext := next_eq_ok.2 ⟨t, rest, hload, hupcoming, hdigits _ hhead, rfl⟩
  exact ⟨token, _, hnext, Option.some.inj ((view_of_next hnext).symm.trans h)⟩

lemma pushBack_of_next {token : Token} (h : s.next = .ok (token, s')) :
    ∃ s'', s'.pushBack = .ok s'' ∧ s''.view = s'.view.push token.lexeme := by
  obtain ⟨t, rest, hload, hupcoming, -, rfl⟩ := next_eq_ok.1 h
  exact ⟨t.stopAt { token, rest }, rfl, rfl⟩

variable {p : List Char → Bool}

lemma AtLine.movedTo (hs : s.AtLine) (r : LineReader) (linenr : Nat) :
    (s.movedTo r linenr).AtLine :=
  ⟨hs.pushedBack, hs.rest⟩

lemma AtLine.readLine_end (hs : s.AtLine) (htexts : s.lines.texts = []) :
    s.readLine = match s.lines.damage with
      | some damage => .error (.undecodable damage.error)
      | none => .ok (none, s.movedTo s.lines s.lines.lineStart) := by
  have hend : ¬s.atKeptEnd = true := by
    rw [atKeptEnd, hs.pushedBack]
    exact Bool.false_ne_true
  rw [TokenStream.readLine, if_neg hend, betweenLines_eq_ok.2 hs, LineReader.nextRaw,
    LineReader.next_of_texts_nil htexts]
  cases s.lines.damage <;> rfl

lemma takeLines_of_some (h : s.readLine = .ok (some line, t)) :
    s.takeLines p =
      if p line then
        match t.takeLines p with
        | .error fault => .error fault
        | .ok (lines, stop, s) => .ok (line :: lines, stop, s)
      else
        match t.unreadLine line with
        | .error fault => .error fault
        | .ok s => .ok ([], some line, s) := by
  rw [takeLines]
  split
  all_goals
    rename_i hread
    rw [h] at hread
    cases hread
  rfl

lemma takeLines_of_none (h : s.readLine = .ok (none, t)) :
    s.takeLines p = .ok ([], none, t) := by
  rw [takeLines]
  split
  all_goals
    rename_i hread
    rw [h] at hread
    cases hread
  rfl

lemma takeLines_of_error {fault : Fault} (h : s.readLine = .error fault) :
    s.takeLines p = .error fault := by
  rw [takeLines]
  split
  all_goals
    rename_i hread
    rw [h] at hread
    cases hread
  rfl

/-- The lines of a file after the first one has been put back in its raw form. -/
def putBackRaw : List (List Char) → List (List Char)
  | [] => []
  | line :: lines => Line.raw line :: lines

lemma takeLines_append (hs : s.AtLine) {front later : List (List Char)}
    (htexts : s.lines.texts = front ++ later) (hfront : ∀ l ∈ front, p (Line.raw l) = true)
    (hlater : ∀ l ∈ later.head?, p (Line.raw l) = false)
    (hdamage : later = [] → s.lines.damage = none) :
    ∃ s', s.takeLines p = .ok (front.map Line.raw, later.head?.map Line.raw, s') ∧ s'.AtLine ∧
      s'.view = { s.view with texts := putBackRaw later } := by
  induction front generalizing s with
  | nil =>
    rw [List.nil_append] at htexts
    cases later with
    | nil =>
      have hread := hs.readLine_end htexts
      rw [hdamage rfl] at hread
      exact ⟨_, takeLines_of_none hread, hs.movedTo _ _, view_eq rfl rfl htexts rfl⟩
    | cons line lines =>
      obtain ⟨r, hnext, hlines, hsame, hfile⟩ := LineReader.next_of_texts_cons htexts
      obtain ⟨r', hback, htexts', hsame', hfile'⟩ :=
        LineReader.texts_putBack (LineReader.unread_next hnext) (Line.raw line)
      have hunread : (s.movedTo r r.lineStart).unreadLine (Line.raw line) =
          .ok (s.movedTo r' r.lineStart) := by
        rw [unreadLine, betweenLines_eq_ok.2 (hs.movedTo r r.lineStart)]
        dsimp only [TokenStream.movedTo]
        rw [hback]
      refine ⟨s.movedTo r' r.lineStart, ?_, hs.movedTo _ _, view_eq rfl (hfile'.trans hfile)
        (htexts'.trans (congrArg _ hlines)) (hsame'.trans hsame)⟩
      rw [takeLines_of_some (hs.readLine hnext), hlater line rfl, hunread]
      rfl
  | cons l front ih =>
    obtain ⟨hl, hfront⟩ := List.forall_mem_cons.1 hfront
    obtain ⟨r, hnext, hlines, hsame, hfile⟩ := LineReader.next_of_texts_cons htexts
    have hmid : (s.movedTo r r.lineStart).view = { s.view with texts := front ++ later } :=
      view_eq rfl hfile hlines hsame
    obtain ⟨s', htake, hat, hs'⟩ :=
      ih (hs.movedTo r r.lineStart) hlines hfront fun hnil => hsame.trans (hdamage hnil)
    refine ⟨s', ?_, hat, by rw [hs', hmid]⟩
    rw [takeLines_of_some (hs.readLine hnext), hl, htake]
    rfl

lemma takeLines_damaged {damage : Damage} (hs : s.AtLine)
    (hall : ∀ l ∈ s.lines.texts, p (Line.raw l) = true) (hdamage : s.lines.damage = some damage) :
    s.takeLines p = .error (.undecodable damage.error) := by
  generalize htexts : s.lines.texts = texts at hall
  induction texts generalizing s with
  | nil =>
    have hread := hs.readLine_end htexts
    rw [hdamage] at hread
    exact takeLines_of_error hread
  | cons line texts ih =>
    obtain ⟨hline, htail⟩ := List.forall_mem_cons.1 hall
    obtain ⟨r, hnext, hlines, hsame, -⟩ := LineReader.next_of_texts_cons htexts
    rw [takeLines_of_some (hs.readLine hnext), hline,
      ih (hs.movedTo r r.lineStart) (hsame.trans hdamage) hlines htail]
    rfl

end TokenStream

end Kconfig
