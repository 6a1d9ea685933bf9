import Kconfig.Line.Size
import Kconfig.TokenStream

/-!
# The size of token streams

A measure of what a token stream can still deliver. Delivering a token makes it smaller, and no
request makes it larger.
-/

namespace Kconfig

/-- The number of tokens other than the end of the file. -/
def weight (tokens : List Token) : Nat :=
  (tokens.filter fun token => token.lexeme ≠ .fileEnd).length

theorem weight_le_of_suffix {as bs : List Token} (h : as <:+ bs) : weight as ≤ weight bs :=
  (h.filter _).length_le

theorem weight_le_length (tokens : List Token) : weight tokens ≤ tokens.length :=
  List.length_filter_le _ _

theorem weight_cons (token : Token) (tokens : List Token) :
    weight (token :: tokens) = (if token.lexeme = .fileEnd then 0 else 1) + weight tokens := by
  unfold weight
  rw [List.filter_cons]
  by_cases h : token.lexeme = .fileEnd
  · simp [h]
  · simp [h, Nat.add_comm]

theorem Lexeme.length_scan_le (line : List Char) : (Lexeme.scan line).length ≤ line.length + 1 := by
  fun_induction Lexeme.scan line with
  | case1 line h => simp
  | case2 line lexeme rest h ih =>
    have := Lexeme.length_of_first? h
    simp only [List.length_cons]
    omega

theorem Lexeme.scan_ne_nil (line : List Char) : Lexeme.scan line ≠ [] := by
  unfold Lexeme.scan
  split <;> simp

namespace LineReader

/-- What a line reader can still deliver. -/
def size (r : LineReader) : Nat :=
  Line.totalSize r.rest + (r.unread.map Line.size).getD 0

theorem size_next {r r' : LineReader} {line : List Char} (h : r.next = .ok (some line, r')) :
    r'.size + line.length + 2 = r.size ∧ r'.file = r.file := by
  unfold next at h
  split at h
  · rename_i l hunread
    cases h
    simp [size, take, hunread, Line.size]
    omega
  · rename_i hunread
    split at h
    · rename_i l rest hrest
      cases h
      simp [size, take, hunread, hrest, Line.totalSize, Line.size]
      omega
    · split at h <;> cases h

theorem next_none {r r' : LineReader} (h : r.next = .ok (none, r')) : r' = r := by
  unfold next at h
  split at h
  · cases h
  · split at h
    · cases h
    · split at h
      · cases h
      · cases h
        rfl

theorem size_putBack {r r' : LineReader} {line : List Char} (h : r.putBack line = .ok r') :
    r'.size = r.size + line.length + 2 ∧ r'.file = r.file := by
  unfold putBack at h
  split at h
  · cases h
  · rename_i hunread
    cases h
    simp [size, hunread, Line.size]
    omega

end LineReader

namespace TokenStream

/-- What a token stream can still deliver. -/
def size (s : TokenStream) : Nat :=
  weight s.upcoming + s.lines.size

/-- Another state of the same file, in which no more is to come and `n` tokens have been taken. -/
def After (n : Nat) (s s' : TokenStream) : Prop :=
  s'.file = s.file ∧ s'.size + n ≤ s.size

theorem After.refl (s : TokenStream) : After 0 s s :=
  ⟨rfl, Nat.le_refl _⟩

theorem After.trans {m n : Nat} {s t u : TokenStream} (h₁ : After m s t) (h₂ : After n t u) :
    After (m + n) s u :=
  ⟨h₂.1.trans h₁.1, by have := h₁.2; have := h₂.2; omega⟩

theorem After.mono {m n : Nat} {s t : TokenStream} (h : After n s t) (hmn : m ≤ n) :
    After m s t :=
  ⟨h.1, by have := h.2; omega⟩

@[simp]
theorem upcoming_stopAt (s : TokenStream) (stop : Stop) :
    (s.stopAt stop).upcoming = stop.upcoming := by
  cases h : stop.kept <;> simp [stopAt, upcoming, Stop.upcoming, h]

theorem size_stopAt (s : TokenStream) (stop : Stop) :
    (s.stopAt stop).size = weight stop.upcoming + s.lines.size := by
  rw [size, upcoming_stopAt]
  rfl

theorem upcoming_refill {s : TokenStream} (h : s.upcoming = []) (rest : List Token)
    (lines : LineReader) (linenr : Nat) : upcoming { s with lines, rest, linenr } = rest := by
  have hpushed : s.pushedBack = false ∨ s.current = none := by
    unfold upcoming at h
    cases hp : s.pushedBack with
    | false => exact .inl rfl
    | true => simp_all
  rcases hpushed with hp | hc
  · simp [upcoming, hp]
  · simp [upcoming, hc]

/-- The tokens to come after loading are those of the present line, or the end of the file, or those
of another line. -/
theorem upcoming_of_load {s s' : TokenStream} (h : s.load = .ok s') :
    s'.upcoming = s.upcoming ∨ s'.upcoming = [⟨.fileEnd, s.linenr⟩] ∨
      ∃ linenr line, s'.upcoming = Token.ofLine linenr line := by
  unfold load at h
  split at h
  · cases h
    exact .inl rfl
  · rename_i hnil
    have hrefill := upcoming_refill (Decidable.not_not.1 hnil)
    split at h
    · cases h
    · cases h
      exact .inr (.inl (hrefill _ s.lines s.linenr))
    · rename_i line lines hnext
      cases h
      exact .inr (.inr ⟨_, line, hrefill _ _ _⟩)

/-- Loading the next line delivers nothing, and afterwards some token is to come. -/
theorem load_after {s s' : TokenStream} (h : s.load = .ok s') :
    After 0 s s' ∧ s'.upcoming ≠ [] := by
  unfold load at h
  split at h
  · rename_i hne
    cases h
    exact ⟨After.refl s, hne⟩
  · rename_i hnil
    simp only [ne_eq, Decidable.not_not] at hnil
    have hs : s.size = s.lines.size := by simp [size, hnil, weight]
    have hup := upcoming_refill hnil
    split at h
    · cases h
    · cases h
      refine ⟨⟨rfl, ?_⟩, ?_⟩
      · rw [size, hup _ s.lines s.linenr, hs]
        simp [weight]
      · rw [hup _ s.lines s.linenr]
        simp
    · rename_i line lines hnext
      cases h
      obtain ⟨hsize, hfile⟩ := LineReader.size_next hnext
      refine ⟨⟨hfile, ?_⟩, ?_⟩
      · rw [size, hup, hs]
        have h₁ := weight_le_length (Token.ofLine lines.lineStart line)
        have h₂ := Lexeme.length_scan_le line
        simp only [Token.ofLine, List.length_map] at h₁ ⊢
        omega
      · rw [hup]
        simp [Token.ofLine, Lexeme.scan_ne_nil]

theorem next_eq_ok {s s' : TokenStream} {token : Token} : s.next = .ok (token, s') ↔ ∃ t rest,
    s.load = .ok t ∧ t.upcoming = token :: rest ∧ token.lexeme.excessDigits? = none ∧
      s' = t.stopAt { token, rest, kept := false } := by
  constructor
  · intro h
    unfold next at h
    split at h
    · cases h
    · rename_i t hload
      split at h
      · rename_i first rest hup
        split at h
        · cases h
        · rename_i hdigits
          cases h
          exact ⟨t, rest, hload, hup, hdigits, rfl⟩
      · rename_i hup
        exact absurd hup (load_after hload).2
  · rintro ⟨t, rest, hload, hup, hdigits, rfl⟩
    unfold next
    simp only [hload, hup, hdigits]

/-- The rest of a line can be discarded if each of its tokens can be delivered. -/
theorem discardLine_eq_ok {s s' : TokenStream} : s.discardLine = .ok s' ↔ ∃ t last,
    s.load = .ok t ∧ (∀ token ∈ t.upcoming, token.lexeme.excessDigits? = none) ∧
      t.upcoming.getLast? = some last ∧
      s' = t.stopAt { token := last, rest := [], kept := last.lexeme == .fileEnd } := by
  constructor
  · intro h
    unfold discardLine at h
    split at h
    · cases h
    · rename_i t hload
      split at h
      · cases h
      · rename_i hdigits
        split at h
        · rename_i last hlast
          cases h
          exact ⟨t, last, hload, List.findSome?_eq_none_iff.1 hdigits, hlast, rfl⟩
        · rename_i hlast
          exact absurd (List.getLast?_eq_none_iff.1 hlast) (load_after hload).2
  · rintro ⟨t, last, hload, hdigits, hlast, rfl⟩
    unfold discardLine
    simp only [hload, List.findSome?_eq_none_iff.2 hdigits, hlast]

theorem next_of_upcoming {s : TokenStream} {token : Token} {rest : List Token}
    (h : s.upcoming = token :: rest) (hdigits : token.isDeliverable = true) :
    s.next = .ok (token, s.stopAt { token, rest, kept := false }) :=
  next_eq_ok.2 ⟨s, rest, load_of_upcoming h, h, Token.isDeliverable_iff.1 hdigits, rfl⟩

theorem next_after {s s' : TokenStream} {token : Token} (h : s.next = .ok (token, s')) :
    After (if token.lexeme = .fileEnd then 0 else 1) s s' ∧ s'.current = some token ∧
      s'.pushedBack = false := by
  obtain ⟨t, rest, hload, hup, -, rfl⟩ := next_eq_ok.1 h
  obtain ⟨hfile, hsize⟩ := (load_after hload).1
  refine ⟨⟨hfile, ?_⟩, rfl, rfl⟩
  rw [size, hup, weight_cons] at hsize
  rw [size_stopAt]
  simp only [Stop.upcoming, Bool.false_eq_true, if_false]
  omega

/-- A token that has been put back counts again, unless it is the end of the file. -/
theorem pushBack_after {s s' : TokenStream} {token : Token} (h : s.pushBack = .ok s')
    (hc : s.current = some token) :
    s'.file = s.file ∧ s'.size = (if token.lexeme = .fileEnd then 0 else 1) + s.size := by
  unfold pushBack at h
  split at h
  · cases h
  · rename_i hp
    split at h
    · cases h
    · cases h
      refine ⟨rfl, ?_⟩
      simp only [size, upcoming, if_neg hp, hc, Option.toList_some, if_true,
        List.singleton_append, weight_cons]
      omega

theorem discardLine_after {s s' : TokenStream} (h : s.discardLine = .ok s') : After 0 s s' := by
  obtain ⟨t, last, hload, -, -, rfl⟩ := discardLine_eq_ok.1 h
  obtain ⟨hfile, hsize⟩ := (load_after hload).1
  refine ⟨hfile, ?_⟩
  rw [size_stopAt]
  have hw : weight (Stop.upcoming
      { token := last, rest := [], kept := last.lexeme == .fileEnd }) = 0 := by
    unfold Stop.upcoming
    split
    · rename_i hk
      simp only [beq_iff_eq] at hk
      simp [weight, hk]
    · rfl
  rw [hw]
  simp only [size] at hsize ⊢
  omega

theorem readLine_after {s s' : TokenStream} {line : Option (List Char)}
    (h : s.readLine = .ok (line, s')) :
    s'.file = s.file ∧ s'.size + (line.map fun l => l.length + 2).getD 0 ≤ s.size := by
  unfold readLine at h
  split at h
  · cases h
    exact ⟨rfl, Nat.le_refl _⟩
  · split at h
    · cases h
    · split at h
      · cases h
      · rename_i line' lines hraw
        cases h
        unfold LineReader.nextRaw at hraw
        split at hraw
        · cases hraw
        · rename_i text r hnext
          cases hraw
          have hup : upcoming { s with lines, linenr := lines.lineStart } = s.upcoming := rfl
          simp only [size, hup]
          cases text with
          | none =>
            rw [LineReader.next_none hnext]
            exact ⟨rfl, Nat.le_refl _⟩
          | some text =>
            obtain ⟨hsize, hfile⟩ := LineReader.size_next hnext
            have := Line.length_raw_le text
            refine ⟨hfile, ?_⟩
            simp only [Option.map_some, Option.getD_some]
            omega

theorem unreadLine_after {s s' : TokenStream} {line : List Char}
    (h : s.unreadLine line = .ok s') :
    s'.file = s.file ∧ s'.size = s.size + line.length + 2 := by
  unfold unreadLine at h
  split at h
  · cases h
  · split at h
    · cases h
    · rename_i lines hput
      cases h
      obtain ⟨hsize, hfile⟩ := LineReader.size_putBack hput
      refine ⟨hfile, ?_⟩
      have hup : upcoming { s with lines } = s.upcoming := rfl
      simp only [size, hup]
      omega

theorem takeLines_after {p : List Char → Bool} {s s' : TokenStream} {lines : List (List Char)}
    {stop : Option (List Char)} (h : s.takeLines p = .ok (lines, stop, s')) : After 0 s s' := by
  fun_induction takeLines p s generalizing lines stop s' with
  | case1 s fault hr => cases h
  | case2 s t hr =>
    cases h
    have := readLine_after hr
    exact ⟨this.1, by simpa using this.2⟩
  | case3 s line t hr hp fault hrec ih => cases h
  | case4 s line t hr hp lines' stop' u hrec ih =>
    cases h
    have h₁ := readLine_after hr
    have h₂ := ih hrec
    refine ⟨h₂.1.trans h₁.1, ?_⟩
    have := h₁.2
    have := h₂.2
    omega
  | case5 s line t hr hp fault hu => cases h
  | case6 s line t hr hp u hu =>
    cases h
    have h₁ := readLine_after hr
    have h₂ := unreadLine_after hu
    refine ⟨h₂.1.trans h₁.1, ?_⟩
    have := h₁.2
    simp only [Option.map_some, Option.getD_some] at this
    omega

end TokenStream

end Kconfig
