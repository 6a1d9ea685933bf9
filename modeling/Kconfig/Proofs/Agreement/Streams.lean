import Kconfig.Proofs.Alongside
import Mathlib.Data.List.Forall2

/-!
# Streams of similar lines

Reading looks at a line through its lexemes and its raw text only. So streams of lines that have
these in common answer each request alike. `Agree` says what it means that two requests end alike,
and where nothing is asked of the second one.
-/

namespace Kconfig

/-- Two requests agree: their results are related, or the second one fails as the first one does. If
they are lax, nothing is asked of the second one where the first one fails. -/
def Agree {ε α β : Type} (lax : Prop) (R : α → β → Prop) : Except ε α → Except ε β → Prop
  | .ok a, .ok b => R a b
  | .ok _, .error _ => False
  | .error fault, y => lax ∨ y = .error fault

namespace Agree

variable {ε ε' α β γ δ : Type} {lax : Prop} {R R' : α → β → Prop} {S : γ → δ → Prop}
  {x : Except ε α} {y : Except ε β}

lemma split (h : Agree lax R x y) :
    (∃ fault, x = .error fault ∧ (lax ∨ y = .error fault)) ∨
      ∃ a b, x = .ok a ∧ y = .ok b ∧ R a b := by
  cases x with
  | error fault => exact .inl ⟨fault, rfl, h⟩
  | ok a =>
    cases y with
    | error fault => exact h.elim
    | ok b => exact .inr ⟨a, b, rfl, rfl, h⟩

lemma bind {f : α → Except ε γ} {g : β → Except ε δ} (h : Agree lax R x y)
    (hfg : ∀ a b, R a b → Agree lax S (f a) (g b)) : Agree lax S (x >>= f) (y >>= g) := by
  rcases h.split with ⟨fault, rfl, hlax | rfl⟩ | ⟨a, b, rfl, rfl, hab⟩
  · exact .inl hlax
  · exact .inr rfl
  · exact hfg a b hab

lemma bind_eq {y : Except ε α} {f : α → Except ε γ} {g : α → Except ε δ} (h : Agree lax Eq x y)
    (hfg : ∀ a, Agree lax S (f a) (g a)) : Agree lax S (x >>= f) (y >>= g) := by
  refine h.bind ?_
  rintro a _ rfl
  exact hfg a

lemma mono (h : Agree lax R x y) (hR : ∀ a b, R a b → R' a b) : Agree lax R' x y := by
  rcases h.split with ⟨fault, rfl, h⟩ | ⟨a, b, rfl, rfl, hab⟩
  · exact h
  · exact hR a b hab

lemma mapError (h : Agree lax R x y) (f : ε → ε') :
    Agree lax R (x.mapError f) (y.mapError f) := by
  rcases h.split with ⟨fault, rfl, hlax | rfl⟩ | ⟨a, b, rfl, rfl, hab⟩
  · exact .inl hlax
  · exact .inr rfl
  · exact hab

lemma refl (x : Except ε α) : Agree lax Eq x x := by
  cases x with
  | error fault => exact .inr rfl
  | ok a => exact rfl

lemma of_ok (h : ∀ a, x = .ok a → ∃ b, y = .ok b ∧ R a b) : Agree True R x y := by
  cases x with
  | error fault => exact .inl True.intro
  | ok a =>
    obtain ⟨b, rfl, hab⟩ := h a rfl
    exact hab

lemma fail (fault : ε) : Agree lax R (.error fault) (.error fault) :=
  .inr rfl

end Agree

/-- The texts of two lines that are read as the same lexemes and as the same raw text. -/
def SimilarText (text text' : List Char) : Prop :=
  Lexeme.scan text' = Lexeme.scan text ∧ Line.raw text' = Line.raw text

lemma SimilarText.refl (text : List Char) : SimilarText text text :=
  ⟨rfl, rfl⟩

/-- Two lines that are as high and cannot be told apart by reading them. -/
def Line.Similar (line line' : Line) : Prop :=
  line'.height = line.height ∧ SimilarText line.text line'.text

lemma Line.Similar.refl (line : Line) : line.Similar line :=
  ⟨rfl, .refl _⟩

namespace LineReader

variable {lax : Prop} {r r' : LineReader}

/-- Readers in the same place of similar lines. -/
def Similar (r r' : LineReader) : Prop :=
  ∃ rest, List.Forall₂ Line.Similar r.rest rest ∧ r' = { r with rest }

lemma Similar.refl (r : LineReader) : r.Similar r :=
  ⟨r.rest, List.forall₂_same.2 fun line _ => .refl line, rfl⟩

lemma next_similar (h : r.Similar r') :
    Agree lax (fun x y => Option.Rel SimilarText x.1 y.1 ∧ x.2.Similar y.2) r.next r'.next := by
  obtain ⟨rest', hrest, rfl⟩ := h
  obtain ⟨file, rest, damage, later, linenr, lineStart, lastHeight, unread⟩ := r
  cases unread with
  | some line => exact ⟨.some (.refl _), rest', hrest, rfl⟩
  | none =>
    cases hrest with
    | nil =>
      cases damage with
      | some damage => exact .fail damage.error
      | none => exact ⟨.none, [], .nil, rfl⟩
    | @cons line line' lines lines' hline hlines =>
      refine ⟨.some hline.2, lines', hlines, ?_⟩
      dsimp only [take]
      rw [hline.1]

lemma nextRaw_similar (h : r.Similar r') :
    Agree lax (fun x y => y.1 = x.1 ∧ x.2.Similar y.2) r.nextRaw r'.nextRaw := by
  unfold nextRaw
  have hnext : Agree lax _ r.next r'.next := next_similar h
  rcases hnext.split with
    ⟨fault, hr, hlax | hr'⟩ | ⟨⟨line, u⟩, ⟨line', u'⟩, hr, hr', hline, hu⟩
  · rw [hr]
    exact .inl hlax
  · rw [hr, hr']
    exact .fail _
  · rw [hr, hr']
    refine ⟨?_, hu⟩
    cases hline with
    | none => rfl
    | some htext => exact congrArg some htext.2

lemma putBack_similar (h : r.Similar r') (text : List Char) :
    Agree lax Similar (r.putBack text) (r'.putBack text) := by
  obtain ⟨rest', hrest, rfl⟩ := h
  unfold putBack
  dsimp only
  split
  · exact .fail _
  · exact ⟨rest', hrest, rfl⟩

end LineReader

/-- Targets that cannot be told apart by reading: they are the same, or files with similar lines. -/
inductive Target.Similar : Target → Target → Prop
  | same (target : Target) : Target.Similar target target
  | file {bytes bytes' : List UInt8}
    (h : ∀ name, (LineReader.ofBytes name bytes).Similar (LineReader.ofBytes name bytes')) :
    Target.Similar (.file bytes) (.file bytes')

lemma Target.Similar.of_eq {target target' : Target} (h : target' = target) :
    target.Similar target' := by
  rw [h]
  exact .same _

namespace TokenStream

variable {lax : Prop} {s t : TokenStream}

/-- Streams in the same place of similar lines. -/
def Similar (s t : TokenStream) : Prop :=
  ∃ lines, s.lines.Similar lines ∧ t = { s with lines }

lemma Similar.refl (s : TokenStream) : s.Similar s :=
  ⟨s.lines, .refl _, rfl⟩

namespace Similar

lemma file (h : s.Similar t) : t.file = s.file := by
  obtain ⟨_, ⟨rest, -, rfl⟩, rfl⟩ := h
  rfl

lemma location (h : s.Similar t) : t.location = s.location := by
  obtain ⟨_, ⟨rest, -, rfl⟩, rfl⟩ := h
  rfl

lemma upcoming (h : s.Similar t) : t.upcoming = s.upcoming := by
  obtain ⟨lines, -, rfl⟩ := h
  rfl

lemma stopAt (h : s.Similar t) (stop : Stop) : (s.stopAt stop).Similar (t.stopAt stop) := by
  obtain ⟨lines, hlines, rfl⟩ := h
  exact ⟨lines, hlines, rfl⟩

lemma load (h : s.Similar t) : Agree lax Similar s.load t.load := by
  have hupcoming := h.upcoming
  obtain ⟨lines, hlines, rfl⟩ := h
  unfold TokenStream.load
  rw [hupcoming]
  split
  · exact ⟨lines, hlines, rfl⟩
  · dsimp only
    have hnext : Agree lax _ _ _ := LineReader.next_similar hlines
    rcases hnext.split with
      ⟨damage, hs, hlax | ht⟩ | ⟨⟨line, r⟩, ⟨line', r'⟩, hs, ht, hline, hr⟩
    · rw [hs]
      exact .inl hlax
    · rw [hs, ht]
      exact .fail _
    · rw [hs, ht]
      cases hline with
      | none => exact ⟨lines, hlines, rfl⟩
      | some htext =>
        refine ⟨r', hr, ?_⟩
        obtain ⟨rest, -, rfl⟩ := hr
        rw [Token.ofLine, Token.ofLine, htext.1]

lemma next (h : s.Similar t) :
    Agree lax (fun x y => y.1 = x.1 ∧ x.2.Similar y.2) s.next t.next := by
  unfold TokenStream.next
  have hload : Agree lax _ s.load t.load := h.load
  rcases hload.split with ⟨damage, hs, hlax | ht⟩ | ⟨s', t', hs, ht, hst⟩
  · rw [hs]
    exact .inl hlax
  · rw [hs, ht]
    exact .fail _
  · rw [hs, ht]
    dsimp only
    rw [hst.upcoming]
    split
    · split
      · exact .fail _
      · exact ⟨rfl, hst.stopAt _⟩
    · refine ⟨?_, hst⟩
      obtain ⟨_, ⟨rest, -, rfl⟩, rfl⟩ := hst
      rfl

lemma pushBack (h : s.Similar t) : Agree lax Similar s.pushBack t.pushBack := by
  obtain ⟨_, ⟨rest, hrest, rfl⟩, rfl⟩ := h
  unfold TokenStream.pushBack
  dsimp only
  split
  · exact .fail _
  · split
    · exact .fail _
    · exact ⟨_, ⟨rest, hrest, rfl⟩, rfl⟩

lemma discardLine (h : s.Similar t) : Agree lax Similar s.discardLine t.discardLine := by
  unfold TokenStream.discardLine
  have hload : Agree lax _ s.load t.load := h.load
  rcases hload.split with ⟨damage, hs, hlax | ht⟩ | ⟨s', t', hs, ht, hst⟩
  · rw [hs]
    exact .inl hlax
  · rw [hs, ht]
    exact .fail _
  · rw [hs, ht]
    dsimp only
    rw [hst.upcoming]
    split
    · exact .fail _
    · split
      · exact hst.stopAt _
      · exact hst

lemma betweenLines (h : s.Similar t) (request : String) :
    t.betweenLines request = s.betweenLines request := by
  obtain ⟨_, ⟨rest, -, rfl⟩, rfl⟩ := h
  rfl

lemma readLine (h : s.Similar t) :
    Agree lax (fun x y => y.1 = x.1 ∧ x.2.Similar y.2) s.readLine t.readLine := by
  have hend : t.atKeptEnd = s.atKeptEnd := by
    obtain ⟨lines, -, rfl⟩ := h
    rfl
  unfold TokenStream.readLine
  rw [hend, h.betweenLines]
  split
  · exact ⟨rfl, h⟩
  · split
    · exact .fail _
    · obtain ⟨lines, hlines, rfl⟩ := h
      dsimp only
      have hnext : Agree lax _ _ _ := LineReader.nextRaw_similar hlines
      rcases hnext.split with
        ⟨damage, hs, hlax | ht⟩ | ⟨⟨line, r⟩, ⟨line', r'⟩, hs, ht, hline, hr⟩
      · rw [hs]
        exact .inl hlax
      · rw [hs, ht]
        exact .fail _
      · rw [hs, ht]
        obtain ⟨rest, hrest, rfl⟩ := hr
        exact ⟨hline, _, ⟨rest, hrest, rfl⟩, rfl⟩

lemma unreadLine (h : s.Similar t) (line : List Char) :
    Agree lax Similar (s.unreadLine line) (t.unreadLine line) := by
  unfold TokenStream.unreadLine
  rw [h.betweenLines]
  split
  · exact .fail _
  · obtain ⟨lines, hlines, rfl⟩ := h
    dsimp only
    have hback : Agree lax _ _ _ := LineReader.putBack_similar hlines line
    rcases hback.split with
      ⟨fault, hs, hlax | ht⟩ | ⟨r, r', hs, ht, hr⟩
    · rw [hs]
      exact .inl hlax
    · rw [hs, ht]
      exact .fail _
    · rw [hs, ht]
      exact ⟨r', hr, rfl⟩

lemma takeLines (p : List Char → Bool) (h : s.Similar t) :
    Agree lax (fun x y => y.1 = x.1 ∧ y.2.1 = x.2.1 ∧ x.2.2.Similar y.2.2) (s.takeLines p)
      (t.takeLines p) := by
  induction hpending : s.lines.pending using Nat.strongRecOn generalizing s t with | ind n ih
  have hline : Agree lax _ s.readLine t.readLine := h.readLine
  rcases hline.split with
    ⟨fault, hs, hlax | ht⟩ | ⟨⟨line, s'⟩, ⟨line', t'⟩, hs, ht, hline, hst⟩
  · rw [takeLines_of_error hs]
    exact .inl hlax
  · rw [takeLines_of_error hs, takeLines_of_error ht]
    exact .fail _
  · cases hline
    cases line with
    | none =>
      rw [takeLines_of_none hs, takeLines_of_none ht]
      exact ⟨rfl, rfl, hst⟩
    | some line =>
      rw [takeLines_of_some hs, takeLines_of_some ht]
      split
      · rcases (ih _ (hpending ▸ pending_of_readLine hs) hst rfl).split with
          ⟨fault, hs', hlax | ht'⟩ | ⟨⟨lines, stop, u⟩, ⟨_, _, u'⟩, hs', ht', rfl, rfl, hu⟩
        · rw [hs']
          exact .inl hlax
        · rw [hs', ht']
          exact .fail _
        · rw [hs', ht']
          exact ⟨rfl, rfl, hu⟩
      · have hback : Agree lax _ _ _ := hst.unreadLine line
        rcases hback.split with
          ⟨fault, hs', hlax | ht'⟩ | ⟨u, u', hs', ht', hu⟩
        · rw [hs']
          exact .inl hlax
        · rw [hs', ht']
          exact .fail _
        · rw [hs', ht']
          exact ⟨rfl, rfl, hu⟩

lemma readHelp (h : s.Similar t) :
    Agree lax (fun x y => y.1 = x.1 ∧ x.2.Similar y.2) (Directive.readHelp s)
      (Directive.readHelp t) := by
  unfold Directive.readHelp
  refine h.discardLine.bind fun s t h => ?_
  refine (h.takeLines _).bind ?_
  rintro ⟨blanks, first, s⟩ ⟨_, _, t⟩ ⟨rfl, rfl, h⟩
  dsimp only
  split
  · exact ⟨rfl, h⟩
  · split
    · exact ⟨rfl, h⟩
    · refine (h.takeLines _).bind ?_
      rintro ⟨lines, stop, s⟩ ⟨_, _, t⟩ ⟨rfl, rfl, h⟩
      exact ⟨rfl, h⟩

end Similar

end TokenStream

end Kconfig
