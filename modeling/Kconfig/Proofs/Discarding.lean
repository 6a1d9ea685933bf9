import Kconfig.Proofs.RawLines
import Kconfig.Proofs.Spelling
import Kconfig.Proofs.Streams

/-!
# Discarding a line

To discard a line is to ask for its tokens one after the other until the end of the line, or of the
file, has been delivered. As each line has one end, behind all other tokens, this comes to going to
the last token at once, provided that all tokens can be delivered.
-/

namespace Kconfig

namespace TokenStream

variable {s t : TokenStream} {token : Token} {rest : List Token}

/-- Of what is left of the present line, the last token and no other is an end. -/
def EndsOnce (s : TokenStream) : Prop :=
  ∀ front token back, s.upcoming = front ++ token :: back →
    (token.lexeme.isEnd = true ↔ back = [])

lemma endsOnce_ofLine {n : Nat} {line : List Char} (h : s.upcoming = Token.ofLine n line) :
    s.EndsOnce := by
  obtain ⟨lexemes, hscan, hends⟩ := Lexeme.scan_eq_append line
  rw [Token.ofLine, hscan, List.map_append, List.map_singleton] at h
  intro front token back hsplit
  rw [h] at hsplit
  rcases List.eq_nil_or_concat back with rfl | ⟨back, last, rfl⟩
  · obtain ⟨-, hlast⟩ := List.append_inj' hsplit rfl
    cases hlast
    exact ⟨fun _ => rfl, fun _ => rfl⟩
  · rw [List.concat_eq_append, ← List.cons_append, ← List.append_assoc] at hsplit
    obtain ⟨hfront, -⟩ := List.append_inj' hsplit rfl
    have hmem : token ∈ lexemes.map fun lexeme => (⟨lexeme, n⟩ : Token) := by
      rw [hfront]
      exact List.mem_append_right _ List.mem_cons_self
    obtain ⟨lexeme, hlexeme, rfl⟩ := List.mem_map.1 hmem
    rw [hends lexeme hlexeme]
    simp

lemma EndsOnce.load (h : s.EndsOnce) (hload : s.load = .ok t) : t.EndsOnce := by
  rcases upcoming_of_load hload with hsame | hend | ⟨linenr, line, hline⟩
  · intro front token back hsplit
    exact h front token back (hsame.symm.trans hsplit)
  · intro front token back hsplit
    rw [hend] at hsplit
    cases front with
    | nil =>
      cases hsplit
      exact ⟨fun _ => rfl, fun _ => rfl⟩
    | cons first front => simp at hsplit
  · exact endsOnce_ofLine hline

lemma stable_endsOnce : Stable EndsOnce where
  load := EndsOnce.load
  stopAt := by
    intro s stop h hstop front token back hsplit
    obtain ⟨before, hbefore⟩ := hstop
    rw [upcoming_stopAt] at hsplit
    refine h (before ++ front) token back ?_
    rw [← hbefore, hsplit, List.append_assoc]
  takeLines := by
    intro s s' p lines stop h htake
    unfold EndsOnce
    rw [upcoming_takeLines htake]
    exact h

lemma EndsOnce.tail (h : s.EndsOnce) (hup : s.upcoming = token :: rest) :
    (s.stopAt { token, rest, kept := false }).EndsOnce := by
  refine stable_endsOnce.stopAt h ?_
  rw [hup]
  exact List.suffix_cons token rest

lemma discardCall_of_upcoming (hends : s.EndsOnce) (hup : s.upcoming = token :: rest) :
    (discardCall s).1.map (fun _ => (discardCall s).2) =
      match s.upcoming.findSome? (·.lexeme.excessDigits?) with
      | some digits => .error (.tooManyDigits digits)
      | none =>
        match s.upcoming.getLast? with
        | some token => .ok (s.stopAt { token, rest := [], kept := token.lexeme == .fileEnd })
        | none => .ok s := by
  induction rest generalizing s token with
  | nil =>
    have hend := (hends [] token [] hup).2 rfl
    have hdigits : token.lexeme.excessDigits? = none := by
      obtain ⟨lexeme, n⟩ := token
      cases lexeme <;> first | rfl | cases hend
    rw [hup, List.findSome?_singleton, hdigits, List.getLast?_singleton,
      discardCall_of_token (nextCall_of_deliverable hup (Token.isDeliverable_iff.2 hdigits))]
    obtain ⟨lexeme, n⟩ := token
    cases lexeme <;> first | rfl | cases hend
  | cons next rest ih =>
    have hend : ¬token.lexeme.isEnd = true := fun h => nomatch (hends [] token _ hup).1 h
    have hline : token.lexeme ≠ .lineEnd := fun h => hend (by rw [h]; rfl)
    have hfile : token.lexeme ≠ .fileEnd := fun h => hend (by rw [h]; rfl)
    cases hdigits : token.lexeme.excessDigits? with
    | some digits =>
      have hrefused : nextCall.perform s =
          (.error (.tooManyDigits digits),
            { s with rest := next :: rest, pushedBack := false }) := by
        rw [perform_nextCall, load_of_upcoming hup]
        simp only [hup, hdigits]
      rw [discardCall_of_fault hrefused, hup, List.findSome?_cons, hdigits]
      rfl
    | none =>
      rw [discardCall_of_token (nextCall_of_deliverable hup (Token.isDeliverable_iff.2 hdigits)),
        if_neg hline, if_neg hfile, ih (hends.tail hup) rfl, hup, List.findSome?_cons, hdigits,
        List.getLast?_cons_cons]
      rfl

/-- Asking for the tokens of the line one by one comes to discarding it. -/
theorem discardCall_eq_discardLine (hends : s.EndsOnce) :
    (discardCall s).1.map (fun _ => (discardCall s).2) = s.discardLine := by
  unfold discardLine
  cases hload : s.load with
  | error error =>
    have hfault : nextCall.perform s =
        (.error (.undecodable error), { s with lines := s.lines.afterDamage }) := by
      rw [perform_nextCall, hload]
    rw [discardCall_of_fault hfault]
    rfl
  | ok t =>
    obtain ⟨token, rest, hup⟩ := List.exists_cons_of_ne_nil (load_after hload).2
    have hsame : discardCall s = discardCall t := by
      have hnext : nextCall.perform s = nextCall.perform t := by
        rw [perform_nextCall, perform_nextCall, hload, load_of_upcoming hup]
      cases hresult : nextCall.perform t with
      | mk result stream =>
        cases result with
        | error fault =>
          rw [discardCall_of_fault hresult, discardCall_of_fault (hnext.trans hresult)]
        | ok token =>
          rw [discardCall_of_token hresult, discardCall_of_token (hnext.trans hresult)]
    rw [hsame]
    exact discardCall_of_upcoming (hends.load hload) hup

end TokenStream

theorem Reachable.discardLine_eq {fs : FileSystem} {settings : Settings} {s : State}
    (h : Reachable fs settings s) : s.ctx.Keeps settings.root fun stream =>
      (TokenStream.discardCall stream).1.map (fun _ => (TokenStream.discardCall stream).2) =
        stream.discardLine := by
  have hends : s.ctx.Keeps settings.root TokenStream.EndsOnce :=
    h.keeps TokenStream.stable_endsOnce fun _ _ _ front _ _ hsplit =>
      absurd hsplit.symm (List.append_ne_nil_of_right_ne_nil front (List.cons_ne_nil _ _))
  exact ⟨hends.root, fun stream hmem =>
    TokenStream.discardCall_eq_discardLine (hends.files stream hmem)⟩

end Kconfig
