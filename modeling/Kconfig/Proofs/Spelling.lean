import Kconfig.Proofs.Streams
import Mathlib.Data.List.TakeWhile

/-!
# Spelling

Every word that the parser meets is cut out of a line: it is not empty, and all its characters are
word letters. The tokens that are still to be delivered are such at every state of a run, so a
symbol is a word.
-/

namespace Kconfig

/-- A text that a line gives as one word. -/
structure IsWord (text : String) : Prop where
  nonempty : text ≠ ""
  letters : ∀ c ∈ text.toList, isWordLetter c = true

def Lexeme.Spelled (lexeme : Lexeme) : Prop :=
  ∀ text, lexeme.wordText? = some text → IsWord text

namespace Lexeme

lemma spelled_of_wordText?_eq_none {lexeme : Lexeme} (h : lexeme.wordText? = none) :
    lexeme.Spelled := by
  intro text htext
  rw [h] at htext
  cases htext

lemma spelled_ofWord {word : List Char} (hne : word ≠ [])
    (hword : ∀ c ∈ word, isWordLetter c = true) : (ofWord word).Spelled := by
  intro text htext
  have htext' : text = .ofList word := by
    unfold ofWord at htext
    split at htext <;> exact (Option.some.inj htext).symm
  rw [htext']
  refine ⟨?_, ?_⟩
  · intro hempty
    exact hne (String.ofList_eq_empty_iff.1 hempty)
  · rw [String.toList_ofList]
    exact hword

lemma spelled_of_first? {line rest : List Char} {lexeme : Lexeme}
    (h : first? line = some (lexeme, rest)) : lexeme.Spelled := by
  unfold first? at h
  split at h
  · cases h
  · rename_i c cs hcs
    split at h
    · cases h
    · split at h
      · cases h
        exact spelled_of_wordText?_eq_none rfl
      · split at h
        · rename_i hletter
          cases h
          refine spelled_ofWord (List.cons_ne_nil _ _) ?_
          exact List.forall_mem_cons.2 ⟨hletter, fun _ => List.mem_takeWhile_imp⟩
        · cases h
          exact spelled_of_wordText?_eq_none rfl

lemma spelled_of_mem_scan (line : List Char) : ∀ lexeme ∈ scan line, lexeme.Spelled := by
  fun_induction scan line with
  | case1 line h => exact List.forall_mem_singleton.2 (spelled_of_wordText?_eq_none rfl)
  | case2 line lexeme rest h ih => exact List.forall_mem_cons.2 ⟨spelled_of_first? h, ih⟩

end Lexeme

namespace TokenStream

variable {s s' : TokenStream} {token : Token}

/-- All tokens of the present line that are still to be delivered are spelled. -/
def Spelled (s : TokenStream) : Prop :=
  ∀ token ∈ s.upcoming, token.lexeme.Spelled

lemma Spelled.load (h : s.Spelled) (hload : s.load = .ok s') : s'.Spelled := by
  rcases upcoming_of_load hload with hsame | hend | ⟨linenr, line, hline⟩
  · rw [Spelled, hsame]
    exact h
  · rw [Spelled, hend]
    exact List.forall_mem_singleton.2 (Lexeme.spelled_of_wordText?_eq_none rfl)
  · rw [Spelled, hline]
    exact List.forall_mem_map.2 (Lexeme.spelled_of_mem_scan line)

lemma upcoming_readLine {line : Option (List Char)} (h : s.readLine = .ok (line, s')) :
    s'.upcoming = s.upcoming := by
  unfold readLine at h
  split at h
  · cases h
    rfl
  · split at h
    · cases h
    · split at h
      · cases h
      · cases h
        rfl

lemma upcoming_unreadLine {line : List Char} (h : s.unreadLine line = .ok s') :
    s'.upcoming = s.upcoming := by
  unfold unreadLine at h
  split at h
  · cases h
  · split at h
    · cases h
    · cases h
      rfl

lemma upcoming_takeLines {p : List Char → Bool} {lines : List (List Char)}
    {stop : Option (List Char)} (h : s.takeLines p = .ok (lines, stop, s')) :
    s'.upcoming = s.upcoming := by
  fun_induction takeLines p s generalizing lines stop s' with
  | case1 s fault hread => cases h
  | case2 s t hread =>
    cases h
    exact upcoming_readLine hread
  | case3 s line t hread hp fault hrest ih => cases h
  | case4 s line t hread hp lines' stop' t' hrest ih =>
    cases h
    exact (ih hrest).trans (upcoming_readLine hread)
  | case5 s line t hread hp fault hunread => cases h
  | case6 s line t hread hp t' hunread =>
    cases h
    exact (upcoming_unreadLine hunread).trans (upcoming_readLine hread)

lemma stable_spelled : Stable Spelled where
  load := Spelled.load
  stopAt := by
    intro s stop h hstop token hmem
    rw [upcoming_stopAt] at hmem
    exact h token (hstop.subset hmem)
  takeLines := by
    intro s s' p lines stop h htake
    unfold Spelled
    rw [upcoming_takeLines htake]
    exact h

lemma Spelled.next (h : s.Spelled) (hnext : s.next = .ok (token, s')) : token.lexeme.Spelled := by
  obtain ⟨t, rest, hload, hupcoming, -⟩ := next_eq_ok.1 hnext
  exact h.load hload token (hupcoming ▸ List.mem_cons_self)

end TokenStream

lemma Context.Keeps.spelled_next {root : String} {ctx ctx' : Context} {token : Token}
    (h : ctx.Keeps root TokenStream.Spelled) (hnext : ctx.next = .ok (token, ctx')) :
    token.lexeme.Spelled := by
  obtain ⟨s, hs, hnext⟩ := bind_eq_ok.1 hnext
  obtain ⟨⟨token', s'⟩, hnext', hnext⟩ := bind_eq_ok.1 hnext
  cases pure_eq_ok.1 hnext
  exact (h.current hs).next hnext'

/-- At every state of a run, the tokens still to be delivered are spelled. -/
theorem Reachable.spelled {fs : FileSystem} {settings : Settings} {s : State}
    (h : Reachable fs settings s) : s.ctx.Keeps settings.root TokenStream.Spelled :=
  h.keeps TokenStream.stable_spelled fun _ _ _ _ hmem => nomatch hmem

end Kconfig
