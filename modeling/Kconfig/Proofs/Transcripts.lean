import Kconfig.Proofs.Pieces
import Kconfig.Proofs.Sessions

/-!
# Transcripts

A transcript keeps account of what is taken from the token stream of a file, whatever tokens and raw
lines are asked for. A token that has been put back is not taken again when it is delivered again,
and a raw line that is put back is no longer taken. The lines that have been read are then taken in
order, each once: raw, or as its tokens up to the end of the line.
-/

namespace Kconfig

namespace TokenStream

variable {s s' : TokenStream} {fault : Fault} {line : List Char}

lemma unreadLine_eq_ok (h : s.unreadLine line = .ok s') :
    ∃ reader, s.lines.putBack line = .ok reader ∧ s' = { s with lines := reader } := by
  unfold unreadLine at h
  split at h
  · cases h
  · split at h
    · cases h
    · rename_i reader hput
      cases h
      exact ⟨reader, hput, rfl⟩

lemma misuse_of_pushBack (h : s.pushBack = .error fault) : ∃ misuse, fault = .misuse misuse := by
  unfold pushBack at h
  split at h
  · cases h
    exact ⟨_, rfl⟩
  · split at h
    · cases h
      exact ⟨_, rfl⟩
    · cases h

lemma misuse_of_unreadLine (h : s.unreadLine line = .error fault) :
    ∃ misuse, fault = .misuse misuse := by
  unfold unreadLine betweenLines LineReader.putBack at h
  split at h
  · rename_i hbetween
    cases h
    split at hbetween
    · cases hbetween
      exact ⟨_, rfl⟩
    · cases hbetween
  · cases hunread : s.lines.unread with
    | none =>
      rw [hunread] at h
      cases h
    | some line =>
      rw [hunread] at h
      cases h
      exact ⟨_, rfl⟩

end TokenStream

structure Transcript where
  stream : TokenStream
  taken : List Piece := []
  /-- The raw line that the last request has read, if it has. -/
  justRead : Option (List Char) := none
  /-- The numbers where the lines start that have been put back. -/
  returned : List Nat := []
  deriving Repr, DecidableEq

namespace Transcript

open TokenStream

/-- A transcript at the beginning of a file. -/
def ofBytes (file : String) (bytes : List UInt8) : Transcript where
  stream := { lines := LineReader.ofBytes file bytes }

/-- The tokens that have been taken. -/
def tokens (t : Transcript) : List Token :=
  t.taken.filterMap Piece.token?

/-- The transcript after a request has been granted. -/
def granted (t : Transcript) (stream : TokenStream) (pieces : List Piece) : Transcript :=
  { t with
    stream
    taken := t.taken ++ pieces
    justRead := pieces.getLast?.bind Piece.raw? }

/-- The transcript after a request has failed. If it makes no sense, the raw line that has just been
read still can be put back. -/
def failed (t : Transcript) (fault : Fault) (stream : TokenStream) : Transcript :=
  { t with
    stream
    justRead := match fault with
      | .misuse _ => t.justRead
      | _ => none }

/-- Takes the next token, unless it has been put back and is delivered again. -/
def next (t : Transcript) : Except Fault Token × Transcript :=
  match TokenStream.nextCall.perform t.stream with
  | (.ok token, stream) =>
    (.ok token, t.granted stream (if t.stream.pushedBack then [] else [.token token]))
  | (.error fault, stream) => (.error fault, t.failed fault stream)

def pushBack (t : Transcript) : Except Fault Unit × Transcript :=
  match TokenStream.pushBackCall.perform t.stream with
  | (.ok (), stream) => (.ok (), t.granted stream [])
  | (.error fault, stream) => (.error fault, t.failed fault stream)

def follower : Follower Transcript where
  stream := stream
  next := next
  pushBack := pushBack
  perform_next := by
    intro t
    unfold next
    split <;> (rename_i h; exact h)
  perform_pushBack := by
    intro t
    unfold pushBack
    split <;> (rename_i h; exact h)

/-- Takes the tokens up to the end of the line. -/
def discardLine (t : Transcript) : Except Fault Unit × Transcript :=
  follower.discardLine t

def readLine (t : Transcript) : Except Fault (Option (List Char)) × Transcript :=
  match TokenStream.readLineCall.perform t.stream with
  | (.ok line, stream) => (.ok line, t.granted stream (line.toList.map .raw))
  | (.error fault, stream) => (.error fault, t.failed fault stream)

/-- Puts back the line that has just been read; where there is none, nothing is put back. -/
def unreadLine (t : Transcript) : Except Fault Unit × Transcript :=
  match t.justRead with
  | none => (.ok (), t)
  | some line =>
    match (TokenStream.unreadLineCall line).perform t.stream with
    | (.ok (), stream) => (.ok (), { t with
        stream
        taken := t.taken.dropLast
        justRead := none
        returned := t.stream.lines.lineStart :: t.returned })
    | (.error fault, stream) => (.error fault, t.failed fault stream)

/-- What a request delivers, and the transcript after it. -/
def perform (t : Transcript) : Request → Except Fault (Option Piece) × Transcript
  | .next => (t.next.1.map fun token => some (.token token), t.next.2)
  | .pushBack => (t.pushBack.1.map fun _ => none, t.pushBack.2)
  | .discardLine => (t.discardLine.1.map fun _ => none, t.discardLine.2)
  | .readLine => (t.readLine.1.map fun line => line.map .raw, t.readLine.2)
  | .unreadLine => (t.unreadLine.1.map fun _ => none, t.unreadLine.2)

def run (t : Transcript) (requests : List Request) : Transcript :=
  requests.foldl (fun t request => (t.perform request).2) t

variable {bytes : List UInt8} {before after : List Placed} {t t' : Transcript} {s : TokenStream}
  {misuse : Misuse}

lemma tokens_granted (t : Transcript) (s : TokenStream) (delivered : List Token) :
    (t.granted s (delivered.map .token)).tokens = t.tokens ++ delivered := by
  rw [granted, tokens, tokens, List.filterMap_append, List.filterMap_map]
  congr 1
  exact List.filterMap_some

/-- What has been taken, with the tokens that are left of the present line, are the pieces of the
lines read; the end of the file is delivered only when all lines have been. -/
structure Accounts (bytes : List UInt8) (before after : List Placed) (t : Transcript) : Prop where
  placed : Line.placed bytes = before ++ after
  errors : t.stream.lines.errors <:+ Stretch.errors bytes
  ahead : t.stream.lines.ahead = after.map (·.read t.returned)
  taken : ∃ pieces ends,
    t.taken ++ (t.stream.rest.filter Token.isDeliverable).map .token = pieces ++ ends.map .token ∧
      Placed.Taken t.returned before pieces ∧ (∀ token ∈ ends, token.lexeme = .fileEnd) ∧
        (ends ≠ [] → after = [])
  current : t.stream.current = t.tokens.getLast?
  deliverable : ∀ token ∈ t.stream.current, token.isDeliverable = true
  pushedBack : t.stream.pushedBack = true → t.stream.current ≠ none

/-- The line that has just been read is the last piece taken. -/
structure JustRead (before : List Placed) (t : Transcript) (line : List Char) : Prop where
  atLine : t.stream.AtLine
  unread : t.stream.lines.unread = none
  last : ∃ front pieces p, before = front ++ [p] ∧ line = Line.raw p.line.text ∧
    t.stream.lines.lineStart = p.start ∧ t.stream.lines.lastHeight = p.line.height ∧
      t.stream.lines.linenr + 1 = p.start + p.line.height ∧
        t.taken = pieces ++ [.raw line] ∧ Placed.Taken t.returned front pieces

/-- The transcript accounts for the lines of the file, at some position among them. -/
def Complete (bytes : List UInt8) (t : Transcript) : Prop :=
  ∃ before after, t.Accounts bytes before after ∧ ∀ line ∈ t.justRead, t.JustRead before line

lemma accounts_ofBytes (file : String) (bytes : List UInt8) :
    (ofBytes file bytes).Accounts bytes [] (Line.placed bytes) where
  placed := rfl
  errors := ⟨[], LineReader.errors_ofBytes file bytes⟩
  ahead := by
    have hread : (Placed.read [] : Placed → Placed) = id := funext Placed.read_nil
    change (LineReader.ofBytes file bytes).ahead = _
    rw [LineReader.ahead_ofBytes]
    exact ((congrArg (List.map · _) hread).trans (List.map_id _)).symm
  taken := ⟨[], [], rfl, .nil, List.forall_mem_nil _, fun h => absurd rfl h⟩
  current := rfl
  deliverable := fun _ hmem => nomatch hmem
  pushedBack := fun h => nomatch h

lemma complete_ofBytes (file : String) (bytes : List UInt8) : (ofBytes file bytes).Complete bytes :=
  ⟨_, _, accounts_ofBytes file bytes, fun _ hmem => nomatch hmem⟩

namespace Accounts

lemma complete (h : t.Accounts bytes before after) (hjustRead : t.justRead = none) :
    t.Complete bytes := by
  refine ⟨before, after, h, ?_⟩
  rw [hjustRead]
  exact fun _ hmem => nomatch hmem

lemma next_line {text : List Char} {reader : LineReader} (h : t.Accounts bytes before after)
    (hnext : t.stream.lines.next = .ok (some text, reader)) :
    ∃ p after', after = p :: after' ∧ text = p.textRead t.returned ∧
      reader.ahead = after'.map (·.read t.returned) ∧ reader.lineStart = p.start ∧
        reader.lastHeight = p.line.height ∧ reader.linenr + 1 = p.start + p.line.height ∧
          reader.unread = none ∧ reader.errors = t.stream.lines.errors := by
  obtain ⟨line, htext, hahead, hunread, herrors, hlast, hlinenr⟩ := LineReader.ahead_of_next hnext
  rw [h.ahead] at hahead
  cases after with
  | nil => cases hahead
  | cons p after' =>
    rw [List.map_cons, List.cons.injEq] at hahead
    obtain ⟨hp, hrest⟩ := hahead
    have hline := congrArg Placed.line hp
    have hstart := congrArg Placed.start hp
    subst hline
    exact ⟨p, after', rfl, htext, hrest.symm, hstart.symm, hlast, hstart ▸ hlinenr, hunread,
      herrors⟩

lemma taken_of_cons {p : Placed} (h : t.Accounts bytes before (p :: after)) :
    Placed.Taken t.returned before
      (t.taken ++ (t.stream.rest.filter Token.isDeliverable).map .token) := by
  obtain ⟨pieces, ends, htaken, hpieces, -, hlast⟩ := h.taken
  have hends : ends = [] := by
    by_contra hne
    cases hlast hne
  rw [hends, List.map_nil, List.append_nil] at htaken
  exact htaken ▸ hpieces

lemma atLine (h : t.Accounts bytes before after) (hnil : t.stream.upcoming = []) :
    t.stream.AtLine := by
  cases hpushed : t.stream.pushedBack with
  | true =>
    rw [TokenStream.upcoming, if_pos hpushed, List.append_eq_nil_iff,
      Option.toList_eq_nil_iff] at hnil
    exact absurd hnil.1 (h.pushedBack hpushed)
  | false =>
    rw [TokenStream.upcoming, hpushed, if_neg Bool.false_ne_true] at hnil
    exact ⟨hpushed, hnil⟩

lemma eq_nil {reader : LineReader} (h : t.Accounts bytes before after)
    (hnext : t.stream.lines.next = .ok (none, reader)) : after = [] :=
  List.map_eq_nil_iff.1 (h.ahead.symm.trans (LineReader.ahead_of_fileEnd h.errors hnext))

lemma load (h : t.Accounts bytes before after) (hload : t.stream.load = .ok s) :
    ∃ before' after', { t with stream := s }.Accounts bytes before' after' ∧
      s.pushedBack = t.stream.pushedBack := by
  unfold TokenStream.load at hload
  split at hload
  · cases hload
    exact ⟨before, after, h, rfl⟩
  · rename_i hnil
    have hline := h.atLine (Decidable.not_not.1 hnil)
    split at hload
    · cases hload
    · rename_i reader hnext
      cases hload
      obtain ⟨pieces, ends, htaken, hpieces, hends, -⟩ := h.taken
      rw [hline.rest, List.filter_nil, List.map_nil, List.append_nil] at htaken
      refine ⟨before, after, { h with taken := ?_ }, rfl⟩
      refine ⟨pieces, ends ++ [⟨.fileEnd, t.stream.linenr⟩], ?_, hpieces, ?_,
        fun _ => h.eq_nil hnext⟩
      · change t.taken ++ _ = _
        rw [htaken, List.map_append, List.append_assoc]
        rfl
      · exact List.forall_mem_append.2 ⟨hends, List.forall_mem_singleton.2 rfl⟩
    · rename_i text reader hnext
      cases hload
      obtain ⟨p, after', rfl, htext, hahead, hstart, -, -, -, herrors⟩ := h.next_line hnext
      have hpieces := h.taken_of_cons
      rw [hline.rest, List.filter_nil, List.map_nil, List.append_nil] at hpieces
      refine ⟨before ++ [p], after', ?_, rfl⟩
      exact
        { placed := h.placed.trans (List.append_cons _ _ _)
          errors := herrors ▸ h.errors
          ahead := hahead
          taken := by
            refine ⟨_, [], ?_, hpieces.ofLine p, List.forall_mem_nil _, fun hne => absurd rfl hne⟩
            rw [List.map_nil, List.append_nil, hstart, htext]
          current := h.current
          deliverable := h.deliverable
          pushedBack := h.pushedBack }

lemma upcoming_of_pushedBack (h : t.Accounts bytes before after)
    (hpushed : t.stream.pushedBack = true) :
    ∃ token, t.stream.current = some token ∧ t.stream.upcoming = token :: t.stream.rest := by
  obtain ⟨token, hcurrent⟩ := Option.ne_none_iff_exists'.1 (h.pushedBack hpushed)
  refine ⟨token, hcurrent, ?_⟩
  rw [TokenStream.upcoming, if_pos hpushed, hcurrent]
  rfl

/-- The first token of the present line is taken, but one that has been put back is not taken
again. -/
lemma deliver {token : Token} {rest : List Token} (h : t.Accounts bytes before after)
    (hup : t.stream.upcoming = token :: rest) (hdigits : token.isDeliverable = true) :
    (t.granted (t.stream.stopAt { token, rest, kept := false })
      (if t.stream.pushedBack then [] else [.token token])).Accounts bytes before after := by
  cases hpushed : t.stream.pushedBack with
  | true =>
    obtain ⟨back, hcurrent, hback⟩ := h.upcoming_of_pushedBack hpushed
    rw [hup, List.cons.injEq] at hback
    obtain ⟨rfl, rfl⟩ := hback
    rw [if_pos rfl]
    exact
      { h with
        taken := by
          change ∃ pieces ends, t.taken ++ [] ++ _ = _ ∧ _
          rw [List.append_nil]
          exact h.taken
        current := by
          change some token = (t.granted _ ([].map .token)).tokens.getLast?
          rw [tokens_granted, List.append_nil, ← h.current, hcurrent]
        deliverable := fun _ hmem => h.deliverable _ (hcurrent.trans hmem)
        pushedBack := fun hback => absurd hback Bool.false_ne_true }
  | false =>
    have hrest : t.stream.rest = token :: rest := by
      rw [← hup, TokenStream.upcoming, hpushed, if_neg Bool.false_ne_true]
    have htaken := h.taken
    rw [hrest, List.filter_cons_of_pos hdigits, List.map_cons, List.append_cons] at htaken
    exact
      { h with
        taken := htaken
        current := by
          change some token = (t.granted _ ([token].map .token)).tokens.getLast?
          rw [tokens_granted, List.getLast?_concat]
        deliverable := by
          rintro _ ⟨⟩
          exact hdigits
        pushedBack := fun hback => absurd hback Bool.false_ne_true }

lemma passOver {token : Token} {rest : List Token} (h : t.Accounts bytes before after)
    (hup : t.stream.upcoming = token :: rest) (hdigits : ¬token.isDeliverable = true) :
    { t with
      stream := { t.stream with rest, pushedBack := false } }.Accounts bytes before after := by
  have hpushed : t.stream.pushedBack = false := by
    by_contra hpushed
    obtain ⟨back, hcurrent, hback⟩ :=
      h.upcoming_of_pushedBack (Bool.eq_true_of_not_eq_false hpushed)
    rw [hup, List.cons.injEq] at hback
    exact hdigits (hback.1 ▸ h.deliverable back hcurrent)
  have hrest : t.stream.rest = token :: rest := by
    rw [← hup, TokenStream.upcoming, hpushed, if_neg Bool.false_ne_true]
  have htaken := h.taken
  rw [hrest, List.filter_cons_of_neg hdigits] at htaken
  exact { h with taken := htaken, pushedBack := fun hback => absurd hback Bool.false_ne_true }

lemma afterDamage {error : Text.DecodeError} (h : t.Accounts bytes before after)
    (hnext : t.stream.lines.next = .error error) :
    { t with
      stream :=
        { t.stream with lines := t.stream.lines.afterDamage } }.Accounts bytes before after :=
  { h with
    errors := (LineReader.errors_afterDamage _).trans h.errors
    ahead := (LineReader.ahead_afterDamage hnext).trans h.ahead }

lemma pushBack (h : t.Accounts bytes before after) (hpush : t.stream.pushBack = .ok s) :
    (t.granted s []).Accounts bytes before after := by
  unfold TokenStream.pushBack at hpush
  split at hpush
  · cases hpush
  · split at hpush
    · cases hpush
    · rename_i hcurrent
      cases hpush
      rw [granted, List.append_nil]
      exact { h with pushedBack := fun _ hnone => hcurrent (by rw [show _ = none from hnone]; rfl) }

lemma readLine {line : Option (List Char)} (h : t.Accounts bytes before after)
    (hread : t.stream.readLine = .ok (line, s)) :
    (t.granted s (line.toList.map .raw)).Complete bytes := by
  cases line with
  | none =>
    refine ⟨before, after, ?_, fun _ hmem => nomatch hmem⟩
    rw [Option.toList_none, List.map_nil, granted, List.append_nil]
    rcases readLine_eq_none hread with rfl | ⟨-, rfl⟩
    · exact { h with }
    · exact { h with }
  | some line =>
    obtain ⟨hline, text, reader, hnext, rfl, rfl⟩ := readLine_eq_some hread
    obtain ⟨p, after', rfl, rfl, hahead, hstart, hlast, hlinenr, hunread, herrors⟩ :=
      h.next_line hnext
    have hpieces := h.taken_of_cons
    rw [hline.rest, List.filter_nil, List.map_nil, List.append_nil] at hpieces
    have hraw : Line.raw (p.textRead t.returned) = Line.raw p.line.text := by
      rw [Placed.textRead]
      split
      · exact Line.raw_raw _
      · rfl
    rw [hraw]
    have htokens : (t.granted (t.stream.movedTo reader reader.lineStart)
        [.raw (Line.raw p.line.text)]).tokens = t.tokens := by
      rw [granted, tokens, tokens, List.filterMap_append]
      exact List.append_nil _
    refine ⟨before ++ [p], after', ?_, ?_⟩
    · exact
        { placed := h.placed.trans (List.append_cons _ _ _)
          errors := herrors ▸ h.errors
          ahead := hahead
          taken := by
            refine ⟨_, [], ?_, hpieces.raw p, List.forall_mem_nil _, fun hne => absurd rfl hne⟩
            change _ ++ (t.stream.rest.filter Token.isDeliverable).map Piece.token = _
            rw [hline.rest]
            rfl
          current := h.current.trans (congrArg List.getLast? htokens.symm)
          deliverable := h.deliverable
          pushedBack := h.pushedBack }
    · rintro _ ⟨⟩
      exact ⟨⟨hline.pushedBack, hline.rest⟩, hunread, before, t.taken, p, rfl, rfl, hstart, hlast,
        hlinenr, rfl, hpieces⟩

lemma unreadLine {line : List Char} (h : t.Accounts bytes before after)
    (hline : t.JustRead before line) (hunread : t.stream.unreadLine line = .ok s) :
    ∃ before' after', { t with
      stream := s
      taken := t.taken.dropLast
      justRead := none
      returned := t.stream.lines.lineStart :: t.returned }.Accounts bytes before' after' := by
  obtain ⟨hat, hnone, front, pieces, p, rfl, rfl, hstart, hheight, hlinenr, htaken, hpieces⟩ :=
    hline
  obtain ⟨reader, hput, rfl⟩ := unreadLine_eq_ok hunread
  have hpairwise := Line.pairwise_placed bytes
  rw [h.placed, List.append_assoc, List.singleton_append] at hpairwise
  obtain ⟨-, hafter, hfront⟩ := List.pairwise_append.1 hpairwise
  have hfront : ∀ q ∈ front, q.start ≠ p.start := fun q hq =>
    Nat.ne_of_lt (hfront q hq p List.mem_cons_self)
  have hafter : ∀ q ∈ after, q.start ≠ p.start := fun q hq =>
    Nat.ne_of_gt ((List.pairwise_cons.1 hafter).1 q hq)
  have hpositive : 0 < p.start := Line.start_pos (h.placed ▸ by simp : p ∈ Line.placed bytes)
  obtain ⟨herrors, hahead⟩ := LineReader.ahead_putBack hnone (by omega) hput
  refine ⟨front, p :: after, ?_⟩
  exact
    { placed := h.placed.trans (List.append_cons _ _ _).symm
      errors := herrors ▸ h.errors
      ahead := by
        have hnumber : t.stream.lines.linenr - t.stream.lines.lastHeight + 1 = p.start := by omega
        change reader.ahead =
          (p :: after).map (·.read (t.stream.lines.lineStart :: t.returned))
        rw [hahead, hnumber, hheight, hstart, List.map_cons, Placed.map_read_cons hafter, h.ahead,
          Placed.read, Placed.textRead, if_pos List.mem_cons_self]
      taken := by
        refine ⟨pieces, [], ?_, ?_, List.forall_mem_nil _, fun hne => absurd rfl hne⟩
        · change t.taken.dropLast ++ (t.stream.rest.filter _).map _ = _
          rw [htaken, List.dropLast_concat, hat.rest]
          rfl
        · change Placed.Taken (t.stream.lines.lineStart :: t.returned) _ _
          rw [hstart]
          exact hpieces.putBack hfront
      current := by
        have hlast := h.current
        rw [tokens, htaken, List.filterMap_append] at hlast
        rw [tokens, htaken, List.dropLast_concat]
        exact hlast.trans (congrArg List.getLast? (List.append_nil _))
      deliverable := h.deliverable
      pushedBack := h.pushedBack }

end Accounts

namespace Complete

lemma refused (h : t.Complete bytes) (misuse : Misuse) :
    (t.failed (.misuse misuse) t.stream).Complete bytes :=
  h

lemma next (h : t.Complete bytes) : t.next.2.Complete bytes := by
  obtain ⟨before, after, h, -⟩ := h
  unfold Transcript.next
  split
  · rename_i token stream hperform
    obtain ⟨present, rest, hload, hup, hdigits, rfl⟩ :=
      TokenStream.next_eq_ok.1 (next_eq_of_perform hperform)
    obtain ⟨before', after', h', hpushed⟩ := h.load hload
    have hdelivered := h'.deliver hup (Token.isDeliverable_iff.2 hdigits)
    dsimp only at hdelivered
    rw [hpushed] at hdelivered
    refine Accounts.complete hdelivered ?_
    cases t.stream.pushedBack <;> rfl
  · rename_i fault stream hperform
    obtain ⟨error, rfl, hnext, rfl⟩ |
        ⟨digits, present, token, rest, rfl, hload, hup, hdigits, rfl⟩ :=
      fault_of_nextCall hperform
    · exact Accounts.complete { h.afterDamage hnext with } rfl
    · obtain ⟨before', after', h', -⟩ := h.load hload
      have hrefused : ¬token.isDeliverable = true := by
        simp [Token.isDeliverable_iff, hdigits]
      exact Accounts.complete { h'.passOver hup hrefused with } rfl

lemma pushBack (h : t.Complete bytes) : t.pushBack.2.Complete bytes := by
  unfold Transcript.pushBack
  rw [perform_pushBackCall]
  cases hpush : t.stream.pushBack with
  | ok stream =>
    obtain ⟨before, after, h, -⟩ := h
    exact (h.pushBack hpush).complete rfl
  | error fault =>
    obtain ⟨misuse, rfl⟩ := misuse_of_pushBack hpush
    exact h.refused misuse

lemma of_next {result : Except Fault Token} (h : t.Complete bytes)
    (hnext : follower.next t = (result, t')) : t'.Complete bytes := by
  have hkept : (follower.next t).2.Complete bytes := h.next
  rwa [hnext] at hkept

lemma discardLine (h : t.Complete bytes) : t.discardLine.2.Complete bytes := by
  unfold Transcript.discardLine
  fun_induction Follower.discardLine follower t with
  | case1 t fault t' hnext => exact h.of_next hnext
  | case2 t token t' hnext hline => exact h.of_next hnext
  | case3 t token t' hnext hline hend => exact (h.of_next hnext).pushBack
  | case4 t token t' hnext hline hend ih => exact ih (h.of_next hnext)

lemma readLine (h : t.Complete bytes) : t.readLine.2.Complete bytes := by
  unfold Transcript.readLine
  split
  · rename_i line stream hperform
    obtain ⟨before, after, h, -⟩ := h
    exact h.readLine (readLine_eq_of_perform hperform)
  · rename_i fault stream hperform
    obtain ⟨misuse, rfl, rfl⟩ | ⟨error, rfl, hnext, rfl⟩ := fault_of_readLineCall hperform
    · exact h.refused misuse
    · obtain ⟨before, after, h, -⟩ := h
      exact Accounts.complete { h.afterDamage hnext with } rfl

lemma unreadLine (h : t.Complete bytes) : t.unreadLine.2.Complete bytes := by
  unfold Transcript.unreadLine
  cases hline : t.justRead with
  | none => exact h
  | some line =>
    dsimp only
    rw [perform_unreadLineCall]
    cases hunread : t.stream.unreadLine line with
    | ok stream =>
      obtain ⟨before, after, h, hread⟩ := h
      obtain ⟨before', after', h'⟩ := h.unreadLine (hread line hline) hunread
      exact h'.complete rfl
    | error fault =>
      obtain ⟨misuse, rfl⟩ := misuse_of_unreadLine hunread
      exact h.refused misuse

/-- Every request leads from one position in the file to another. -/
theorem perform (h : t.Complete bytes) (request : Request) :
    (t.perform request).2.Complete bytes := by
  cases request with
  | next => exact h.next
  | pushBack => exact h.pushBack
  | discardLine => exact h.discardLine
  | readLine => exact h.readLine
  | unreadLine => exact h.unreadLine

theorem run (h : t.Complete bytes) (requests : List Request) : (t.run requests).Complete bytes := by
  induction requests generalizing t with
  | nil => exact h
  | cons request requests ih => exact ih (h.perform request)

end Complete

lemma map_eq_error {α β : Type} {f : α → β} {x : Except Fault α} {fault : Fault}
    (h : x.map f = .error fault) : x = .error fault := by
  cases x with
  | error fault' =>
    cases h
    rfl
  | ok a => cases h

lemma next_ne_misuse (t : Transcript) : t.next.1 ≠ .error (.misuse misuse) := by
  intro h
  unfold next at h
  split at h
  · cases h
  · rename_i fault stream hperform
    cases h
    obtain ⟨error, hfault, -⟩ | ⟨digits, present, token, rest, hfault, -⟩ :=
      fault_of_nextCall hperform
    · cases hfault
    · cases hfault

lemma refused_pushBack (h : t.pushBack = (.error (.misuse misuse), t')) : t' = t := by
  unfold pushBack at h
  rw [perform_pushBackCall] at h
  cases hpush : t.stream.pushBack with
  | ok stream =>
    rw [hpush] at h
    cases h
  | error fault =>
    rw [hpush] at h
    cases h
    rfl

lemma pushBack_of_next {token : Token} (h : t.next = (.ok token, t')) :
    t'.pushBack.1 = .ok () := by
  obtain ⟨-, hcurrent, hpushed⟩ := next_after (follower.next_eq_ok h)
  have hpush : t'.stream.pushBack = .ok { t'.stream with pushedBack := true } := by
    change (follower.stream t').pushBack = _
    unfold TokenStream.pushBack
    rw [if_neg (by simp [hpushed]), if_neg (by simp [hcurrent])]
    rfl
  unfold pushBack
  rw [perform_pushBackCall, hpush]

lemma discardLine_ne_misuse (t : Transcript) : t.discardLine.1 ≠ .error (.misuse misuse) := by
  unfold discardLine
  fun_induction Follower.discardLine follower t with
  | case1 t fault t' hnext =>
    have hne : (follower.next t).1 ≠ .error (.misuse misuse) := t.next_ne_misuse
    rw [hnext] at hne
    rintro ⟨⟩
    exact hne rfl
  | case2 => rintro ⟨⟩
  | case3 t token t' hnext hline hend =>
    change t'.pushBack.1 ≠ _
    rw [pushBack_of_next hnext]
    rintro ⟨⟩
  | case4 t token t' hnext hline hend ih => exact ih

lemma refused_readLine (h : t.readLine = (.error (.misuse misuse), t')) : t' = t := by
  unfold readLine at h
  split at h
  · cases h
  · rename_i fault stream hperform
    cases h
    obtain ⟨misuse, hfault, rfl⟩ | ⟨error, hfault, -⟩ := fault_of_readLineCall hperform
    · rfl
    · cases hfault

lemma refused_unreadLine (h : t.unreadLine = (.error (.misuse misuse), t')) : t' = t := by
  unfold unreadLine at h
  split at h
  · cases h
  · rename_i line hline
    rw [perform_unreadLineCall] at h
    cases hunread : t.stream.unreadLine line with
    | ok stream =>
      rw [hunread] at h
      cases h
    | error fault =>
      rw [hunread] at h
      cases h
      rfl

/-- A request that makes no sense changes nothing. -/
theorem refused_perform {request : Request}
    (h : t.perform request = (.error (.misuse misuse), t')) : t' = t := by
  cases request with
  | next =>
    obtain ⟨hresult, -⟩ := Prod.mk.inj h
    exact absurd (map_eq_error hresult) t.next_ne_misuse
  | pushBack =>
    obtain ⟨hresult, rfl⟩ := Prod.mk.inj h
    exact refused_pushBack (Prod.ext (map_eq_error hresult) rfl)
  | discardLine =>
    obtain ⟨hresult, -⟩ := Prod.mk.inj h
    exact absurd (map_eq_error hresult) t.discardLine_ne_misuse
  | readLine =>
    obtain ⟨hresult, rfl⟩ := Prod.mk.inj h
    exact refused_readLine (Prod.ext (map_eq_error hresult) rfl)
  | unreadLine =>
    obtain ⟨hresult, rfl⟩ := Prod.mk.inj h
    exact refused_unreadLine (Prod.ext (map_eq_error hresult) rfl)

lemma Accounts.next_of_pushedBack (h : t.Accounts bytes before after)
    (hpushed : t.stream.pushedBack = true) :
    ∃ token, t.tokens.getLast? = some token ∧ t.next.1 = .ok token ∧ t.next.2.taken = t.taken := by
  obtain ⟨token, hcurrent, hup⟩ := h.upcoming_of_pushedBack hpushed
  refine ⟨token, h.current.symm.trans hcurrent, ?_⟩
  unfold Transcript.next
  rw [nextCall_of_deliverable hup (h.deliverable token hcurrent), hpushed]
  exact ⟨rfl, List.append_nil _⟩

end Transcript

open Transcript

/-- After any requests, a request that makes no sense changes nothing; what has been taken, with
what is left of the present line, are the pieces of the lines read so far, in order and each once,
and then the end of the file, which is delivered only when all lines have been read; and a token
that has been put back is delivered next. -/
theorem taken_of_requests {file : String} {bytes : List UInt8} {requests : List Request}
    {t : Transcript} (h : (Transcript.ofBytes file bytes).run requests = t) :
    (∀ request misuse t', t.perform request = (.error (.misuse misuse), t') → t' = t) ∧
      (∃ before after pieces ends, Line.placed bytes = before ++ after ∧
        t.stream.lines.ahead = after.map (·.read t.returned) ∧
          t.taken ++ (t.stream.rest.filter Token.isDeliverable).map .token =
            pieces ++ ends.map .token ∧ Placed.Taken t.returned before pieces ∧
              (∀ token ∈ ends, token.lexeme = .fileEnd) ∧ (ends ≠ [] → after = [])) ∧
        (t.stream.pushedBack = true → ∃ token, t.tokens.getLast? = some token ∧
          t.next.1 = .ok token ∧ t.next.2.taken = t.taken) := by
  obtain ⟨before, after, haccounts, -⟩ := h ▸ (complete_ofBytes file bytes).run requests
  obtain ⟨pieces, ends, htaken⟩ := haccounts.taken
  exact ⟨fun _ _ _ => refused_perform, ⟨before, after, pieces, ends, haccounts.placed,
    haccounts.ahead, htaken⟩, haccounts.next_of_pushedBack⟩

/-- A line that is discarded from its second token on, one that is read raw and put back twice
before its tokens are read, and one that is read raw. -/
def mixed : Transcript :=
  (ofBytes "K" "config A\nbool # \"b\"\n  text \n".toUTF8.toList).run
    [.next, .pushBack, .next, .readLine, .discardLine, .readLine, .unreadLine, .readLine,
      .unreadLine, .next, .next, .readLine, .discardLine, .next, .next]

theorem taken_of_requests_mixed :
    mixed.taken = [.token ⟨.word "config", 1⟩, .token ⟨.word "A", 1⟩, .token ⟨.lineEnd, 1⟩,
        .token ⟨.word "bool", 2⟩, .token ⟨.lineEnd, 2⟩, .raw "  text".toList,
        .token ⟨.fileEnd, 3⟩, .token ⟨.fileEnd, 3⟩] ∧
      ∃ before after pieces ends, [⟨⟨"config A".toList, 1⟩, 1⟩, ⟨⟨"bool # \"b\"".toList, 1⟩, 2⟩,
          ⟨⟨"  text ".toList, 1⟩, 3⟩] = before ++ after ∧
        mixed.taken = pieces ++ ends.map .token ∧ Placed.Taken [2, 2] before pieces ∧
          (∀ token ∈ ends, token.lexeme = .fileEnd) ∧ (ends ≠ [] → after = []) := by
  obtain ⟨-, ⟨before, after, pieces, ends, hplaced, -, htaken, hpieces, hends⟩, -⟩ :=
    taken_of_requests (t := mixed) rfl
  have hrest : mixed.stream.rest = [] := by decide +kernel
  have hreturned : mixed.returned = [2, 2] := by decide +kernel
  rw [hrest, List.filter_nil, List.map_nil, List.append_nil] at htaken
  rw [hreturned] at hpieces
  refine ⟨by decide +kernel, before, after, pieces, ends, ?_, htaken, hpieces, hends⟩
  rw [← hplaced]
  decide +kernel

/-- The tokens of a line that has been put back are not those of the line if a text in quotes holds
a `#`. -/
theorem taken_ne_of_quoted_hash :
    ((Transcript.ofBytes "K" "prompt \"a # b\"\n".toUTF8.toList).run
        [.readLine, .unreadLine, .next, .next, .next]).taken =
      [.token ⟨.word "prompt", 1⟩, .token ⟨.quoted '"' "a", 1⟩, .token ⟨.lineEnd, 1⟩] ∧
    (Token.ofLine 1 "prompt \"a # b\"".toList).map Piece.token =
      [.token ⟨.word "prompt", 1⟩, .token ⟨.quoted '"' "a # b", 1⟩, .token ⟨.lineEnd, 1⟩] :=
  ⟨by decide +kernel, by decide +kernel⟩

end Kconfig
