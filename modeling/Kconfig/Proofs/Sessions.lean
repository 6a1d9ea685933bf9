import Kconfig.Proofs.Positions
import Kconfig.TokenStream.Calls

/-!
# Sessions

A session is a sequence of requests to the token stream of one file. Beside the stream it keeps what
no counter shows: the line that the token delivered last comes from, and the raw line that can be
put back. Every token that a session delivers carries the number of the line it comes from. -/

namespace Kconfig

inductive Request where
  | next
  | pushBack
  | discardLine
  | readLine
  /-- Puts back the raw line that has been read last. -/
  | unreadLine
  deriving Repr, DecidableEq

structure Session where
  /-- The lines of the file. -/
  lines : List Line
  stream : TokenStream
  /-- The index of the line that the token delivered or passed over last comes from. -/
  origin : Nat := 0
  /-- The raw line that has been read, as long as no other line is. -/
  justRead : Option (List Char) := none
  deriving Repr, DecidableEq

namespace Session

open TokenStream

/-- A session at the beginning of a file. -/
def ofBytes (file : String) (bytes : List UInt8) : Session where
  lines := (Line.ofBytes bytes).1
  stream := { lines := LineReader.ofBytes file bytes }

/-- The session after a token has been delivered: one that has been put back, or one of the line
that is present. -/
def goOn (s : Session) (stream : TokenStream) (again : Bool) : Session :=
  { s with
    stream
    origin := if again then s.origin else stream.present s.lines
    justRead := if stream.lines = s.stream.lines then s.justRead else none }

/-- The session after a request has failed. -/
def failed (s : Session) (stream : TokenStream) : Session :=
  { s with
    stream
    justRead := if stream.lines = s.stream.lines then s.justRead else none }

def next (s : Session) : Except Fault Token × Session :=
  match TokenStream.nextCall.perform s.stream with
  | (.ok token, stream) => (.ok token, s.goOn stream s.stream.pushedBack)
  | (.error fault, stream) => (.error fault, s.failed stream)

def pushBack (s : Session) : Except Fault Unit × Session :=
  match TokenStream.pushBackCall.perform s.stream with
  | (.ok (), stream) => (.ok (), { s with stream })
  | (.error fault, stream) => (.error fault, s.failed stream)

def follower : Follower Session where
  stream := stream
  next := next
  pushBack := pushBack
  perform_next := by
    intro s
    unfold next
    split <;> (rename_i h; exact h)
  perform_pushBack := by
    intro s
    unfold pushBack
    split <;> (rename_i h; exact h)

/-- Delivers the tokens up to the end of the line, one after the other. -/
def discardLine (s : Session) : Except Fault Unit × Session :=
  follower.discardLine s

def readLine (s : Session) : Except Fault Unit × Session :=
  match TokenStream.readLineCall.perform s.stream with
  | (.ok line, stream) => (.ok (), { s with stream, justRead := line.or s.justRead })
  | (.error fault, stream) => (.error fault, s.failed stream)

/-- Puts back the line that has just been read; where there is none, nothing is put back. -/
def unreadLine (s : Session) : Except Fault Unit × Session :=
  match s.justRead with
  | none => (.ok (), s)
  | some line =>
    match (TokenStream.unreadLineCall line).perform s.stream with
    | (.ok (), stream) => (.ok (), { s with stream, justRead := none })
    | (.error fault, stream) => (.error fault, s.failed stream)

/-- What a request gives: the token that it delivers, if it does, and the session after it. -/
def step (s : Session) : Request → Except Fault (Option Token) × Session
  | .next => (s.next.1.map some, s.next.2)
  | .pushBack => (s.pushBack.1.map fun _ => none, s.pushBack.2)
  | .discardLine => (s.discardLine.1.map fun _ => none, s.discardLine.2)
  | .readLine => (s.readLine.1.map fun _ => none, s.readLine.2)
  | .unreadLine => (s.unreadLine.1.map fun _ => none, s.unreadLine.2)

/-- The tokens that a sequence of requests delivers, each with the index of the line it comes from.
The session ends where the file cannot be read; otherwise it goes on after a request that fails. -/
def deliveries (s : Session) : List Request → List (Token × Nat)
  | [] => []
  | request :: requests =>
    match s.step request with
    | (.error (.undecodable _), _) => []
    | (.error _, s) => s.deliveries requests
    | (.ok token, s) => token.toList.map (fun token => (token, s.origin)) ++ s.deliveries requests

variable {before after : List Line} {s s' : Session} {t : TokenStream}

/-- The position of a session in its file. -/
structure At (before after : List Line) (s : Session) : Prop where
  lines : s.lines = before ++ after
  reader : s.stream.lines.Between before after
  rest : ∀ token ∈ s.stream.rest, token.From s.lines (before.length - 1)
  current : ∀ token ∈ s.stream.current, token.From s.lines s.origin
  pushedBack : s.stream.pushedBack = true → s.stream.current ≠ none
  justRead : ∀ raw ∈ s.justRead, s.stream.lines.unread = none ∧
    ∃ front line, before = front ++ [line] ∧ raw = Line.raw line.text

lemma at_ofBytes (file : String) (bytes : List UInt8) :
    (ofBytes file bytes).At [] (Line.ofBytes bytes).1 where
  lines := rfl
  reader := LineReader.between_ofBytes file bytes
  rest := fun _ hmem => nomatch hmem
  current := fun _ hmem => nomatch hmem
  pushedBack := fun h => nomatch h
  justRead := fun _ hmem => nomatch hmem

lemma At.load (h : s.At before after) (hload : s.stream.load = .ok t) :
    ∃ before' after', s.lines = before' ++ after' ∧ t.lines.Between before' after' ∧
      (∀ token ∈ t.rest, token.From s.lines (before'.length - 1)) ∧
        (t.lines = s.stream.lines → before' = before) ∧ t.current = s.stream.current := by
  cases loads_of_load h.reader hload with
  | present => exact ⟨before, after, h.lines, h.reader, h.rest, fun _ => rfl, rfl⟩
  | fileEnd hnil =>
    refine ⟨before, after, h.lines, h.reader, ?_, fun _ => rfl, rfl⟩
    exact List.forall_mem_singleton.2 fun hend => absurd rfl hend
  | @next line after' reader text hnil hafter hreader htext hstart =>
    subst hafter
    have hlines := h.lines
    refine ⟨before ++ [line], after', ?_, hreader, ?_, fun heq => ?_, rfl⟩
    · rw [hlines, List.append_cons]
    · rw [hlines, List.length_append, List.length_singleton, Nat.add_sub_cancel]
      change ∀ token ∈ Token.ofLine reader.lineStart text, _
      rw [hstart]
      exact fun token hmem => Token.from_ofLine htext hmem
    · -- Fewer lines are pending, so the reader is not where it was.
      have hpending := hreader.pending
      rw [show reader = s.stream.lines from heq, h.reader.pending, List.length_cons] at hpending
      omega

lemma At.upcoming (h : s.At before after) (hload : s.stream.load = .ok t) :
    (s.stream.pushedBack = true ∧
      ∃ token, s.stream.current = some token ∧ t.upcoming = token :: t.rest) ∨
    s.stream.pushedBack = false ∧ t.upcoming = t.rest := by
  cases hpushed : s.stream.pushedBack with
  | true =>
    obtain ⟨token, hcurrent⟩ := Option.ne_none_iff_exists'.1 (h.pushedBack hpushed)
    have hupcoming : s.stream.upcoming = token :: s.stream.rest := by
      rw [TokenStream.upcoming, hpushed, if_pos rfl, hcurrent]
      rfl
    rw [TokenStream.load, if_pos (by rw [hupcoming]; exact List.cons_ne_nil _ _)] at hload
    cases hload
    exact .inl ⟨rfl, token, hcurrent, hupcoming⟩
  | false =>
    refine .inr ⟨rfl, ?_⟩
    have hpushed' : t.pushedBack = false := by
      cases loads_of_load h.reader hload <;> exact hpushed
    rw [TokenStream.upcoming, hpushed', if_neg Bool.false_ne_true]

lemma At.subset_rest {first : Token} {rest : List Token} (h : s.At before after)
    (hload : s.stream.load = .ok t) (hup : t.upcoming = first :: rest) : rest ⊆ t.rest := by
  rcases h.upcoming hload with ⟨-, back, -, hback⟩ | ⟨-, hback⟩
  · rw [hup, List.cons.injEq] at hback
    rw [hback.2]
    exact List.Subset.refl _
  · rw [← hback, hup]
    exact List.subset_cons_self _ _

lemma At.stillRead (h : s.At before after) {before' : List Line} {lines : LineReader}
    (hsame : lines = s.stream.lines → before' = before) :
    ∀ raw ∈ (if lines = s.stream.lines then s.justRead else none), lines.unread = none ∧
      ∃ front line, before' = front ++ [line] ∧ raw = Line.raw line.text := by
  intro raw hmem
  split at hmem
  · rename_i heq
    rw [hsame heq, heq]
    exact h.justRead raw hmem
  · cases hmem

lemma At.next {token : Token} (h : s.At before after) (hnext : s.stream.next = .ok (token, t)) :
    ∃ before' after', (s.goOn t s.stream.pushedBack).At before' after' := by
  obtain ⟨u, rest, hload, hup, -, rfl⟩ := TokenStream.next_eq_ok.1 hnext
  obtain ⟨before', after', hlines, hreader, hrest, hsame, -⟩ := h.load hload
  have htoken : (s.stream.pushedBack = true ∧ s.stream.current = some token) ∨
      (s.stream.pushedBack = false ∧ token ∈ u.rest) := by
    rcases h.upcoming hload with ⟨hpushed, back, hcurrent, hback⟩ | ⟨hpushed, hback⟩
    · rw [hup, List.cons.injEq] at hback
      exact .inl ⟨hpushed, hback.1 ▸ hcurrent⟩
    · rw [hup] at hback
      exact .inr ⟨hpushed, hback ▸ List.mem_cons_self⟩
  have hsub := h.subset_rest hload hup
  refine ⟨before', after', ?_⟩
  exact
    { lines := hlines
      reader := hreader
      rest := fun token hmem => hrest token (hsub hmem)
      current := by
        rintro _ ⟨⟩
        rcases htoken with ⟨hpushed, hcurrent⟩ | ⟨hpushed, hmem⟩
        · rw [hpushed]
          exact h.current _ hcurrent
        · have hpresent : present s.lines (u.stopAt { token, rest, kept := false }) =
              before'.length - 1 := by
            rw [hlines]
            exact present_eq hreader
          rw [hpushed]
          change Token.From s.lines (present s.lines _) token
          rw [hpresent]
          exact hrest _ hmem
      pushedBack := fun hpushed => nomatch hpushed
      justRead := h.stillRead hsame }

lemma At.passOver {first : Token} {rest : List Token} (h : s.At before after)
    (hload : s.stream.load = .ok t) (hup : t.upcoming = first :: rest) :
    ∃ before' after', (s.failed { t with rest, pushedBack := false }).At before' after' := by
  obtain ⟨before', after', hlines, hreader, hrest, hsame, hcurrent⟩ := h.load hload
  have hsub := h.subset_rest hload hup
  refine ⟨before', after', ?_⟩
  exact
    { lines := hlines
      reader := hreader
      rest := fun token hmem => hrest token (hsub hmem)
      current := fun token hmem => h.current token (hcurrent ▸ hmem)
      pushedBack := fun hpushed => nomatch hpushed
      justRead := h.stillRead hsame }

lemma At.pushBack (h : s.At before after) (hpush : s.stream.pushBack = .ok t) :
    { s with stream := t }.At before after := by
  unfold TokenStream.pushBack at hpush
  split at hpush
  · cases hpush
  · split at hpush
    · cases hpush
    · rename_i hcurrent
      cases hpush
      exact { h with pushedBack := fun _ hnone => hcurrent (by rw [hnone]; rfl) }

lemma At.readLine {line : Option (List Char)} (h : s.At before after)
    (hread : s.stream.readLine = .ok (line, t)) :
    ∃ before' after', { s with stream := t, justRead := line.or s.justRead }.At before' after' := by
  cases line with
  | none =>
    rw [Option.none_or]
    rcases readLine_eq_none hread with rfl | ⟨-, rfl⟩
    · exact ⟨_, _, h⟩
    · exact ⟨_, _, { h with }⟩
  | some raw =>
    obtain ⟨hline, line, after', reader, rfl, rfl, hreader, hunread, rfl⟩ :=
      between_readLine h.reader hread
    refine ⟨before ++ [line], after', ?_⟩
    exact
      { h with
        lines := h.lines.trans (List.append_cons _ _ _)
        reader := hreader
        rest := by
          change ∀ token ∈ s.stream.rest, _
          rw [hline.rest]
          exact List.forall_mem_nil _
        justRead := by
          rintro _ ⟨⟩
          exact ⟨hunread, before, line, rfl, rfl⟩ }

lemma At.unreadLine {raw : List Char} (h : s.At before after) (hraw : s.justRead = some raw)
    (hunread : s.stream.unreadLine raw = .ok t) :
    ∃ before' after', { s with stream := t, justRead := none }.At before' after' := by
  obtain ⟨hnone, front, line, rfl, rfl⟩ := h.justRead raw hraw
  obtain ⟨hline, reader, rfl, hreader⟩ := between_unreadLine h.reader hnone hunread
  refine ⟨front, line :: after, ?_⟩
  exact
    { h with
      lines := h.lines.trans (List.append_cons _ _ _).symm
      reader := hreader
      rest := by
        change ∀ token ∈ s.stream.rest, _
        rw [hline.rest]
        exact List.forall_mem_nil _
      justRead := fun _ hmem => nomatch hmem }

/-- Unless the file cannot be read on, the result of a request has a position in the same file. -/
def Stays {α : Type} (s : Session) (result : Except Fault α × Session) : Prop :=
  (∃ error, result.1 = .error (.undecodable error)) ∨
    result.2.lines = s.lines ∧ ∃ before after, result.2.At before after

lemma failed_self (s : Session) : s.failed s.stream = s := by
  rw [failed, if_pos rfl]

lemma At.stays_next (h : s.At before after) : s.Stays s.next := by
  unfold Session.next
  split
  · rename_i token stream hperform
    exact .inr ⟨rfl, h.next (next_eq_of_perform hperform)⟩
  · rename_i fault stream hperform
    obtain ⟨error, rfl, -, -⟩ | ⟨digits, present, token, rest, rfl, hload, hup, -, rfl⟩ :=
      fault_of_nextCall hperform
    · exact .inl ⟨error, rfl⟩
    · exact .inr ⟨rfl, h.passOver hload hup⟩

lemma At.stays_pushBack (h : s.At before after) : s.Stays s.pushBack := by
  unfold Session.pushBack
  rw [perform_pushBackCall]
  cases hpush : s.stream.pushBack with
  | error fault =>
    dsimp only
    rw [failed_self]
    exact .inr ⟨rfl, before, after, h⟩
  | ok stream => exact .inr ⟨rfl, before, after, h.pushBack hpush⟩

lemma Stays.of_ok {α : Type} {a : α} (h : s.Stays (.ok a, s')) :
    s'.lines = s.lines ∧ ∃ before after, s'.At before after := by
  obtain ⟨_, herror⟩ | hstays := h
  · cases herror
  · exact hstays

lemma At.stays_of_next {result : Except Fault Token} (h : s.At before after)
    (hnext : follower.next s = (result, s')) : s.Stays (result, s') :=
  hnext ▸ h.stays_next

lemma At.stays_discardLine (h : s.At before after) : s.Stays s.discardLine := by
  unfold Session.discardLine
  fun_induction Follower.discardLine follower s generalizing before after with
  | case1 s fault s' hnext =>
    refine (h.stays_of_next hnext).imp_left ?_
    rintro ⟨error, herror⟩
    cases herror
    exact ⟨error, rfl⟩
  | case2 s token s' hnext hline => exact .inr (h.stays_of_next hnext).of_ok
  | case3 s token s' hnext hline hend =>
    obtain ⟨hlines, before', after', h'⟩ := (h.stays_of_next hnext).of_ok
    exact h'.stays_pushBack.imp_right fun hpush => ⟨hpush.1.trans hlines, hpush.2⟩
  | case4 s token s' hnext hline hend ih =>
    obtain ⟨hlines, before', after', h'⟩ := (h.stays_of_next hnext).of_ok
    exact (ih h').imp_right fun hrest => ⟨hrest.1.trans hlines, hrest.2⟩

lemma At.stays_readLine (h : s.At before after) : s.Stays s.readLine := by
  unfold Session.readLine
  split
  · rename_i line stream hperform
    exact .inr ⟨rfl, h.readLine (readLine_eq_of_perform hperform)⟩
  · rename_i fault stream hperform
    obtain ⟨misuse, rfl, rfl⟩ | ⟨error, rfl, -, -⟩ := fault_of_readLineCall hperform
    · rw [failed_self]
      exact .inr ⟨rfl, before, after, h⟩
    · exact .inl ⟨error, rfl⟩

lemma At.stays_unreadLine (h : s.At before after) : s.Stays s.unreadLine := by
  unfold Session.unreadLine
  cases hraw : s.justRead with
  | none => exact .inr ⟨rfl, before, after, h⟩
  | some raw =>
    dsimp only
    rw [perform_unreadLineCall]
    cases hunread : s.stream.unreadLine raw with
    | ok stream => exact .inr ⟨rfl, h.unreadLine hraw hunread⟩
    | error fault =>
      dsimp only
      rw [failed_self]
      exact .inr ⟨rfl, before, after, h⟩

/-- Every request leads to a position in the same file, unless it cannot be read on. -/
theorem At.stays_step (h : s.At before after) (request : Request) : s.Stays (s.step request) := by
  have hmap : ∀ {α : Type} {f : α → Option Token} {result : Except Fault α × Session},
      s.Stays result → s.Stays (result.1.map f, result.2) := by
    intro α f result hstays
    refine hstays.imp_left ?_
    rintro ⟨error, herror⟩
    exact ⟨error, by rw [herror]; rfl⟩
  cases request with
  | next => exact hmap h.stays_next
  | pushBack => exact hmap h.stays_pushBack
  | discardLine => exact hmap h.stays_discardLine
  | readLine => exact hmap h.stays_readLine
  | unreadLine => exact hmap h.stays_unreadLine

lemma current_of_step {request : Request} {token : Token}
    (h : s.step request = (.ok (some token), s')) : s'.stream.current = some token := by
  have hnone : ∀ {α : Type} (result : Except Fault α),
      (result.map fun _ => none) ≠ .ok (some token) := by
    rintro α (fault | a) ⟨⟩
  cases request with
  | next =>
    obtain ⟨hresult, rfl⟩ := Prod.mk.inj h
    cases hnext : s.next.1 with
    | error fault =>
      rw [hnext] at hresult
      cases hresult
    | ok first =>
      rw [hnext] at hresult
      cases hresult
      have hpair : s.next = (.ok token, s.next.2) := Prod.ext hnext rfl
      exact (next_after (follower.next_eq_ok hpair)).2.1
  | _ => exact absurd (Prod.mk.inj h).1 (hnone _)

lemma from_of_mem_deliveries (h : s.At before after) (requests : List Request) :
    ∀ d ∈ s.deliveries requests, d.1.From s.lines d.2 := by
  induction requests generalizing s before after with
  | nil => exact List.forall_mem_nil _
  | cons request requests ih =>
    intro d hmem
    have hstays := h.stays_step request
    rw [deliveries] at hmem
    split at hmem
    · cases hmem
    · rename_i fault s' hreadable hstep
      rw [hstep] at hstays
      obtain ⟨error, herror⟩ | ⟨hlines, before', after', h'⟩ := hstays
      · cases herror
        exact absurd rfl (hreadable error)
      · rw [← hlines]
        exact ih h' d hmem
    · rename_i delivered s' hstep
      rw [hstep] at hstays
      obtain ⟨error, herror⟩ | ⟨hlines, before', after', h'⟩ := hstays
      · cases herror
      · rw [← hlines]
        rcases List.mem_append.1 hmem with hmem | hmem
        · obtain ⟨token, htoken, rfl⟩ := List.mem_map.1 hmem
          obtain rfl := Option.mem_toList.1 htoken
          exact h'.current token (current_of_step hstep)
        · exact ih h' d hmem

end Session

end Kconfig
