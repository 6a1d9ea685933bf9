import Kconfig.TokenStream.Size

/-!
# Calls

A call changes the state of a line reader or of a token stream, and may fail after it has done so.
Where a request gives a result, the call gives it as well and leaves the same state; where the
request fails, the call does, and what it leaves is the state in which reading goes on.
-/

namespace Kconfig

/-- An answer, or a fault, and the state after it in both cases. -/
abbrev Attempt (σ α : Type) := ExceptT Fault (StateM σ) α

namespace Attempt

variable {σ α β : Type}

/-- The outcome of a call in a state, and the state after it. -/
def perform (call : Attempt σ α) (s : σ) : Except Fault α × σ :=
  (ExceptT.run call).run s

@[simp]
theorem perform_pure (a : α) (s : σ) : (pure a : Attempt σ α).perform s = (.ok a, s) :=
  rfl

@[simp]
theorem perform_throw (fault : Fault) (s : σ) :
    (throw fault : Attempt σ α).perform s = (.error fault, s) :=
  rfl

@[simp]
theorem perform_set (s s' : σ) : (set s' : Attempt σ PUnit).perform s = (.ok .unit, s') :=
  rfl

@[simp]
theorem perform_modify (f : σ → σ) (s : σ) :
    (modify f : Attempt σ PUnit).perform s = (.ok .unit, f s) :=
  rfl

theorem perform_bind (call : Attempt σ α) (f : α → Attempt σ β) (s : σ) :
    (call >>= f).perform s =
      match call.perform s with
      | (.ok a, s') => (f a).perform s'
      | (.error fault, s') => (.error fault, s') := by
  change perform (ExceptT.mk (ExceptT.run call >>= ExceptT.bindCont f)) s = _
  simp only [perform, ExceptT.run_mk, StateT.run_bind]
  cases hc : (ExceptT.run call).run s with
  | mk result s' => cases result <;> rfl

@[simp]
theorem perform_get_bind (f : σ → Attempt σ β) (s : σ) :
    (get >>= f : Attempt σ β).perform s = (f s).perform s :=
  rfl

@[simp]
theorem perform_set_bind (s s' : σ) (f : PUnit → Attempt σ β) :
    (set s' >>= f : Attempt σ β).perform s = (f .unit).perform s' :=
  rfl

@[simp]
theorem perform_modify_bind (g : σ → σ) (f : PUnit → Attempt σ β) (s : σ) :
    (modify g >>= f : Attempt σ β).perform s = (f .unit).perform (g s) :=
  rfl

@[simp]
theorem perform_throw_bind (fault : Fault) (f : α → Attempt σ β) (s : σ) :
    (throw fault >>= f : Attempt σ β).perform s = (.error fault, s) :=
  rfl

end Attempt

namespace LineReader

/-- Reads the next line. What cannot be read is lost. -/
def nextCall : Attempt LineReader (Option (List Char)) := do
  let r ← get
  match r.next with
  | .ok (line, r) =>
    set r
    return line
  | .error error =>
    set r.afterDamage
    throw (.undecodable error)

/-- Reads the next line without comment and without blanks at its end. -/
def nextRawCall : Attempt LineReader (Option (List Char)) := do
  return (← nextCall).map Line.raw

/-- Puts a line back in the place of the last one read. -/
def putBackCall (text : List Char) : Attempt LineReader Unit := do
  let r ← get
  if r.unread.isSome then throw (.misuse (.secondUnread ⟨r.file, r.linenr⟩))
  modify fun r => { r with linenr := r.linenr - r.lastHeight }
  modify fun r => { r with unread := some ⟨text, r.lastHeight⟩ }

theorem perform_nextCall (r : LineReader) : nextCall.perform r =
    match r.next with
    | .ok (line, r') => (.ok line, r')
    | .error error => (.error (.undecodable error), r.afterDamage) := by
  rw [nextCall, Attempt.perform_get_bind]
  cases r.next <;> rfl

theorem perform_nextRawCall (r : LineReader) : nextRawCall.perform r =
    match r.nextRaw with
    | .ok (line, r') => (.ok line, r')
    | .error error => (.error (.undecodable error), r.afterDamage) := by
  rw [nextRawCall, Attempt.perform_bind, perform_nextCall, nextRaw]
  cases r.next <;> rfl

theorem perform_putBackCall (r : LineReader) (text : List Char) : (putBackCall text).perform r =
    match r.putBack text with
    | .ok r' => (.ok (), r')
    | .error fault => (.error fault, r) := by
  rw [putBackCall, putBack, Attempt.perform_get_bind]
  cases r.unread <;> rfl

end LineReader

namespace TokenStream

/-- A call of the line reader. -/
def onLines {α : Type} (call : Attempt LineReader α) : Attempt TokenStream α := do
  let s ← get
  match call.perform s.lines with
  | (.ok answer, lines) =>
    set { s with lines }
    return answer
  | (.error fault, lines) =>
    set { s with lines }
    throw fault

/-- Delivers the next token. A word that is too long for a number is passed over. -/
def nextCall : Attempt TokenStream Token := do
  let s ← get
  match s.load with
  | .error error =>
    set { s with lines := s.lines.afterDamage }
    throw (.undecodable error)
  | .ok s =>
    match s.upcoming with
    | [] =>
      set s
      return ⟨.fileEnd, s.linenr⟩
    | token :: rest =>
      set { s with rest, pushedBack := false }
      if let some digits := token.lexeme.excessDigits? then throw (.tooManyDigits digits)
      modify fun s => { s with current := some token }
      return token

/-- Puts the last token back. -/
def pushBackCall : Attempt TokenStream Unit := do
  let s ← get
  if s.pushedBack then throw (.misuse (.secondPushBack s.location))
  if s.current.isNone then throw (.misuse (.pushBackFirst s.file))
  modify fun s => { s with pushedBack := true }

theorem perform_nextCall (s : TokenStream) : nextCall.perform s =
    match s.load with
    | .error error => (.error (.undecodable error), { s with lines := s.lines.afterDamage })
    | .ok t =>
      match t.upcoming with
      | [] => (.ok ⟨.fileEnd, t.linenr⟩, t)
      | token :: rest =>
        match token.lexeme.excessDigits? with
        | some digits => (.error (.tooManyDigits digits), { t with rest, pushedBack := false })
        | none => (.ok token, t.stopAt { token, rest, kept := false }) := by
  rw [nextCall, Attempt.perform_get_bind]
  cases s.load with
  | error error => rfl
  | ok t =>
    dsimp only
    cases t.upcoming with
    | nil => rfl
    | cons token rest =>
      dsimp only
      cases token.lexeme.excessDigits? <;> rfl

theorem nextCall_of_deliverable {s : TokenStream} {token : Token} {rest : List Token}
    (h : s.upcoming = token :: rest) (hdigits : token.isDeliverable = true) :
    nextCall.perform s = (.ok token, s.stopAt { token, rest, kept := false }) := by
  rw [perform_nextCall, load_of_upcoming h]
  simp only [h, Token.isDeliverable_iff.1 hdigits]

theorem next_eq_of_perform {s s' : TokenStream} {token : Token}
    (h : nextCall.perform s = (.ok token, s')) : s.next = .ok (token, s') := by
  rw [perform_nextCall] at h
  unfold next
  cases hload : s.load with
  | error error =>
    rw [hload] at h
    cases h
  | ok t =>
    rw [hload] at h
    dsimp only at h ⊢
    cases hup : t.upcoming with
    | nil =>
      rw [hup] at h
      cases h
      rfl
    | cons first rest =>
      rw [hup] at h
      dsimp only at h ⊢
      cases hdigits : first.lexeme.excessDigits? with
      | some digits =>
        rw [hdigits] at h
        cases h
      | none =>
        rw [hdigits] at h
        cases h
        rfl

theorem next_of_load {s : TokenStream} {error : Text.DecodeError} (h : s.load = .error error) :
    s.lines.next = .error error := by
  unfold load at h
  split at h
  · cases h
  · split at h
    · rename_i error' hnext
      cases h
      exact hnext
    · cases h
    · cases h

theorem fault_of_nextCall {s s' : TokenStream} {fault : Fault}
    (h : nextCall.perform s = (.error fault, s')) :
    (∃ error, fault = .undecodable error ∧ s.lines.next = .error error ∧
      s' = { s with lines := s.lines.afterDamage }) ∨
    ∃ digits present token rest, fault = .tooManyDigits digits ∧ s.load = .ok present ∧
      present.upcoming = token :: rest ∧ token.lexeme.excessDigits? = some digits ∧
        s' = { present with rest, pushedBack := false } := by
  rw [perform_nextCall] at h
  cases hload : s.load with
  | error error =>
    rw [hload] at h
    cases h
    exact .inl ⟨error, rfl, next_of_load hload, rfl⟩
  | ok present =>
    rw [hload] at h
    dsimp only at h
    cases hup : present.upcoming with
    | nil =>
      rw [hup] at h
      cases h
    | cons token rest =>
      rw [hup] at h
      dsimp only at h
      cases hdigits : token.lexeme.excessDigits? with
      | some digits =>
        rw [hdigits] at h
        cases h
        exact .inr ⟨digits, present, token, rest, rfl, rfl, hup, hdigits, rfl⟩
      | none =>
        rw [hdigits] at h
        cases h

/-- Delivers the tokens up to the end of the line. The end of the file is put back. -/
def discardCall (s : TokenStream) : Except Fault Unit × TokenStream :=
  match _h : nextCall.perform s with
  | (.error fault, s) => (.error fault, s)
  | (.ok token, s) =>
    if token.lexeme = .lineEnd then (.ok (), s)
    else if token.lexeme = .fileEnd then pushBackCall.perform s
    else discardCall s
termination_by s.size
decreasing_by
  have hsize := (next_after (next_eq_of_perform _h)).1.2
  rw [if_neg (by assumption)] at hsize
  omega

theorem discardCall_of_fault {s s' : TokenStream} {fault : Fault}
    (h : nextCall.perform s = (.error fault, s')) : discardCall s = (.error fault, s') := by
  rw [discardCall]
  split
  · rename_i h'
    cases h'.symm.trans h
    rfl
  · rename_i h'
    cases h'.symm.trans h

theorem discardCall_of_token {s s' : TokenStream} {token : Token}
    (h : nextCall.perform s = (.ok token, s')) : discardCall s =
      if token.lexeme = .lineEnd then (.ok (), s')
      else if token.lexeme = .fileEnd then pushBackCall.perform s'
      else discardCall s' := by
  rw [discardCall]
  split
  · rename_i h'
    cases h'.symm.trans h
  · rename_i h'
    cases h'.symm.trans h
    rfl

/-- Raw lines can be read and put back only between lines. -/
def checkBetweenLines (request : String) : Attempt TokenStream Unit := do
  let s ← get
  match s.betweenLines request with
  | .error fault => throw fault
  | .ok () => pure ()

/-- Reads a raw line; there is none at the end of the file. -/
def readLineCall : Attempt TokenStream (Option (List Char)) := do
  let s ← get
  if s.atKeptEnd then return none
  checkBetweenLines "read_line"
  let line ← onLines LineReader.nextRawCall
  modify fun s => { s with linenr := s.lines.lineStart }
  return line

/-- Puts a raw line back in the place of the last one read. -/
def unreadLineCall (line : List Char) : Attempt TokenStream Unit := do
  checkBetweenLines "unread_line"
  onLines (LineReader.putBackCall line)

theorem perform_pushBackCall (s : TokenStream) : pushBackCall.perform s =
    match s.pushBack with
    | .ok s' => (.ok (), s')
    | .error fault => (.error fault, s) := by
  rw [pushBackCall, pushBack, Attempt.perform_get_bind]
  by_cases hpushed : s.pushedBack = true
  · simp [hpushed]
  · by_cases hcurrent : s.current.isNone = true
    · simp [hpushed, hcurrent]
    · simp [hpushed, hcurrent]

theorem perform_checkBetweenLines (s : TokenStream) (request : String) :
    (checkBetweenLines request).perform s = (s.betweenLines request, s) := by
  rw [checkBetweenLines, Attempt.perform_get_bind]
  cases s.betweenLines request <;> rfl

theorem perform_onLines {α : Type} (call : Attempt LineReader α) (s : TokenStream) :
    (onLines call).perform s =
      ((call.perform s.lines).1, { s with lines := (call.perform s.lines).2 }) := by
  rw [onLines, Attempt.perform_get_bind]
  obtain ⟨result, lines⟩ := call.perform s.lines
  cases result <;> rfl

theorem perform_readLineCall (s : TokenStream) : readLineCall.perform s =
    if s.atKeptEnd then (.ok none, s)
    else
      match s.betweenLines "read_line" with
      | .error fault => (.error fault, s)
      | .ok () =>
        match s.lines.nextRaw with
        | .error error => (.error (.undecodable error), { s with lines := s.lines.afterDamage })
        | .ok (line, lines) => (.ok line, { s with lines, linenr := lines.lineStart }) := by
  rw [readLineCall, Attempt.perform_get_bind]
  split
  · rfl
  · simp only [Attempt.perform_bind, perform_checkBetweenLines]
    cases s.betweenLines "read_line" with
    | error fault => rfl
    | ok _ =>
      dsimp only
      rw [perform_onLines, LineReader.perform_nextRawCall]
      cases s.lines.nextRaw <;> rfl

theorem readLine_eq_of_perform {s s' : TokenStream} {line : Option (List Char)}
    (h : readLineCall.perform s = (.ok line, s')) : s.readLine = .ok (line, s') := by
  rw [perform_readLineCall] at h
  unfold readLine
  split at h
  · rename_i hend
    cases h
    exact if_pos hend
  · rename_i hend
    rw [if_neg hend]
    cases hbetween : s.betweenLines "read_line" with
    | error fault =>
      rw [hbetween] at h
      cases h
    | ok _ =>
      rw [hbetween] at h
      dsimp only at h ⊢
      cases hraw : s.lines.nextRaw with
      | error error =>
        rw [hraw] at h
        cases h
      | ok result =>
        rw [hraw] at h
        cases h
        rfl

theorem fault_of_readLineCall {s s' : TokenStream} {fault : Fault}
    (h : readLineCall.perform s = (.error fault, s')) :
    (∃ misuse, fault = .misuse misuse ∧ s' = s) ∨
    ∃ error, fault = .undecodable error ∧ s.lines.next = .error error ∧
      s' = { s with lines := s.lines.afterDamage } := by
  rw [perform_readLineCall] at h
  split at h
  · cases h
  · cases hbetween : s.betweenLines "read_line" with
    | error fault =>
      rw [hbetween] at h
      cases h
      unfold betweenLines at hbetween
      split at hbetween
      · cases hbetween
        exact .inl ⟨_, rfl, rfl⟩
      · cases hbetween
    | ok _ =>
      rw [hbetween] at h
      dsimp only [LineReader.nextRaw] at h
      cases hnext : s.lines.next with
      | error error =>
        rw [hnext] at h
        cases h
        exact .inr ⟨error, rfl, rfl, rfl⟩
      | ok result =>
        rw [hnext] at h
        cases h

theorem perform_unreadLineCall (s : TokenStream) (line : List Char) :
    (unreadLineCall line).perform s =
      match s.unreadLine line with
      | .ok s' => (.ok (), s')
      | .error fault => (.error fault, s) := by
  rw [unreadLineCall, unreadLine, Attempt.perform_bind, perform_checkBetweenLines]
  cases s.betweenLines "unread_line" with
  | error fault => rfl
  | ok _ =>
    dsimp only
    rw [perform_onLines, LineReader.perform_putBackCall]
    cases s.lines.putBack line <;> rfl

end TokenStream

/-- States that follow a token stream through what is asked of it. -/
structure Follower (σ : Type) where
  stream : σ → TokenStream
  next : σ → Except Fault Token × σ
  pushBack : σ → Except Fault Unit × σ
  perform_next : ∀ s, TokenStream.nextCall.perform (stream s) = ((next s).1, stream (next s).2)
  perform_pushBack : ∀ s,
    TokenStream.pushBackCall.perform (stream s) = ((pushBack s).1, stream (pushBack s).2)

namespace Follower

variable {σ : Type} (f : Follower σ)

theorem next_eq_ok {s s' : σ} {token : Token} (h : f.next s = (.ok token, s')) :
    (f.stream s).next = .ok (token, f.stream s') := by
  have hperform := f.perform_next s
  rw [h] at hperform
  exact TokenStream.next_eq_of_perform hperform

/-- Asks for tokens up to the end of the line. The end of the file is put back. -/
def discardLine (s : σ) : Except Fault Unit × σ :=
  match _h : f.next s with
  | (.error fault, s) => (.error fault, s)
  | (.ok token, s) =>
    if token.lexeme = .lineEnd then (.ok (), s)
    else if token.lexeme = .fileEnd then f.pushBack s
    else discardLine s
termination_by (f.stream s).size
decreasing_by
  have hsize := (TokenStream.next_after (f.next_eq_ok _h)).1.2
  rw [if_neg (by assumption)] at hsize
  omega

/-- This is what discarding does to the stream. -/
theorem perform_discardLine (s : σ) :
    TokenStream.discardCall (f.stream s) = ((f.discardLine s).1, f.stream (f.discardLine s).2) := by
  fun_induction discardLine f s with
  | case1 s fault s' h =>
    have hperform := f.perform_next s
    rw [h] at hperform
    exact TokenStream.discardCall_of_fault hperform
  | case2 s token s' h hline =>
    have hperform := f.perform_next s
    rw [h] at hperform
    rw [TokenStream.discardCall_of_token hperform, if_pos hline]
  | case3 s token s' h hline hend =>
    have hperform := f.perform_next s
    rw [h] at hperform
    rw [TokenStream.discardCall_of_token hperform, if_neg hline, if_pos hend, f.perform_pushBack]
  | case4 s token s' h hline hend ih =>
    have hperform := f.perform_next s
    rw [h] at hperform
    rw [TokenStream.discardCall_of_token hperform, if_neg hline, if_neg hend, ih]

end Follower

end Kconfig
