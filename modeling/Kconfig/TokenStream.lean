import Kconfig.LineReader
import Kconfig.Token

/-!
# Token streams

A token stream delivers the tokens of one file. One token can be put back. Between lines, raw lines
can be read from the stream in place of tokens, and one of them can be put back to be tokenised.
-/

namespace Kconfig

/-- The state of reading the tokens of one file. -/
structure TokenStream where
  lines : LineReader
  /-- The tokens of the present line that have not been delivered; between lines there are none. -/
  rest : List Token := []
  /-- The token delivered last. -/
  current : Option Token := none
  /-- The last token will be delivered again. -/
  pushedBack : Bool := false
  /-- The line that locations refer to. -/
  linenr : Nat := 0
  deriving Repr, DecidableEq

/-- Where the reading of a line stopped: at the token looked at last, with the tokens after it. If
the token is kept, it will be delivered again. -/
structure Stop where
  token : Token
  rest : List Token
  kept : Bool := true
  deriving Repr, DecidableEq

/-- The tokens that are delivered after a stop. -/
def Stop.upcoming (stop : Stop) : List Token :=
  if stop.kept then stop.token :: stop.rest else stop.rest

namespace TokenStream

def file (s : TokenStream) : String :=
  s.lines.file

def location (s : TokenStream) : Location :=
  ⟨s.file, s.linenr⟩

/-- The tokens of the present line that are still to be delivered. -/
def upcoming (s : TokenStream) : List Token :=
  if s.pushedBack then s.current.toList ++ s.rest else s.rest

/-- Goes on to the next line if the present one has been delivered, so that some token is to come.
At the end of the file it is the token for the end. -/
def load (s : TokenStream) : Except Text.DecodeError TokenStream :=
  if s.upcoming ≠ [] then .ok s
  else
    match s.lines.next with
    | .error error => .error error
    | .ok (none, _) => .ok { s with rest := [⟨.fileEnd, s.linenr⟩] }
    | .ok (some line, lines) =>
      .ok { s with lines, linenr := lines.lineStart, rest := Token.ofLine lines.lineStart line }

theorem load_of_upcoming {s : TokenStream} {token : Token} {rest : List Token}
    (h : s.upcoming = token :: rest) : s.load = .ok s :=
  if_pos (by simp [h])

/-- The stream after its present line has been read up to a stop. -/
def stopAt (s : TokenStream) (stop : Stop) : TokenStream :=
  { s with current := some stop.token, pushedBack := stop.kept, rest := stop.rest }

def next (s : TokenStream) : Except Fault (Token × TokenStream) :=
  match s.load with
  | .error error => .error (.undecodable error)
  | .ok s =>
    match s.upcoming with
    | token :: rest =>
      match token.lexeme.excessDigits? with
      | some digits => .error (.tooManyDigits digits)
      | none => .ok (token, s.stopAt { token, rest, kept := false })
    | [] => .ok (⟨.fileEnd, s.linenr⟩, s)

def pushBack (s : TokenStream) : Except Fault TokenStream :=
  if s.pushedBack then .error (.misuse (.secondPushBack s.location))
  else if s.current.isNone then .error (.misuse (.pushBackFirst s.file))
  else .ok { s with pushedBack := true }

/-- Delivers the tokens up to the end of the line. The end of the file is put back. -/
def discardLine (s : TokenStream) : Except Fault TokenStream :=
  match s.load with
  | .error error => .error (.undecodable error)
  | .ok s =>
    match s.upcoming.findSome? (·.lexeme.excessDigits?) with
    | some digits => .error (.tooManyDigits digits)
    | none =>
      match s.upcoming.getLast? with
      | some token => .ok (s.stopAt { token, rest := [], kept := token.lexeme == .fileEnd })
      | none => .ok s

/-- Raw lines can be read and put back only between lines. -/
def betweenLines (s : TokenStream) (request : String) : Except Fault Unit :=
  if s.pushedBack ∨ s.rest ≠ [] then .error (.misuse (.insideLine s.location request))
  else .ok ()

/-- Whether the end of the file has been put back. -/
def atKeptEnd (s : TokenStream) : Bool :=
  s.pushedBack && s.current.any (·.lexeme == .fileEnd)

/-- Reads a raw line; there is none at the end of the file. -/
def readLine (s : TokenStream) : Except Fault (Option (List Char) × TokenStream) :=
  if s.atKeptEnd then .ok (none, s)
  else
    match s.betweenLines "read_line" with
    | .error fault => .error fault
    | .ok () =>
      match s.lines.nextRaw with
      | .error error => .error (.undecodable error)
      | .ok (line, lines) => .ok (line, { s with lines, linenr := lines.lineStart })

/-- Puts a raw line back in the place of the last one read. -/
def unreadLine (s : TokenStream) (line : List Char) : Except Fault TokenStream :=
  match s.betweenLines "unread_line" with
  | .error fault => .error fault
  | .ok () =>
    match s.lines.putBack line with
    | .error fault => .error fault
    | .ok lines => .ok { s with lines }

/-- Reading raw lines ends, because each line read is no longer to be delivered. -/
theorem pending_of_readLine {s s' : TokenStream} {line : List Char}
    (h : s.readLine = .ok (some line, s')) : s'.lines.pending < s.lines.pending := by
  unfold readLine at h
  split at h
  · cases h
  · split at h
    · cases h
    · split at h
      · cases h
      · rename_i line' lines hraw
        cases h
        unfold LineReader.nextRaw at hraw
        split at hraw
        · cases hraw
        · rename_i text reader hnext
          simp only [Except.ok.injEq, Prod.mk.injEq, Option.map_eq_some_iff] at hraw
          obtain ⟨⟨text, rfl, -⟩, rfl⟩ := hraw
          unfold LineReader.next at hnext
          split at hnext
          · rename_i hunread
            cases hnext
            simp [LineReader.pending, LineReader.take, hunread]
          · rename_i hunread
            split at hnext
            · rename_i hrest
              cases hnext
              simp [LineReader.pending, LineReader.take, hunread, hrest]
            · split at hnext <;> cases hnext

/-- Reads raw lines as long as they satisfy `p`; the line that does not is put back and returned as
well, if there is one before the end of the file. -/
def takeLines (p : List Char → Bool) (s : TokenStream) :
    Except Fault (List (List Char) × Option (List Char) × TokenStream) :=
  match _h : s.readLine with
  | .error fault => .error fault
  | .ok (none, s) => .ok ([], none, s)
  | .ok (some line, s) =>
    if p line then
      match takeLines p s with
      | .error fault => .error fault
      | .ok (lines, stop, s) => .ok (line :: lines, stop, s)
    else
      match s.unreadLine line with
      | .error fault => .error fault
      | .ok s => .ok ([], some line, s)
termination_by s.lines.pending
decreasing_by exact pending_of_readLine _h

end TokenStream

end Kconfig
