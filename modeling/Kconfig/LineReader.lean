import Kconfig.Fault
import Kconfig.Line

/-!
# Reading line by line

A line reader delivers the logical lines of one file in order and keeps account of the physical
lines. One line can be put back; the next read delivers it again.
-/

namespace Kconfig

/-- The state of reading one file line by line. -/
structure LineReader where
  /-- The name of the file, as locations give it. -/
  file : String
  /-- The lines that have not been read. -/
  rest : List Line
  /-- What stops the reading after these lines. -/
  damage : Option Damage := none
  /-- The lines that can be read after that. -/
  later : List Stretch := []
  /-- The number of the last physical line read. -/
  linenr : Nat := 0
  /-- The number of the first physical line of the last line read. -/
  lineStart : Nat := 0
  /-- The height of the last line read. -/
  lastHeight : Nat := 0
  /-- A line that has been put back. -/
  unread : Option Line := none
  deriving Repr, DecidableEq

namespace LineReader

/-- A reader at the beginning of a file. -/
def ofBytes (file : String) (bytes : List UInt8) : LineReader :=
  let (first, later) := Stretch.ofBytes bytes
  { file, rest := first.lines, damage := first.damage, later }

/-- The reader after a line has been taken from it. -/
def take (r : LineReader) (line : Line) : LineReader :=
  { r with
    linenr := r.linenr + line.height
    lineStart := r.linenr + 1
    lastHeight := line.height }

/-- Reads the next line; there is none at the end of the file, where nothing changes. -/
def next (r : LineReader) : Except Text.DecodeError (Option (List Char) × LineReader) :=
  match r.unread with
  | some line => .ok (some line.text, { r.take line with unread := none })
  | none =>
    match r.rest with
    | line :: rest => .ok (some line.text, { r.take line with rest })
    | [] =>
      match r.damage with
      | some damage => .error damage.error
      | none => .ok (none, r)

/-- Reads the next line without comment and without blanks at its end. -/
def nextRaw (r : LineReader) : Except Text.DecodeError (Option (List Char) × LineReader) :=
  match r.next with
  | .error error => .error error
  | .ok (line, r) => .ok (line.map Line.raw, r)

/-- Puts a line back in the place of the last one read. -/
def putBack (r : LineReader) (text : List Char) : Except Fault LineReader :=
  match r.unread with
  | some _ => .error (.misuse (.secondUnread ⟨r.file, r.linenr⟩))
  | none =>
    .ok { r with linenr := r.linenr - r.lastHeight, unread := some ⟨text, r.lastHeight⟩ }

/-- The reader after an attempt to read what cannot be read. The physical lines in front of it that
make no line have then been read, and are lost; reading goes on after it, unless it is the end of
the file. -/
def afterDamage (r : LineReader) : LineReader :=
  match r.damage with
  | none => r
  | some damage =>
    let r := { r with linenr := r.linenr + damage.torn }
    match r.later with
    | [] => { r with rest := [], damage := some { damage with torn := 0 } }
    | next :: later => { r with rest := next.lines, damage := next.damage, later }

/-- The number of lines still to be delivered. -/
def pending (r : LineReader) : Nat :=
  r.rest.length + r.unread.toList.length

end LineReader

end Kconfig
