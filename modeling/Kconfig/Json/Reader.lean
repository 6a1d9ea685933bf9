import Kconfig.Json.Element
import Kconfig.Keyed

/-!
# Reading JSON

A text is read element by element. What is still open is a stack of arrays and objects, the
innermost one first, each with what has been read of it. Of members with one key the last one
counts.
-/

namespace Kconfig.Json

abbrev Members := List (Text.Loose × Json)

/-- An open array, with its items in reverse, or object. -/
inductive Frame where
  | array (items : List Json)
  /-- The value of `key` is being read. -/
  | object (members : Members) (key : Text.Loose)

/-- What has been read last, and so what may follow. -/
inductive Position where
  /-- A value has to follow. -/
  | value
  /-- An array has been opened. -/
  | opened
  /-- An object waits for its next key; only an empty one may be closed here. -/
  | key (members : Members)
  /-- A key has been read. -/
  | colon (members : Members) (key : Text.Loose)
  /-- A value has been read. -/
  | after (value : Json)

structure Reader where
  frames : List Frame := []
  position : Position := .value

namespace Reader

def begin (frames : List Frame) : Element → Option Reader
  | .openArray => some ⟨.array [] :: frames, .opened⟩
  | .openObject => some ⟨frames, .key []⟩
  | .atom value => some ⟨frames, .after value⟩
  | _ => none

def resume (value : Json) : List Frame → Element → Option Reader
  | .array items :: frames, .comma => some ⟨.array (value :: items) :: frames, .value⟩
  | .array items :: frames, .closeArray => some ⟨frames, .after (.arr (value :: items).reverse)⟩
  | .object members key :: frames, .comma => some ⟨frames, .key (setValue key value members)⟩
  | .object members key :: frames, .closeObject =>
    some ⟨frames, .after (.obj (setValue key value members))⟩
  | _, _ => none

/-- Takes one element, if it may stand here. -/
def step (r : Reader) (element : Element) : Option Reader :=
  match r.position, element with
  | .value, element => begin r.frames element
  | .opened, .closeArray => some ⟨r.frames.tail, .after (.arr [])⟩
  | .opened, element => begin r.frames element
  | .key [], .closeObject => some ⟨r.frames, .after (.obj [])⟩
  | .key members, .atom (.str key) => some ⟨r.frames, .colon members key⟩
  | .colon members key, .colon => some ⟨.object members key :: r.frames, .value⟩
  | .after value, element => resume value r.frames element
  | _, _ => none

def run : Reader → List Element → Option Reader
  | r, [] => some r
  | r, element :: elements =>
    match r.step element with
    | some r => run r elements
    | none => none

/-- The value that has been read, if nothing is open. -/
def result? : Reader → Option Json
  | ⟨[], .after value⟩ => some value
  | _ => none

end Reader

def readChars? (text : List Char) : Option Json := do
  let r ← ({} : Reader).run (← Element.scan text)
  r.result?

def read? (text : String) : Option Json :=
  readChars? text.toList

end Kconfig.Json
