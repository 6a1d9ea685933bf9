/-!
# UTF-8

A strict decoder: overlong forms, surrogates and code points above U+10FFFF are malformed. Bytes
that stop inside a character are told apart from malformed ones, because what is missing may follow
in the next chunk of a file. -/

namespace Kconfig.Text

/-- What is wrong with bytes that are no text. -/
inductive DecodeReason where
  /-- The byte cannot begin a character. -/
  | start
  /-- A byte does not continue the character that has begun. -/
  | continuation
  /-- The bytes end inside a character. -/
  | endOfData
  deriving Repr, DecidableEq

/-- A place in bytes where they are no text: `length` bytes from the index `start` on, of which
`byte` is the first. -/
structure DecodeError where
  byte : UInt8
  start : Nat
  length : Nat
  reason : DecodeReason
  deriving Repr, DecidableEq

inductive Decoded where
  /-- The bytes are well formed. -/
  | whole (text : List Char)
  /-- The bytes end with `pending`, in which a character begins; `text` precedes it. -/
  | cutOff (text : List Char) (pending : List UInt8)
  /-- Some byte cannot stand where it does. -/
  | malformed (error : DecodeError)
  deriving Repr, DecidableEq

/-- Puts a character of `width` bytes in front of the decoded text. -/
def Decoded.cons (width : Nat) (c : Char) : Decoded → Decoded
  | .whole text => .whole (c :: text)
  | .cutOff text pending => .cutOff (c :: text) pending
  | .malformed error => .malformed { error with start := error.start + width }

/-- The bytes that may follow the first byte of a character. -/
def isContinuation (b : UInt8) : Bool :=
  0x80 ≤ b && b ≤ 0xBF

/-- The bytes that may follow `first`, given that it begins a character: they exclude overlong
forms, surrogates and code points that are too large. -/
def isSecond (first b : UInt8) : Bool :=
  isContinuation b &&
    (if first = 0xE0 then 0xA0 ≤ b
    else if first = 0xED then b ≤ 0x9F
    else if first = 0xF0 then 0x90 ≤ b
    else if first = 0xF4 then b ≤ 0x8F
    else true)

/-- The character whose code point has the bits of `high` followed by the six low bits of each of
`tail`. -/
def charOfBits (high : Nat) (tail : List UInt8) : Char :=
  Char.ofNat (tail.foldl (fun n b => n * 64 + b.toNat % 64) high)

/-- The bytes begin a character that would be a surrogate. -/
def beginsSurrogate (first b : UInt8) : Bool :=
  first = 0xED && 0xA0 ≤ b && b ≤ 0xBF

/-- Decodes bytes that more may follow. What begins a surrogate is refused only when its last byte
is there. -/
def decodeUtf8 : List UInt8 → Decoded
  | [] => .whole []
  | a :: as =>
    if a < 0x80 then (decodeUtf8 as).cons 1 (Char.ofNat a.toNat)
    else if a < 0xC2 then .malformed ⟨a, 0, 1, .start⟩
    else if a < 0xF5 then
      match as with
      | [] => .cutOff [] [a]
      | b :: bs =>
        if !isSecond a b then
          if beginsSurrogate a b && bs.isEmpty then .cutOff [] [a, b]
          else .malformed ⟨a, 0, 1, .continuation⟩
        else if a < 0xE0 then (decodeUtf8 bs).cons 2 (charOfBits (a.toNat % 32) [b])
        else
          match bs with
          | [] => .cutOff [] [a, b]
          | c :: cs =>
            if !isContinuation c then .malformed ⟨a, 0, 2, .continuation⟩
            else if a < 0xF0 then (decodeUtf8 cs).cons 3 (charOfBits (a.toNat % 16) [b, c])
            else
              match cs with
              | [] => .cutOff [] [a, b, c]
              | d :: ds =>
                if !isContinuation d then .malformed ⟨a, 0, 3, .continuation⟩
                else (decodeUtf8 ds).cons 4 (charOfBits (a.toNat % 8) [b, c, d])
    else .malformed ⟨a, 0, 1, .start⟩

/-- The error if no byte follows those in which a character begins. -/
def endError? : List UInt8 → Option DecodeError
  | [] => none
  | [a, b] =>
    some (if beginsSurrogate a b then ⟨a, 0, 1, .continuation⟩ else ⟨a, 0, 2, .endOfData⟩)
  | a :: as => some ⟨a, 0, as.length + 1, .endOfData⟩

/-- Decodes bytes that nothing follows. -/
def decodeAll (bytes : List UInt8) : Except DecodeError (List Char) :=
  match decodeUtf8 bytes with
  | .whole text => .ok text
  | .malformed error => .error error
  | .cutOff text pending =>
    match endError? pending with
    | none => .ok text
    | some error => .error { error with start := bytes.length - pending.length }

/-- A part of a file that is decoded without an error, and the error in front of the next part.
After the last part, the error stands for all reads at the end of the file. -/
structure Passage where
  text : List Char
  error : Option DecodeError
  deriving Repr, DecidableEq

/-- Decodes chunks of bytes one after the other. The bytes of a character that has begun are put in
front of the next chunk; a chunk with an error is lost, but they are not. -/
def decodeChunks (pending : List UInt8) : List (List UInt8) → Passage × List Passage
  | [] => ({ text := [], error := endError? pending }, [])
  | chunk :: chunks =>
    match decodeUtf8 (pending ++ chunk) with
    | .whole text => goOn text (decodeChunks [] chunks)
    | .cutOff text pending => goOn text (decodeChunks pending chunks)
    | .malformed error =>
      let (first, later) := decodeChunks pending chunks
      ({ text := [], error := some error }, first :: later)
where
  /-- Puts a text in front of the first passage. -/
  goOn (text : List Char) (passages : Passage × List Passage) : Passage × List Passage :=
    ({ passages.1 with text := text ++ passages.1.text }, passages.2)

/-- The number of bytes that are read from a file at once. -/
def chunkSize : Nat := 8192

/-- Cuts bytes into chunks as they are read from a file; there are at most `count`. -/
def chunks : Nat → List UInt8 → List (List UInt8)
  | 0, _ => []
  | count + 1, bytes =>
    if bytes.isEmpty then [] else bytes.take chunkSize :: chunks count (bytes.drop chunkSize)

/-- What can be read of the bytes of a file. -/
def passages (bytes : List UInt8) : Passage × List Passage :=
  decodeChunks [] (chunks bytes.length bytes)

end Kconfig.Text
