import Kconfig.Text.DecimalDigit

/-!
# Arguments

The options of the program and how arguments give them: an option may be shortened as long as no
other one begins alike, and its value follows after `=` or as the next argument. An argument that
looks like an option is never a value, and two dashes after `=` leave the option bare.
-/

namespace Kconfig.CommandLine

inductive Switch where
  | help
  | kconfig
  | root
  | output
  | env
  | envFile
  | lenient
  | reportJson
  deriving Repr, DecidableEq

namespace Switch

def all : List Switch :=
  [.help, .kconfig, .root, .output, .env, .envFile, .lenient, .reportJson]

def name : Switch → String
  | .help => "--help"
  | .kconfig => "--kconfig"
  | .root => "--root"
  | .output => "--output"
  | .env => "--env"
  | .envFile => "--env-file"
  | .lenient => "--lenient"
  | .reportJson => "--report-json"

def ofName? (name : String) : Option Switch :=
  all.find? (·.name = name)

/-- The options whose names begin with a text. -/
def beginning (text : List Char) : List Switch :=
  all.filter fun s => text.isPrefixOf s.name.toList

end Switch

/-- What an argument is on its own. -/
inductive Argument where
  | value (text : String)
  /-- An option, with the value in the same argument if there is one. -/
  | switch (name : Switch) (attached : Option String)
  /-- It looks like an option, but is none. -/
  | unknown
  /-- All arguments after this one are values. -/
  | separator
  deriving Repr, DecidableEq

namespace Argument

/-- A text without the line break at its end. -/
def withoutLineBreak (text : List Char) : List Char :=
  if text.getLast? = some '\n' then text.dropLast else text

/-- The text of a negative decimal number, with digits after a point if there is one. -/
def isNegativeNumber : List Char → Bool
  | '-' :: text =>
    let digits := text.takeWhile Text.isDecimalDigit
    match text.dropWhile Text.isDecimalDigit with
    | [] => !digits.isEmpty
    | '.' :: fraction => !fraction.isEmpty && fraction.all Text.isDecimalDigit
    | _ => false
  | _ => false

/-- An argument that begins with a dash but names no option. -/
def ofUnnamed (text : List Char) : Argument :=
  if isNegativeNumber (withoutLineBreak text) || text.contains ' ' then .value (.ofList text)
  else .unknown

/-- What precedes the first equality sign of a text, and what follows it if there is one. -/
def splitAtEquals (text : List Char) : List Char × Option String :=
  match text.dropWhile (· ≠ '=') with
  | [] => (text, none)
  | _ :: rest => (text.takeWhile (· ≠ '='), some (.ofList rest))

/-- The short option with what is attached to it; its letter may be repeated there. -/
def ofAttached (tail : List Char) : Argument :=
  .switch .help (if !tail.isEmpty && tail.all (· = 'h') then none else some (.ofList tail))

/-- The long option that a text names, or begins to name. There is no answer if it begins to name
several. -/
def ofLong? (text : List Char) : Option Argument :=
  let (name, attached) := splitAtEquals text
  match Switch.ofName? (.ofList name) with
  | some s => some (.switch s attached)
  | none =>
    match Switch.beginning name with
    | [] => some (ofUnnamed text)
    | [s] => some (.switch s attached)
    | _ => none

/-- What an argument is on its own; there is no answer if it shortens the names of several options.
-/
def ofText? (text : String) : Option Argument :=
  match text.toList with
  | '-' :: '-' :: cs => ofLong? ('-' :: '-' :: cs)
  | ['-', 'h'] => some (.switch .help none)
  | '-' :: 'h' :: '=' :: tail => some (ofAttached tail)
  | '-' :: 'h' :: tail => some (ofAttached tail)
  | '-' :: c :: cs => some (ofUnnamed ('-' :: c :: cs))
  | _ => some (.value text)

/-- The arguments up to a separator by what they are, and all after it as values. -/
def ofTexts? : List String → Option (List Argument)
  | [] => some []
  | text :: texts =>
    if text = "--" then some (.separator :: texts.map .value)
    else
      match ofText? text with
      | some argument => (ofTexts? texts).map (argument :: ·)
      | none => none

end Argument

inductive Given (α : Type) where
  | absent
  /-- The option is there without a value. -/
  | bare
  | value (value : α)
  deriving Repr, DecidableEq

/-- What an option that is there gives. -/
def Given.ofOption {α : Type} : Option α → Given α
  | none => .bare
  | some given => .value given

structure Options where
  /-- The top-level file. -/
  kconfig : Given String := .absent
  /-- The directory that the names of included files are relative to. -/
  root : Given String := .absent
  /-- The files to write the tree to, each after its format. -/
  outputs : List (String × String) := []
  /-- Assignments of environment variables; one may be bare. -/
  assignments : List (Option String) := []
  /-- The content of the file with more environment variables. -/
  environmentFile : Given (List UInt8) := .absent
  lenient : Bool := false
  /-- The file to write the report to. -/
  reportFile : Option String := none
  deriving Repr, DecidableEq

/-- Why the arguments are not acted on. -/
inductive Refusal where
  /-- Only the description of the program is asked for. -/
  | help
  /-- The arguments do not fit together. -/
  | usage
  deriving Repr, DecidableEq

structure Collected where
  options : Options := {}
  /-- Some argument belongs to no option. -/
  hasSurplus : Bool := false
  deriving Repr, DecidableEq

namespace Collected

/-- Takes an option that has one value, or is bare. Files to read are opened at once. -/
def take (openFile : String → Option (List UInt8)) (r : Collected) (s : Switch)
    (value : Option String) : Except Refusal Collected :=
  let options := r.options
  match s, value with
  | .kconfig, value => .ok { r with options := { options with kconfig := .ofOption value } }
  | .root, value => .ok { r with options := { options with root := .ofOption value } }
  | .env, value =>
    .ok { r with options := { options with assignments := options.assignments ++ [value] } }
  | .reportJson, value => .ok { r with options := { options with reportFile := value } }
  | .envFile, none => .ok { r with options := { options with environmentFile := .bare } }
  | .envFile, some name =>
    match openFile name with
    | some bytes => .ok { r with options := { options with environmentFile := .value bytes } }
    | none => .error .usage
  | _, _ => .error .usage

/-- Takes all arguments, one option after the other. -/
def takeAll (openFile : String → Option (List UInt8)) (r : Collected) :
    List Argument → Except Refusal Collected
  | [] => .ok r
  | .switch .help none :: _ => .error .help
  | .switch .lenient none :: rest =>
    takeAll openFile { r with options := { r.options with lenient := true } } rest
  | .switch .output none :: .value format :: .value file :: rest =>
    takeAll openFile
      { r with options := { r.options with outputs := r.options.outputs ++ [(format, file)] } } rest
  | .switch s (some value) :: rest =>
    match take openFile r s (if value = "--" then none else some value) with
    | .ok r => takeAll openFile r rest
    | .error refusal => .error refusal
  | .switch s none :: .value value :: rest =>
    match take openFile r s (some value) with
    | .ok r => takeAll openFile r rest
    | .error refusal => .error refusal
  | .switch _ none :: _ => .error .usage
  | _ :: rest => takeAll openFile { r with hasSurplus := true } rest

end Collected

/-- The options that arguments give; the top-level file is needed. -/
def Options.read (openFile : String → Option (List UInt8)) (arguments : List String) :
    Except Refusal Options :=
  match Argument.ofTexts? arguments with
  | none => .error .usage
  | some arguments =>
    match Collected.takeAll openFile {} arguments with
    | .error refusal => .error refusal
    | .ok r =>
      if r.options.kconfig ≠ .absent ∧ !r.hasSurplus then .ok r.options else .error .usage

end Kconfig.CommandLine
