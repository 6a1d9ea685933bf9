import Kconfig.Directive
import Kconfig.FileSystem
import Kconfig.Keyed
import Kconfig.Reference

/-!
# The context of a run

All that one run shares between the entries it reads: the open files, the conditions of the open
`if` blocks, the symbol table and the report. The file on top of the stack is the one that is read;
each file below it goes on after the line that included the file above.
-/

namespace Kconfig

/-- Names with their values, which are texts as a rule. -/
abbrev Environment := List (String × Json)

/-- The state of a run. -/
structure Context where
  /-- The directory that file names are relative to. -/
  root : String
  environment : Environment := []
  /-- Text that is not understood ends the run. -/
  strict : Bool := true
  report : Report := {}
  /-- The open files, the one that is read first. -/
  files : List TokenStream := []
  /-- The names of all files that have been opened, in this order. -/
  visited : List String := []
  /-- The conditions of the open `if` blocks, the outermost first. -/
  scope : List Condition := []
  /-- The last entry defined with each symbol. -/
  symbols : List (String × Entry) := []
  /-- The places where each symbol has been defined. -/
  definitions : List (String × List String) := []
  deriving Repr, DecidableEq

namespace Context

def depth (ctx : Context) : Nat :=
  ctx.files.length

def current (ctx : Context) : Except Fault TokenStream :=
  match ctx.files with
  | [] => .error (.misuse .noOpenFile)
  | stream :: _ => .ok stream

/-- Replaces the state of the file that is read. -/
def setCurrent (ctx : Context) (stream : TokenStream) : Context :=
  { ctx with files := stream :: ctx.files.tail }

/-- The place that is read, if a file is open. -/
def location? (ctx : Context) : Option Location :=
  ctx.files.head?.map (·.location)

def location (ctx : Context) : Except Fault Location := do
  return (← ctx.current).location

/-- A problem at the place that is read. -/
def malformed (ctx : Context) (problem : Problem) : Fault :=
  .malformed ctx.location? problem

def note (ctx : Context) (findings : List Finding) : Context :=
  { ctx with report := findings.foldl Report.add ctx.report }

def next (ctx : Context) : Except Fault (Token × Context) := do
  let (token, stream) ← (← ctx.current).next
  return (token, ctx.setCurrent stream)

def pushBack (ctx : Context) : Except Fault Context := do
  return ctx.setCurrent (← (← ctx.current).pushBack)

/-- What a failure to read from the tokens of the present line is. -/
def failed (ctx : Context) (tokens : List Token) : ReadFailure → Fault
  | .problem problem => ctx.malformed problem
  | .usedUp => .tooManyDigits ((tokens.findSome? (·.lexeme.excessDigits?)).getD 0)

/-- Reads part of the present line, which is loaded first if it is the next one. -/
def readLine {α : Type} (ctx : Context) (read : List Token → Except ReadFailure (Reading α)) :
    Except Fault (Reading α × Context) := do
  let stream ← (← ctx.current).load.mapError .undecodable
  match readDeliverable read stream.upcoming with
  | .error failure => .error ((ctx.setCurrent stream).failed stream.upcoming failure)
  | .ok reading => .ok (reading, ctx.setCurrent (stream.stopAt reading.stop))

/-- Whether a file is open under this name or another spelling of it. -/
def isOpen (ctx : Context) (name : String) : Bool :=
  ctx.files.any fun stream => Path.normalize stream.file == Path.normalize name

/-- The lines that lead to the place that is read, from the top-level file on. -/
def includePath (ctx : Context) : List String :=
  ctx.files.reverse.map fun stream => stream.location.text

/-- Opens a file and goes on reading there. -/
def openFile (fs : FileSystem) (ctx : Context) (name : String) : Except Fault Context :=
  let path := Path.join ctx.root name
  match fs.look path with
  | .file bytes =>
    .ok { ctx with
      files := { lines := LineReader.ofBytes name bytes } :: ctx.files
      visited := ctx.visited ++ [name] }
  | .missing => .error (.missingFile name path)
  | .directory => .error (.isDirectory path)
  | .blocked => .error (.notDirectory path)
  | .invalid => .error .invalidPath

def closeFile (ctx : Context) : Context :=
  { ctx with files := ctx.files.tail }

/-- Makes an entry the last one defined with its symbol. -/
def setSymbol (ctx : Context) (e : Entry) : Context :=
  match e.head.symbol.filter (· ≠ "") with
  | none => ctx
  | some symbol => { ctx with symbols := setValue symbol e ctx.symbols }

/-- Registers an entry under its symbol; a further definition is a finding. -/
def define (ctx : Context) (e : Entry) : Context :=
  match e.head.symbol.filter (· ≠ "") with
  | none => ctx
  | some symbol =>
    let places := (ctx.definitions.lookup symbol).getD [] ++ [e.head.location.text]
    let ctx := { ctx with definitions := setValue symbol places ctx.definitions }
    (ctx.note (if 1 < places.length then [.redefined symbol places] else [])).setSymbol e

/-- The value of a reference: what the symbol has taken from the environment, else what the
environment gives for the name. -/
def symbolValue (ctx : Context) (name : String) : Option Json :=
  match (((ctx.symbols.lookup name).bind (·.value?)).bind (·.env)).filter (!·.isVoid) with
  | some value => some value
  | none => ctx.environment.lookup name

def substitute (ctx : Context) (text : String) : Except Fault Text.Loose :=
  match Reference.substitute? ctx.symbolValue text with
  | some text => .ok text
  | none => .error .notText

/-- Reads a directive after its keyword and applies it to an entry. -/
def readDirective (ctx : Context) (kind : DirectiveKind) (keyword : String) (e : Entry) :
    Except Fault (Entry × Context) :=
  if !kind.isFor e.kind then do
    .error (.misuse (.notValid keyword e.kind (← ctx.location)))
  else
    match kind with
    | .optional =>
      .ok ((Directive.apply ctx.environment ⟨⟨"", 0⟩, ⟨"", 0⟩⟩ [] .optional e).1, ctx)
    | .help => do
      let start ← ctx.location
      let (text, stream) ← Directive.readHelp (← ctx.current)
      let (e, findings) := Directive.apply ctx.environment ⟨start, start⟩ [] (.help text) e
      return (e, (ctx.setCurrent stream).note findings)
    | kind => do
      let start ← ctx.location
      let (r, ctx) ← ctx.readLine (Directive.read kind keyword)
      let site := ⟨start, ← ctx.location⟩
      let (e, findings) := Directive.apply ctx.environment site r.slips r.value e
      return (e, ctx.note findings)

/-- Reads the rest of a directive that has no kind of its own and applies it. -/
def readExtra (ctx : Context) (read : List Token → Except ReadFailure (Reading Directive))
    (e : Entry) :
    Except Fault (Entry × Context) := do
  let start ← ctx.location
  let (r, ctx) ← ctx.readLine read
  let (e, findings) := Directive.apply ctx.environment ⟨start, ← ctx.location⟩ r.slips r.value e
  return (e, ctx.note findings)

/-- Skips the rest of the line; its text is returned. -/
def skipLine (ctx : Context) : Except Fault (String × Context) := do
  let (r, ctx) ← ctx.readLine (readRest (" ".intercalate ·))
  return (r.value, ctx)

/-- Passes over a line that begins with text unknown in entries of a kind, unless the run is strict.
-/
def unrecognized (ctx : Context) (kind : EntryKind) (first : String) : Except Fault Context := do
  let (rest, ctx) ← ctx.skipLine
  let text := (first ++ " " ++ rest).trimBlanks
  if ctx.strict then .error (ctx.malformed (.unrecognized kind text))
  else return ctx.note [.textSkipped (← ctx.location) text]

/-- Reads part of the present line and enters the slips in it into the report. -/
def readNoting {α : Type} (ctx : Context) (read : List Token → Except ReadFailure (Reading α)) :
    Except Fault (α × Context) := do
  let start ← ctx.location
  let (r, ctx) ← ctx.readLine read
  return (r.value, ctx.note (Directive.slipFindings ⟨start, ← ctx.location⟩ r.slips))

/-- Reads an expression, which may be missing. -/
def readExpression (ctx : Context) : Except Fault (String × Context) :=
  ctx.readNoting Expression.read

/-- Reads the condition after an `if` that is the token delivered last. -/
def readCondition (ctx : Context) : Except Fault (Condition × Context) := do
  let s ← ctx.current
  if (s.current.bind (·.lexeme.wordText?)) = some "if" then ctx.readNoting Condition.read
  else .error (ctx.malformed .ifExpected)

/-- Reads a condition, if the next token is `if`. -/
def readOptionalCondition (ctx : Context) : Except Fault (Option Condition × Context) :=
  ctx.readNoting Condition.readOptional

/-- Reads the condition of an `if` block, which is then open. -/
def readIf (ctx : Context) : Except Fault Context := do
  let (condition, ctx) ← ctx.readNoting Condition.read
  return { ctx with scope := ctx.scope ++ [condition] }

def readEndif (ctx : Context) : Except Fault Context :=
  match ctx.scope with
  | [] => .error (ctx.malformed (.unmatched "endif" "if"))
  | _ :: _ => .ok { ctx with scope := ctx.scope.dropLast }

/-- A block that was opened with `depth` files open and the conditions `scope` can end only in the
file and under the conditions it was opened in. -/
def checkBlockEnd (ctx : Context) (e : Entry) (keyword : String) (depth : Nat)
    (scope : List Condition) : Except Fault Unit :=
  if ctx.depth ≠ depth then .error (ctx.malformed (.otherFile keyword e.title))
  else if scope.length < ctx.scope.length then
    let inner := (ctx.scope.getLast?.map (·.text)).getD ""
    .error (ctx.malformed (.unclosedIf inner (some keyword)))
  else if ctx.scope ≠ scope then .error (ctx.malformed (.crossingEndif e.title))
  else .ok ()

end Context

end Kconfig
