import Kconfig.CommandLine.Arguments
import Kconfig.CommandLine.Help
import Kconfig.FileSystem.Snapshot
import Kconfig.FileSystem.Writing
import Kconfig.Json.Reader

/-!
# The command line

A run of the program reads a tree, shows or writes its report, and writes its dump. Everything that
it does to its surroundings is part of its outcome.
-/

namespace Kconfig.CommandLine

structure Surroundings where
  disk : Snapshot
  /-- What can be read from the standard input. -/
  input : List UInt8 := []
  /-- The value of the variable that selects strict reading. -/
  strictness : Option String := none
  /-- The value of the variable that selects the verbosity of the report. -/
  verbosity : Option String := none

/-- Why a run broke off without a word of its own. -/
inductive Breakdown where
  | reading (fault : Fault)
  | writing (fault : WriteFault)
  /-- The file with environment variables is not JSON. -/
  | environmentSyntax
  /-- There is no name of a top-level file. -/
  | noFile
  /-- An option that needs a value is bare. -/
  | bareOption (option : Switch)
  deriving Repr, DecidableEq

inductive Ending where
  | exit (code : Nat)
  /-- The arguments were not accepted. -/
  | refused
  | broken (cause : Breakdown)
  deriving Repr, DecidableEq

structure Outcome where
  ending : Ending := .exit 0
  stdout : String := ""
  /-- What was written to the standard error output, the report apart. -/
  stderr : Text.Loose := ""
  /-- The tables of the report, if it was shown. -/
  report : Option (List Table) := none
  /-- The files that were written, in this order. -/
  written : List (String × String) := []
  deriving Repr, DecidableEq

/-- The content of a file that is given to be read; a dash means the standard input. -/
def Surroundings.openFile (w : Surroundings) (name : String) : Option (List UInt8) :=
  if name = "-" then some w.input
  else
    match w.disk.toFileSystem.look name with
    | .file bytes => some bytes
    | _ => none

/-- The name and the value in an assignment. -/
def assignment? (text : String) : Option (String × String) :=
  match Argument.splitAtEquals text.toList with
  | (name, some value) => some (.ofList name, value)
  | _ => none

/-- The variables that a JSON object sets. A name with halves of surrogate pairs is that of no
variable. -/
def environmentOfMembers (members : Json.Members) : Environment :=
  members.filterMap fun (name, value) => name.whole?.map fun name => (name, value)

/-- The variables that the content of a file sets. -/
def environmentOf (bytes : List UInt8) : Except Outcome Environment :=
  match Text.decodeAll bytes with
  | .ok text =>
    match Json.readChars? text with
    | some (.obj members) => .ok (environmentOfMembers members)
    | some _ => .error {
        ending := .exit 2
        stderr := "A fatal error occurred: --env-file must contain a JSON object\n" }
    | none => .error { ending := .broken .environmentSyntax }
  | .error error => .error { ending := .broken (.reading (.undecodable error)) }

namespace Options

/-- The tree is written in one format only. -/
def checkFormats (o : Options) : Except Outcome Unit :=
  match o.outputs.find? (·.1 ≠ "json") with
  | some (format, _) => .error {
      ending := .exit 1
      stdout := "Format '" ++ format ++ "' not recognised. Known formats: ['json']\n" }
  | none => .ok ()

def assigned : Option String → Except Outcome (String × Json)
  | none => .error { ending := .broken (.bareOption .env) }
  | some text =>
    match assignment? text with
    | some (name, value) => .ok (name, .str value)
    | none => .error {
        ending := .exit 1
        stdout := "--env arguments must each contain =. To set an empty value, use 'NAME='\n" }

/-- The environment: variables that arguments assign win over those of the file. -/
def environment (o : Options) : Except Outcome Environment := do
  let values ← o.assignments.mapM assigned
  let known ←
    match o.environmentFile with
    | .absent => .ok []
    | .bare => .error { ending := .broken (.bareOption .envFile) }
    | .value bytes => environmentOf bytes
  return setValues known values

/-- The root and the top-level file relative to it: without a root that is given, the root is the
directory of the file. -/
def place (o : Options) (working : List Path.Name) : Except Outcome (String × String) :=
  match o.root, o.kconfig with
  | .absent, .value file =>
    let directory := Path.directory file
    .ok (if directory = "" then "." else directory, Path.base file)
  | .absent, _ => .error { ending := .broken (.bareOption .kconfig) }
  | root, .value file =>
    if file = "" then .error { ending := .broken .noFile }
    else
      match root with
      | .value root => .ok (root, Path.relative working file root)
      | _ => .error { ending := .broken (.bareOption .root) }
  | _, _ => .error { ending := .broken .noFile }

def settings (o : Options) (w : Surroundings) : Except Outcome Settings := do
  o.checkFormats
  let environment ← o.environment
  let (root, file) ← o.place w.disk.working
  return {
    root, file, environment
    strict := !o.lenient && isStrict w.strictness
    verbosity := effectiveVerbosity none w.verbosity }

/-- The files to write, in this order. -/
def files (o : Options) (tree : Tree) : List (String × String) :=
  ((o.reportFile.filter (· ≠ "")).toList.map fun file => (file, tree.report.toJson.write)) ++
    o.outputs.map fun (_, file) => (file, tree.dump)

end Options

/-- Writes files one after the other up to the first one that cannot be written. -/
def writeFiles (disk : Snapshot) :
    List (String × String) → List (String × String) × Option WriteFault
  | [] => ([], none)
  | (path, text) :: files =>
    match disk.toFileSystem.writeFault? path with
    | some fault => ([], some fault)
    | none =>
      let (written, fault) := writeFiles (disk.write path text.toUTF8.toList) files
      ((path, text) :: written, fault)

/-- Shows and writes what is asked for about a tree. -/
def deliver (disk : Snapshot) (o : Options) (tree : Tree) : Outcome :=
  let (written, fault) := writeFiles disk (o.files tree)
  { ending :=
      match fault with
      | some fault => .broken (.writing fault)
      | none => .exit 0
    stdout := if o.outputs.isEmpty && fault.isNone then tree.dump ++ "\n" else ""
    report := if (o.reportFile.filter (· ≠ "")).isSome then none else tree.report.tables?
    written }

/-- Reads the tree and delivers it. A fault in what is read is told; others break the run off. -/
def dump (w : Surroundings) (o : Options) : Outcome :=
  match o.settings w with
  | .error outcome => outcome
  | .ok settings =>
    match Tree.parse w.disk.toFileSystem settings with
    | .ok tree => deliver w.disk o tree
    | .error fault =>
      match fault.message? with
      | some message => { ending := .exit 1, stderr := message ++ "\n" }
      | none => { ending := .broken (.reading fault) }

/-- A run of the program with the given name and arguments. -/
def run (w : Surroundings) (program : String) (arguments : List String) : Outcome :=
  match Options.read w.openFile arguments with
  | .error .help => { stdout := help program }
  | .error .usage => { ending := .refused }
  | .ok options => dump w options

end Kconfig.CommandLine
