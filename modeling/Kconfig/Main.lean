import Kconfig.CommandLine

/-!
# The program

The outer layer of the command line: it takes a snapshot of what is below the working directory,
lets the run decide, and does what its outcome says. Files elsewhere are not seen.
-/

namespace Kconfig.Program

/-- The name that the program is called by. -/
def name : String := "kconfdump"

/-- Adds what a directory entry stands for to the files and directories of a snapshot. Links to
directories are not followed, and what cannot be read is left out. -/
partial def load (s : Snapshot) (path : List Path.Name) (entry : IO.FS.DirEntry) : IO Snapshot := do
  let path := path ++ [entry.fileName.toList]
  match ← (entry.path.symlinkMetadata).toBaseIO with
  | .error _ => return s
  | .ok metadata =>
    if metadata.type == .dir then
      match ← entry.path.readDir.toBaseIO with
      | .error _ => return s
      | .ok entries =>
        entries.foldlM (fun s entry => load s path entry)
          { s with directories := path :: s.directories }
    else
      match ← (IO.FS.readBinFile entry.path).toBaseIO with
      | .error _ => return s
      | .ok bytes => return { s with files := (path, bytes.toList) :: s.files }

/-- The working directory, seen as the base of all paths. -/
def snapshot : IO Snapshot := do
  (← (← IO.currentDir).readDir).foldlM (fun s entry => load s [] entry) {}

/-- A table as text: its title and its rows, a line each. -/
def drawTable (table : Table) : String :=
  String.join ((table.title.toList ++ table.rows.map (·.1.shown)).map (· ++ "\n"))

def drawReport (tables : List Table) : String :=
  Report.title ++ "\n\n" ++ "\n".intercalate (tables.map drawTable)

/-- What is said about a run that broke off. -/
def describe : CommandLine.Breakdown → String
  | .reading (.undecodable _) => "a file is not text"
  | .reading (.tooManyDigits _) => "a number has too many digits"
  | .reading (.notDirectory path) => "not a directory: " ++ path.shown
  | .reading (.isDirectory path) => "a directory: " ++ path.shown
  | .reading fault => (fault.message?.map (·.shown)).getD "a text is no path"
  | .writing .missing => "the directory of an output file does not exist"
  | .writing .isDirectory => "an output file is a directory"
  | .writing .notDirectory => "an output file is below another file"
  | .writing .invalidPath => "an output file has no valid name"
  | .environmentSyntax => "the file with environment variables is not JSON"
  | .noFile => "there is no name of a file"
  | .bareOption option => option.name ++ " needs a value"

/-- Does what an outcome says, and gives the exit status. -/
def act (outcome : CommandLine.Outcome) : IO UInt32 := do
  for (path, text) in outcome.written do
    IO.FS.writeFile path text
  if let some tables := outcome.report then
    IO.eprint (drawReport tables)
  IO.eprint outcome.stderr.shown
  IO.print outcome.stdout
  match outcome.ending with
  | .exit code => return code.toUInt32
  | .refused =>
    IO.eprint (CommandLine.usage name)
    return 2
  | .broken cause =>
    IO.eprintln (describe cause)
    return 1

end Kconfig.Program

/-- Runs the program with the arguments of its command line. -/
def main (arguments : List String) : IO UInt32 := do
  let asksInput := arguments.contains "-" || arguments.any (·.endsWith "=-")
  let input ← if asksInput then (← IO.getStdin).readBinToEnd else pure .empty
  let surroundings : Kconfig.CommandLine.Surroundings :=
    { disk := ← Kconfig.Program.snapshot
      input := input.toList
      strictness := ← IO.getEnv "KCONFTREE_STRICT"
      verbosity := ← IO.getEnv "KCONFTREE_REPORT_VERBOSITY" }
  Kconfig.Program.act (Kconfig.CommandLine.run surroundings Kconfig.Program.name arguments)
