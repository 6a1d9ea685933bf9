import Kconfig.Parser.Run

/-!
# Configuration trees

The result of reading a top-level file with all files it includes: the top-level menu, the symbol
table, the files that were read, and the report.
-/

namespace Kconfig

/-- What a tree is read from, and how. -/
structure Settings where
  /-- The directory that the names of included files are relative to. -/
  root : String := "."
  /-- The top-level file, relative to the root. -/
  file : String := "Kconfig"
  environment : Environment := []
  /-- Text that is not understood is an error. -/
  strict : Bool := true
  /-- How much the report shows. -/
  verbosity : String := "default"
  deriving Repr, DecidableEq

/-- A configuration tree. -/
structure Tree where
  root : Menu
  /-- The last entry of each symbol. -/
  symbols : List (String × Entry) := []
  /-- The files in the order of their opening. -/
  files : List String := []
  report : Report := {}

/-- Whether the value of the variable that selects strict reading does so; it does unless it says
no. -/
def isStrict (setting : Option String) : Bool :=
  match setting with
  | none => true
  | some text => text ∉ ["0", "n", "no", "false"]

/-- The verbosity that is asked for, else that of the environment variable, else the default. -/
def effectiveVerbosity (wanted setting : Option String) : String :=
  match wanted.filter (· ≠ "") with
  | some verbosity => verbosity
  | none => setting.getD "default"

namespace Tree

/-- All entries below the root, in source order. -/
def nodes (tree : Tree) : List Entry :=
  Entry.walkAll tree.root.children

/-- Two trees are equal if their roots are. -/
def isEqual (a b : Tree) : Bool :=
  decide (a.root.toEntry = b.root.toEntry)

/-- The tree that a run leaves, given its top-level menu and its last context. -/
def ofRun (e : Entry) (ctx : Context) : Tree :=
  let root : Menu :=
    match e with
    | .menu head visibleIf children => { head, visibleIf, children }
    | e => { head := e.head }
  { root
    symbols := ctx.symbols
    files := ctx.visited
    report := { ctx.report with entryCount := (Entry.walkAll root.children).length } }

/-- Reads the tree of a top-level file. -/
def parse (fs : FileSystem) (settings : Settings) : Except Fault Tree := do
  let ctx : Context :=
    { root := settings.root
      environment := settings.environment
      strict := settings.strict
      report := { file := settings.file, verbosity := settings.verbosity } }
  match ctx.openFile fs settings.file with
  | .error (.missingFile name path) => .error (.missingRootFile name path)
  | .error fault => .error fault
  | .ok ctx =>
    let (e, ctx) ← (ctx.readEntry fs .top).mapError (·.fault)
    return ofRun e ctx

end Tree

end Kconfig
