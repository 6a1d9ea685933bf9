import Kconfig.Entry
import Kconfig.Json

/-!
# Reports

A report collects what was noticed while reading without ending it. Its records are grouped in
areas; its status is the highest severity among the areas that have a record. It can be shown as
tables or as a JSON value.
-/

namespace Kconfig

inductive Severity where
  | ok
  | info
  | warning
  | error
  deriving Repr, DecidableEq

namespace Severity

/-- The rank of a severity; the more serious one has the higher rank. -/
def rank : Severity → Nat
  | .ok => 1
  | .info => 2
  | .warning => 3
  | .error => 4

/-- The severity with the given rank; other numbers count as errors. -/
def ofRank (n : Int) : Severity :=
  if n = 1 then .ok else if n = 2 then .info else if n = 3 then .warning else .error

def name : Severity → String
  | .ok => "OK"
  | .info => "Info"
  | .warning => "Warning"
  | .error => "Error"

def max (a b : Severity) : Severity :=
  if a.rank < b.rank then b else a

end Severity

inductive Area where
  /-- Included files that do not exist. -/
  | missing
  /-- Lines that were not understood and passed over. -/
  | skipped
  /-- Symbols that were defined more than once. -/
  | multiple
  /-- Everything else. -/
  | misc
  deriving Repr, DecidableEq

namespace Area

/-- All areas, in the order in which a report shows them. -/
def all : List Area :=
  [.missing, .skipped, .multiple, .misc]

def title : Area → String
  | .missing => "Missing Sourced Files"
  | .skipped => "Skipped Text"
  | .multiple => "Multiple Symbol Definitions"
  | .misc => "Miscellaneous"

/-- The explanation of an area, shown when the report is verbose. -/
def explanation : Area → Option String
  | .missing => some <|
    "These files are referenced by \"source\" but do not exist. Their entries are missing from " ++
    "the tree.\nCheck that the environment (e.g. $ARCH) is set correctly.\n"
  | .skipped => some <|
    "These lines were not recognized and were skipped because the parser runs in lenient mode.\n" ++
    "In strict mode (default), they are errors.\n"
  | .multiple => some <|
    "Multiple definitions of the same symbol name are allowed by the Kconfig syntax.\n" ++
    "However, it may happen that e.g. two different components accidentally define the same " ++
    "symbol name,\nwhich may lead to unexpected behavior.\n"
  | .misc => none

/-- How serious the records of an area are. -/
def severity : Area → Severity
  | .missing => .warning
  | .skipped => .warning
  | .multiple => .info
  | .misc => .info

end Area

/-- One thing to be recorded in a report. -/
inductive Record where
  | missing (location : String) (target : Text.Loose)
  | skipped (location text : String)
  /-- A symbol and places where it has been defined. -/
  | multiple (symbol : String) (occurrences : List String)
  | misc (message : Text.Loose)
  deriving Repr, DecidableEq

/-- A record without an area of its own needs a message. -/
def Record.misc? : Option Text.Loose → Except String Record
  | some message => .ok (.misc message)
  | none => .error "Message must be specified for MiscArea."

/-- A text and the style it is shown in. -/
abbrev Row := Text.Loose × Option String

structure Table where
  title : Option String := none
  rows : List Row := []
  deriving Repr, DecidableEq

structure Report where
  /-- The top-level file. -/
  file : String := ""
  verbosity : String := "default"
  /-- The warnings in the order in which they were found. -/
  warnings : List Text.Loose := []
  missing : List (String × Text.Loose) := []
  skipped : List (String × String) := []
  /-- The places of each symbol that was defined more than once, without repetition. -/
  multiple : List (String × List String) := []
  /-- The other messages, without repetition. -/
  messages : List Text.Loose := []
  /-- The number of entries in the finished tree. -/
  entryCount : Nat := 0
  deriving Repr, DecidableEq

namespace Report

/-- Adds places to the record of a symbol, at its position or at the end. -/
def mergeOccurrences (symbol : String) (occurrences : List String) :
    List (String × List String) → List (String × List String)
  | [] => [(symbol, occurrences.foldl addNew [])]
  | (name, known) :: others =>
    if name = symbol then (name, occurrences.foldl addNew known) :: others
    else (name, known) :: mergeOccurrences symbol occurrences others

def record (report : Report) : Record → Report
  | .missing location target => { report with missing := report.missing ++ [(location, target)] }
  | .skipped location text => { report with skipped := report.skipped ++ [(location, text)] }
  | .multiple symbol occurrences =>
    { report with multiple := mergeOccurrences symbol occurrences report.multiple }
  | .misc message => { report with messages := addNew report.messages message }

/-- The text of a message at a location, if there is one. -/
def located (location : Option String) (message : Text.Loose) : Text.Loose :=
  match location with
  | some location => location ++ ": " ++ message
  | none => message

/-- Adds a warning and the record that represents it. -/
def warnWith (report : Report) (message : Text.Loose) (location : Option String) (entry : Record) :
    Report :=
  let report :=
    { report with warnings := report.warnings ++ [located location ("warning: " ++ message)] }
  report.record entry

/-- Adds a warning, recorded among the other messages. -/
def warn (report : Report) (message : Text.Loose) (location : Option String) : Report :=
  report.warnWith message location (.misc (located location message))

/-- What is written at once for the warnings, a line each. -/
def warningLines (report : Report) : String :=
  String.join (report.warnings.map (·.shown ++ "\n"))

def hasRecord (report : Report) : Area → Bool
  | .missing => !report.missing.isEmpty
  | .skipped => !report.skipped.isEmpty
  | .multiple => !report.multiple.isEmpty
  | .misc => !report.messages.isEmpty

/-- How serious an area is: not at all without a record. -/
def severity (report : Report) (area : Area) : Severity :=
  if report.hasRecord area then area.severity else .ok

def status (report : Report) : Severity :=
  (Area.all.map report.severity).foldl Severity.max .ok

def rows (report : Report) : Area → List Row
  | .missing => report.missing.map fun (location, target) => (location ++ ": " ++ target, none)
  | .skipped => report.skipped.map fun (location, text) => (location ++ ": " ++ text, none)
  | .multiple => report.multiple.flatMap fun (symbol, places) =>
    (symbol, some "bold") :: places.map fun (place : String) => ("    " ++ place, none)
  | .misc => report.messages.map fun message => ("* " ++ message, none)

/-- The records of an area as a JSON value. -/
def data (report : Report) : Area → Json
  | .missing => .arr <| report.missing.map fun (location, target) =>
    .object [("location", .str location), ("target", .str target)]
  | .skipped => .arr <| report.skipped.map fun (location, text) =>
    .object [("location", .str location), ("text", .str text)]
  | .multiple => .object <| report.multiple.map fun (symbol, places) => (symbol, .ofStrings places)
  | .misc => .arr (report.messages.map .str)

/-- The table of an area that has a record. -/
def areaTable (report : Report) (verbosity : String) (area : Area) : Option Table :=
  if report.hasRecord area then
    let explained : List Row :=
      match area.explanation with
      | some text => if verbosity = "verbose" then [(text, some "italic")] else []
      | none => []
    some { title := some area.title, rows := explained ++ report.rows area }
  else none

/-- An area that has a record as a JSON value. -/
def areaJson (report : Report) (area : Area) : Option Json :=
  if report.hasRecord area then
    some <| .object [("title", .str area.title), ("severity", .str (report.severity area).name),
      ("data", report.data area)]
  else none

def statusRows (report : Report) : List Row :=
  match report.status with
  | .ok => [("Status: Finished successfully", some "green")]
  | .info => [("Status: Finished with notifications", some "green_yellow")]
  | .warning =>
    ("Status: Finished with warnings", some "yellow") ::
      if report.verbosity = "verbose" then
        [("Parsing is finished, but some parts of the Kconfig tree were skipped. " ++
          "Please check the relevant areas.", some "yellow")]
      else []
  | .error => [("Status: Failed", some "red")]

def header (report : Report) : Table where
  rows :=
    let entries : List Row :=
      if report.verbosity = "verbose" then
        [("Entries parsed: " ++ toString report.entryCount, none)]
      else []
    let last : Row := ("", none)
    ("Kconfig: " ++ report.file, none) :: ("Verbosity: " ++ report.verbosity, none) ::
      (entries ++ report.statusRows ++ [last])

/-- A quiet report is shown only if something went wrong. -/
def isSuppressed (report : Report) : Bool :=
  report.verbosity == "quiet" && (report.status == .ok || report.status == .info)

def title : String := "Parse Report"

/-- The tables of a report that is shown. -/
def tables? (report : Report) : Option (List Table) :=
  if report.isSuppressed then none
  else some (report.header :: Area.all.filterMap (report.areaTable report.verbosity))

def toJson (report : Report) : Json :=
  .object [
    ("header", .object [
      ("report_type", .str "kconftree"),
      ("kconfig", .str report.file),
      ("verbosity", .str report.verbosity),
      ("status", .str report.status.name),
      ("entries", .int report.entryCount)]),
    ("areas", .arr (Area.all.filterMap report.areaJson))]

end Report

end Kconfig
