import Kconfig.Context
import Kconfig.Path.Loose

/-!
# Inclusion of files

The directives that include a file name it by a quoted text or by the rest of the line. References
in the name are replaced; it is relative to the root or to the directory of the including file. A
file that is being read is not included again under its name or another spelling of it. A name with
halves of surrogate pairs, which only a reference can bring in, leads to no file.
-/

namespace Kconfig

structure SourceKind where
  /-- The name is relative to the directory of the including file. -/
  relative : Bool := false
  /-- The file need not exist. -/
  optional : Bool := false
  deriving Repr, DecidableEq

namespace SourceKind

def ofKeyword? (keyword : String) : Option SourceKind :=
  match keyword with
  | "source" => some {}
  | "rsource" => some { relative := true }
  | "osource" => some { optional := true }
  | "orsource" => some { relative := true, optional := true }
  | _ => none

def keyword : SourceKind → String
  | ⟨false, false⟩ => "source"
  | ⟨true, false⟩ => "rsource"
  | ⟨false, true⟩ => "osource"
  | ⟨true, true⟩ => "orsource"

/-- Reads the name of the file and what follows a quoted name in the line. -/
def readPath (kind : SourceKind) : List Token → Except ReadFailure (Reading (String × List String))
  | [] => .error .usedUp
  | ⟨.quoted _ text, _⟩ :: rest => readRest (fun texts => (text, texts)) rest
  | token :: rest =>
    if token.lexeme.isEnd then .error (.problem (.pathExpected kind.keyword))
    else readRest (fun texts => (String.join (token.lexeme.text :: texts), [])) rest

/-- Text after the path is passed over with a warning. -/
def extraFindings (kind : SourceKind) (start : Location) (texts : List String) : List Finding :=
  let extra := " ".intercalate texts
  if extra = "" then [] else [.warning start (.extraText kind.keyword extra)]

/-- The name of the file that `path` means in `file`. -/
def target (kind : SourceKind) (file : String) (path : Text.Loose) : Text.Loose :=
  if kind.relative then Path.joinLoose (Path.directory file) path else path

/-- What is noticed about a file that does not exist. -/
def missing (kind : SourceKind) (start : Location) (name path : Text.Loose) : Finding :=
  if kind.optional then .optionalMissing start name else .sourceMissing start name path

end SourceKind

namespace Context

/-- Opens the file that a directive names; a missing one is a finding. -/
def openSource (fs : FileSystem) (ctx : Context) (kind : SourceKind) (start : Location)
    (target : String) : Except Fault Context :=
  if fs.isDirectory (Path.join ctx.root target) then
    .error (ctx.malformed (.pathIsDirectory kind.keyword target))
  else if ctx.isOpen target then
    .error (ctx.malformed (.recursion kind.keyword target ctx.includePath))
  else
    match ctx.openFile fs target with
    | .error (.missingFile name path) => .ok (ctx.note [kind.missing start name path])
    | result => result

/-- Finds that a name with halves of surrogate pairs leads to no file. -/
def openLoose (fs : FileSystem) (ctx : Context) (kind : SourceKind) (start : Location)
    (target : Text.Loose) : Except Fault Context :=
  let path := Path.joinLoose ctx.root target
  if ctx.isOpen (Path.outline target) then
    .error (ctx.malformed (.recursion kind.keyword target ctx.includePath))
  else if !Path.isEncodable path then .error (.unencodable path)
  else if path.points.contains (.char Path.null) then .error .invalidPath
  else
    match fs.look (Path.stem path) with
    | .directory => .ok (ctx.note [kind.missing start target path])
    | .missing => .ok (ctx.note [kind.missing start target path])
    | _ => .error (.notDirectory path)

/-- Opens the file that a directive names, if there can be one with such a name. -/
def openTarget (fs : FileSystem) (ctx : Context) (kind : SourceKind) (start : Location)
    (target : Text.Loose) : Except Fault Context :=
  match target.whole? with
  | some target => ctx.openSource fs kind start target
  | none => ctx.openLoose fs kind start target

/-- Reads the rest of an inclusion directive and goes on in the file it names. -/
def readSource (fs : FileSystem) (ctx : Context) (kind : SourceKind) : Except Fault Context := do
  let start ← ctx.location
  let (r, ctx) ← ctx.readLine kind.readPath
  let ctx := ctx.note (kind.extraFindings start r.value.2)
  let path ← ctx.substitute r.value.1
  if path.whole?.any (·.trimBlanks = "") then .error (ctx.malformed (.pathExpected kind.keyword))
  else ctx.openTarget fs kind start (kind.target (← ctx.current).file path)

end Context

end Kconfig
