import Kconfig.FileSystem

/-!
# Places for files

Whether a file can be written at a path: it replaces a file, or it is new in a directory that
exists.
-/

namespace Kconfig

/-- Why a file cannot be written at a path. -/
inductive WriteFault where
  /-- The directory of the file does not exist. -/
  | missing
  /-- The path is that of a directory, or is written like one. -/
  | isDirectory
  /-- The path leads through a file as if it were a directory. -/
  | notDirectory
  /-- The text cannot be a path. -/
  | invalidPath
  deriving Repr, DecidableEq

namespace FileSystem

/-- What prevents a new name after the last slash of a path. -/
def parentFault? (fs : FileSystem) (path : List Char) : Option WriteFault :=
  match (path.reverse.dropWhile (· ≠ '/')).reverse with
  | [] => none
  | parent =>
    match fs.look (.ofList parent) with
    | .missing => some .missing
    | .blocked => some .notDirectory
    | _ => none

/-- What prevents a file from being written at a path. -/
def writeFault? (fs : FileSystem) (path : String) : Option WriteFault :=
  if path = "" then some .missing
  else if path.toList.getLast? = some '/' then
    match (path.toList.reverse.dropWhile (· = '/')).reverse with
    | [] => some .isDirectory
    | named => some ((fs.parentFault? named).getD .isDirectory)
  else
    match fs.look path with
    | .file _ => none
    | .directory => some .isDirectory
    | .invalid => some .invalidPath
    | _ => fs.parentFault? path.toList

end FileSystem

end Kconfig
