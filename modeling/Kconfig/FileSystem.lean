import Kconfig.Path

/-!
# File systems

A file system, as a reader of files sees it, says for each path what it leads to. Only finitely many
normalised names can be opened below a given root; this is what makes every chain of inclusions end.
-/

namespace Kconfig

inductive Target where
  /-- A regular file with the given content. -/
  | file (bytes : List UInt8)
  /-- A directory. -/
  | directory
  /-- Nothing. -/
  | missing
  /-- A component that would have to be a directory is a file. -/
  | blocked
  /-- The text cannot be a path. -/
  | invalid
  deriving Repr, DecidableEq

/-- A file system answers for every path, and below each root only finitely many normalised names
lead to files. -/
structure FileSystem where
  /-- What the path leads to. -/
  look : String → Target
  finite : ∀ root : String, ∃ names : List String, ∀ name bytes,
    look (Path.join root name) = .file bytes → Path.normalize name ∈ names

/-- Whether the path leads to a directory. -/
def FileSystem.isDirectory (fs : FileSystem) (path : String) : Bool :=
  fs.look path == .directory

end Kconfig
