import Kconfig.Path
import Kconfig.Text.Loose

/-!
# Path names with halves of surrogate pairs

Text with halves of surrogate pairs is the name of no file. Some halves stand for single bytes, so
that a file system can still look for such a name; the others cannot be encoded at all.
-/

namespace Kconfig.Path

open Text

def null : Char := '\x00'

/-- The path that leads to `path` as seen from the directory `directory`. -/
def joinLoose (directory : String) (path : Loose) : Loose :=
  if path.points.head? = some (.char '/') then path else Loose.ofString (join directory "") ++ path

/-- The text with the character that no path holds for each half. -/
def outline (path : Loose) : String :=
  .ofList (path.points.map fun point => point.char?.getD null)

def isEncodable (path : Loose) : Bool :=
  path.points.all fun point => point.char?.isSome || point.isByte

/-- The directory in which the first component with a half would have to be. -/
def stem (path : Loose) : String :=
  let before := (path.points.map CodePoint.char?).takeWhile Option.isSome
  let directory := (before.filterMap id).reverse.dropWhile (· ≠ '/')
  if directory = [] then "." else .ofList directory.reverse

end Kconfig.Path
