/-!
# Path names

Path names with `/` as separator: joining, splitting, normalisation and the way from one directory
to a file. Everything here works on the text alone; what a path leads to is for the file system to
say.
-/

namespace Kconfig.Path

abbrev Name := List Char

/-- The component that stays in a directory. -/
def here : Name := ['.']

/-- The component that leads to the directory above. -/
def up : Name := ['.', '.']

/-- The components between the slashes; adjacent slashes have an empty component between them. -/
def components : List Char → List Name
  | [] => [[]]
  | c :: cs =>
    if c = '/' then [] :: components cs
    else
      match components cs with
      | [] => [[c]]
      | name :: names => (c :: name) :: names

def ofComponents (names : List Name) : List Char :=
  ['/'].intercalate names

/-- A path that begins with a slash does not depend on the directory it is used in. -/
def isAbsolute (path : List Char) : Bool :=
  path.head? == some '/'

/-- The path that leads to `path` as seen from the directory `directory`. -/
def joinChars (directory path : List Char) : List Char :=
  if isAbsolute path then path
  else if directory = [] ∨ directory.getLast? = some '/' then directory ++ path
  else directory ++ '/' :: path

def baseChars (path : List Char) : List Char :=
  (path.reverse.takeWhile (· ≠ '/')).reverse

/-- What precedes the last slash, without the slashes at its end unless it holds nothing else. -/
def directoryChars (path : List Char) : List Char :=
  let head := (path.reverse.dropWhile (· ≠ '/')).reverse
  if head.all (· = '/') then head else (head.reverse.dropWhile (· = '/')).reverse

/-- Follows one component from the reduced path whose components are `stack`, the last one first. A
step up cancels the component before it; where there is none, it is kept if the path is relative. -/
def reduceStep (absolute : Bool) (stack : List Name) (name : Name) : List Name :=
  if name = [] ∨ name = here then stack
  else if name = up then
    match stack with
    | [] => if absolute then [] else [up]
    | top :: rest => if top = up then up :: stack else rest
  else name :: stack

/-- The components that remain of `names` when steps up have been cancelled. -/
def reduce (absolute : Bool) (names : List Name) : List Name :=
  (names.foldl (reduceStep absolute) []).reverse

/-- The slashes in front of a normalised path: exactly two are kept, more are one. -/
def rootChars : List Char → List Char
  | '/' :: '/' :: '/' :: _ => ['/']
  | '/' :: '/' :: _ => ['/', '/']
  | '/' :: _ => ['/']
  | _ => []

/-- The path without repeated slashes, without steps that stay, and with steps up cancelled. -/
def normalizeChars (path : List Char) : List Char :=
  let text := rootChars path ++ ofComponents (reduce (isAbsolute path) (components path))
  if text = [] then here else text

/-- The components of the absolute path that `path` stands for in the directory `working`. -/
def absoluteComponents (working : List Name) (path : List Char) : List Name :=
  reduce true (if isAbsolute path then components path else working ++ components path)

/-- The two lists without their longest common beginning. -/
def dropCommon : List Name → List Name → List Name × List Name
  | a :: as, b :: bs => if a = b then dropCommon as bs else (a :: as, b :: bs)
  | as, bs => (as, bs)

/-- The way to `path` from the directory `start`, both as seen from the directory `working`. -/
def relativeChars (working : List Name) (path start : List Char) : List Char :=
  let (ups, downs) :=
    dropCommon (absoluteComponents working start) (absoluteComponents working path)
  match ups.map (fun _ => up) ++ downs with
  | [] => here
  | names => ofComponents names

/-- The path that leads to `path` as seen from the directory `directory`. -/
def join (directory path : String) : String :=
  .ofList (joinChars directory.toList path.toList)

def base (path : String) : String :=
  .ofList (baseChars path.toList)

def directory (path : String) : String :=
  .ofList (directoryChars path.toList)

/-- Two paths with one normal form differ only in spelling. -/
def normalize (path : String) : String :=
  .ofList (normalizeChars path.toList)

/-- The way to `path` from the directory `start`. -/
def relative (working : List Name) (path start : String) : String :=
  .ofList (relativeChars working path.toList start.toList)

end Kconfig.Path
