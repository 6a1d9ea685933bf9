import Kconfig.Entry
import Kconfig.Text.Utf8

/-!
# Faults

Everything that can end the reading of a configuration tree, by cause, with the data that tells one
case from another. What is wrong with the text of a file, or with a request, has a wording here; the
errors of opening, decoding and converting have that of the system.
-/

namespace Kconfig

/-- What can be wrong with the text of a file. -/
inductive Problem where
  /-- A line of an entry begins with nothing known. -/
  | unrecognized (kind : EntryKind) (text : String)
  | promptExpected (keyword found : String)
  | expressionExpected (keyword : String)
  /-- `depends` is not followed by `on`. -/
  | onExpected
  | boundExpected (found : String)
  | optionNameExpected (found : String)
  | optionEqualsExpected
  | optionVariableExpected
  | pathExpected (keyword : String)
  | pathIsDirectory (keyword target : String)
  /-- A file is included while it is being read; `including` leads to the place. -/
  | recursion (keyword : String) (target : Text.Loose) (including : List String)
  /-- No expression follows `if`. -/
  | conditionExpected
  /-- A condition does not start with `if`. -/
  | ifExpected
  | visibleIfExpected
  | symbolExpected (keyword found : String)
  | parenthesisOpen
  | unexpectedInExpression (found : String)
  /-- An end keyword without an open block of its sort. -/
  | unmatched (keyword opener : String)
  /-- The file ends inside a block. -/
  | unclosed (keyword title : String)
  /-- An `if` is still open where it must be closed. -/
  | unclosedIf (condition : String) (before : Option String)
  /-- A block ends in another file than it started in. -/
  | otherFile (keyword title : String)
  /-- A block closes an `if` opened outside of it. -/
  | crossingEndif (title : String)
  | notInChoice (keyword title : String)
  | mainmenuInside (title : String)
  | mainmenuAgain (location : Location)
  deriving Repr, DecidableEq

def Problem.message : Problem → Text.Loose
  | .unrecognized kind text => "unrecognized text in " ++ kind.name ++ " entry: [" ++ text ++ "]"
  | .promptExpected keyword found =>
    "expected prompt string after '" ++ keyword ++ "', got " ++ found
  | .expressionExpected keyword => "'" ++ keyword ++ "' needs an expression"
  | .onExpected => "'on' must follow 'depends'"
  | .boundExpected found => "'range' needs two values, got " ++ found
  | .optionNameExpected found => "'option' needs a name, got " ++ found
  | .optionEqualsExpected => "'option env' needs an '='"
  | .optionVariableExpected => "'option env' needs a quoted variable name"
  | .pathExpected keyword => "'" ++ keyword ++ "' needs a path"
  | .pathIsDirectory keyword target =>
    "'" ++ keyword ++ "' target '" ++ target ++ "' is a directory, not a Kconfig file"
  | .recursion keyword target including =>
    "recursive '" ++ keyword ++ "' of '" ++ target ++ "' detected. Include path: " ++
      " -> ".intercalate including
  | .conditionExpected => "expected expression after 'if'"
  | .ifExpected => "condition must start with 'if'"
  | .visibleIfExpected => "'if' must follow 'visible'"
  | .symbolExpected keyword found =>
    "expected symbol name after '" ++ keyword ++ "', got " ++ found
  | .parenthesisOpen => "unbalanced parenthesis in expression: missing ')'"
  | .unexpectedInExpression found => "unexpected '" ++ found ++ "' in expression"
  | .unmatched keyword opener => "'" ++ keyword ++ "' without matching '" ++ opener ++ "'"
  | .unclosed keyword title => "missing '" ++ keyword ++ "' for " ++ title
  | .unclosedIf condition none => "missing 'endif' for 'if " ++ condition ++ "'"
  | .unclosedIf condition (some keyword) =>
    "missing 'endif' for 'if " ++ condition ++ "' before '" ++ keyword ++ "'"
  | .otherFile keyword title => "'" ++ keyword ++ "' is not in the same file as " ++ title
  | .crossingEndif title => "'endif' inside " ++ title ++ " closes an 'if' opened outside of it"
  | .notInChoice keyword title =>
    "'" ++ keyword ++ "' is not allowed inside a choice (" ++ title ++ ")"
  | .mainmenuInside title => "'mainmenu' is not allowed inside " ++ title
  | .mainmenuAgain location => "'mainmenu' already given at " ++ location.text

/-- Requests that make no sense in the state they are made in. -/
inductive Misuse where
  /-- The directive does not exist for entries of this kind. -/
  | notValid (keyword : String) (kind : EntryKind) (location : Location)
  | secondUnread (location : Location)
  | secondPushBack (location : Location)
  | pushBackFirst (file : String)
  /-- Raw lines are asked for inside a line whose tokens are being read. -/
  | insideLine (location : Location) (request : String)
  | noOpenFile
  deriving Repr, DecidableEq

def Misuse.message : Misuse → String
  | .notValid keyword kind location =>
    location.text ++ ": '" ++ keyword ++ "' is not valid for " ++ kind.name ++ " entries"
  | .secondUnread location => location.text ++ ": only one line can be pushed back"
  | .secondPushBack location =>
    location.text ++ ": push_back() called twice without next_token() in between"
  | .pushBackFirst file => file ++ ": push_back() called before the first token"
  | .insideLine location request =>
    location.text ++ ": " ++ request ++ "() called in the middle of a tokenized line"
  | .noOpenFile => "No Kconfig file is open"

/-- What ends the reading. -/
inductive Fault where
  /-- The text of a file is wrong at the location, if a file is open. -/
  | malformed (location : Option Location) (problem : Problem)
  | misuse (request : Misuse)
  /-- The file `name` does not exist at `path`. -/
  | missingFile (name path : String)
  | missingRootFile (name path : String)
  /-- The bytes that are read next are not text. -/
  | undecodable (error : Text.DecodeError)
  /-- A word is a decimal number of so many digits that it has no value. -/
  | tooManyDigits (digits : Nat)
  /-- A path leads through a file as if it were a directory. -/
  | notDirectory (path : Text.Loose)
  /-- A directory stands where a file is needed. -/
  | isDirectory (path : Text.Loose)
  /-- A null character, which no path can hold, is in a text. -/
  | invalidPath
  /-- Half of a surrogate pair, which no path can hold, is in a text. -/
  | unencodable (path : Text.Loose)
  /-- A reference in a path has a value that is no text. -/
  | notText
  deriving Repr, DecidableEq

/-- The text of an error at a location. -/
def errorText (location : Option Location) (message : Text.Loose) : Text.Loose :=
  match location with
  | none => "error: " ++ message
  | some location => location.text ++ ": error: " ++ message

namespace Fault

/-- The wording of a fault that lies in what is read, and not in the way the system answers. -/
def message? : Fault → Option Text.Loose
  | .malformed location problem => some (errorText location problem.message)
  | .misuse m => some m.message
  | .missingFile name path => some (missing name path)
  | .missingRootFile name path => some (missing name path)
  | _ => none
where
  missing (name path : String) : Text.Loose :=
    "Could not find '" ++ name ++ "' (looked for '" ++ path ++ "')"

/-- The place that the fault is about. -/
def location? : Fault → Option Location
  | .malformed location _ => location
  | .misuse (.notValid _ _ location) => some location
  | _ => none

end Fault

end Kconfig
