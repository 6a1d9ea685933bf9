import Kconfig.Expression
import Kconfig.Report

/-!
# Findings

What reading a configuration tree can notice without ending, by cause, and how each finding enters
the report.
-/

namespace Kconfig

/-- The causes of warnings about what has been read. -/
inductive Warning where
  | slip (slip : Slip)
  /-- The prompt of the entry had blanks at its ends. -/
  | promptBlanks (title : String)
  | promptAgain (title : String)
  | helpEmpty (title : String)
  | helpAgain (title : String)
  | variableUnset (title name : String)
  /-- Text after the path of an included file. -/
  | extraText (keyword text : String)
  deriving Repr, DecidableEq

def Warning.message : Warning → String
  | .slip (.dangling c) => "dangling '" ++ .singleton c ++ "' in expression discarded"
  | .slip (.doubled c) =>
    "single '" ++ .singleton c ++ "' in expression read as '" ++ .singleton c ++ .singleton c ++ "'"
  | .promptBlanks title => title ++ " has leading or trailing whitespace in its prompt"
  | .promptAgain title => title ++ " defined with multiple prompts in single location"
  | .helpEmpty title => title ++ " has 'help' but empty help text"
  | .helpAgain title =>
    title ++ " defined with more than one help text -- only the last one will be used"
  | .variableUnset title name =>
    title ++ " takes its value from the environment variable " ++ name ++ ", which is not set"
  | .extraText keyword text => "extra text after '" ++ keyword ++ "' ignored: [" ++ text ++ "]"

inductive Finding where
  | warning (location : Location) (cause : Warning)
  | optionIgnored (location : Location) (name : String)
  /-- A file that need not exist does not. -/
  | optionalMissing (location : Location) (target : Text.Loose)
  | sourceMissing (location : Location) (target path : Text.Loose)
  | textSkipped (location : Location) (text : String)
  /-- A symbol is defined again; all places of its definitions so far. -/
  | redefined (symbol : String) (places : List String)
  deriving Repr, DecidableEq

def Report.add (report : Report) : Finding → Report
  | .warning location cause => report.warn cause.message (some location.text)
  | .optionIgnored location name =>
    report.record (.misc (location.text ++ ": option '" ++ name ++ "' ignored"))
  | .optionalMissing location target =>
    report.record (.misc (location.text ++ ": optional '" ++ target ++ "' not found, skipped"))
  | .sourceMissing location target path =>
    report.warnWith
      ("can't find sourced file '" ++ target ++ "' (looked for '" ++ path ++ "'), skipping")
      (some location.text) (.missing location.text target)
  | .textSkipped location text =>
    report.warnWith ("skipping unrecognized text [" ++ text ++ "]") (some location.text)
      (.skipped location.text text)
  | .redefined symbol places => report.record (.multiple symbol places)

end Kconfig
