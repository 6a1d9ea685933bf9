import Kconfig.Dump

/-!
# Help

The description of the program and its options.
-/

namespace Kconfig.CommandLine

/-- The options as the usage shows them. -/
def usageParts : List String :=
  ["[-h]", "--kconfig KCONFIG", "[--root ROOT]", "[--output FORMAT FILENAME]", "[--env NAME=VAL]",
    "[--env-file ENV_FILE]", "[--lenient]", "[--report-json REPORT_JSON]"]

/-- Adds parts to a line as long as it keeps within the width; the others go on further lines. -/
def fill (width : Nat) (indent line : String) : List String → List String
  | [] => [line]
  | part :: parts =>
    if (line ++ " " ++ part).length ≤ width then fill width indent (line ++ " " ++ part) parts
    else line :: fill width indent (indent ++ part) parts

def usage (program : String) : String :=
  let start := "usage: " ++ program
  let indent := String.ofList (List.replicate (start.length + 1) ' ')
  "\n".intercalate (fill 78 indent start usageParts) ++ "\n"

/-- What the options mean, a line each. -/
def optionLines : List String :=
  ["options:",
    "  -h, --help            show this help message and exit",
    "  --kconfig KCONFIG     Top-level Kconfig file",
    "  --root ROOT           Directory the paths of 'source' statements are",
    "                        relative to (default: the directory of the --kconfig",
    "                        file)",
    "  --output FORMAT FILENAME",
    "                        Write output file (format and output filename).",
    "                        Without any --output, JSON is written to stdout.",
    "  --env NAME=VAL        Environment value for 'option env' and $NAME in",
    "                        'source' paths",
    "  --env-file ENV_FILE   Optional file to load environment values from.",
    "                        Contents should be a JSON object where each key/value",
    "                        pair is a variable.",
    "  --lenient             Skip and report unrecognized text instead of failing",
    "  --report-json REPORT_JSON",
    "                        Write the parse report as JSON into this file instead",
    "                        of printing it"]

def help (program : String) : String :=
  usage program ++ "\nkconfdump v" ++ Tree.version ++ " - Kconfig Tree Dump Tool\n\n" ++
    String.join (optionLines.map (· ++ "\n"))

end Kconfig.CommandLine
