import Kconfig.Finding
import Kconfig.Text.Tabs

/-!
# Directives

A directive gives an entry one attribute. Reading it from the rest of a line does not depend on the
entry; applying it changes the entry and may have findings.
-/

namespace Kconfig

/-- The sorts of directives, by what they are read like. -/
inductive DirectiveKind where
  | prompt
  | type (type : ValueType)
  /-- A type together with a default. -/
  | typedDefault (type : ValueType)
  | default
  | help
  | option
  | select
  | imply
  | range
  | depends
  | optional
  deriving Repr, DecidableEq

namespace DirectiveKind

def ofKeyword? (keyword : String) : Option DirectiveKind :=
  match keyword with
  | "prompt" => some .prompt
  | "bool" => some (.type .bool)
  | "boolean" => some (.type .bool)
  | "tristate" => some (.type .tristate)
  | "string" => some (.type .string)
  | "int" => some (.type .int)
  | "hex" => some (.type .hex)
  | "def_bool" => some (.typedDefault .bool)
  | "def_tristate" => some (.typedDefault .tristate)
  | "default" => some .default
  | "help" => some .help
  | "---help---" => some .help
  | "option" => some .option
  | "select" => some .select
  | "imply" => some .imply
  | "range" => some .range
  | "depends" => some .depends
  | "optional" => some .optional
  | _ => none

/-- Whether entries of a kind have the attribute that the directive gives. -/
def isFor (directive : DirectiveKind) (kind : EntryKind) : Bool :=
  match directive with
  | .prompt => true
  | .depends => true
  | .select => kind == .config || kind == .menuconfig
  | .imply => kind == .config || kind == .menuconfig
  | .range => kind == .config || kind == .menuconfig
  | .optional => kind == .choice
  | _ => kind == .config || kind == .menuconfig || kind == .choice

/-- Whether the directive is known inside entries of a kind. Comments know the directives that they
refuse. -/
def isKnownIn (directive : DirectiveKind) (kind : EntryKind) : Bool :=
  match kind with
  | .comment => directive != .prompt && directive != .optional
  | .menu => directive == .depends
  | _ => directive.isFor kind

end DirectiveKind

/-- A directive as it has been read. -/
inductive Directive where
  /-- The text of the prompt is as it was quoted. -/
  | prompt (prompt : Prompt)
  | type (type : ValueType) (prompt : Option Prompt)
  | default (type : Option ValueType) (value : Conditional)
  | depends (condition : Condition)
  | select (value : Conditional)
  | imply (value : Conditional)
  | range (range : Range)
  /-- The value comes from the environment variable `name`. -/
  | env (name : String)
  /-- An option without meaning for the tree. -/
  | otherOption (name : String)
  /-- There may be no help text after the keyword. -/
  | help (text : Option String)
  | optional
  | visible (condition : Condition)
  deriving Repr, DecidableEq

/-- The text that is left in a line, in the written form of its tokens, and where it stops. -/
def skipRest : List Token → Except ReadFailure (List String × Stop)
  | [] => .error .usedUp
  | token :: rest =>
    if token.lexeme.isEnd then .ok ([], { token, rest })
    else do
      let (texts, stop) ← skipRest rest
      return (token.lexeme.written :: texts, stop)

/-- Reads what is left in a line, and gives a value that depends on it. -/
def readRest {α : Type} (value : List String → α) (tokens : List Token) :
    Except ReadFailure (Reading α) :=
  (skipRest tokens).map fun (texts, stop) => { value := value texts, stop }

namespace Directive

/-- Reads a quoted text and an optional condition. -/
def readPrompt (keyword : String) : List Token → Except ReadFailure (Reading Prompt)
  | ⟨.quoted _ text, _⟩ :: rest =>
    (Condition.readOptional rest).map (·.map fun condition => { text, condition })
  | token :: _ => .error (.problem (.promptExpected keyword token.lexeme.written))
  | [] => .error .usedUp

/-- Reads an expression and an optional condition. -/
def readConditional (keyword : String) (tokens : List Token) :
    Except ReadFailure (Reading Conditional) := do
  let value ← Expression.readSome (.expressionExpected keyword) tokens
  let condition ← Condition.readOptional value.stop.upcoming
  return {
    value := { value := value.value, condition := condition.value }
    slips := value.slips ++ condition.slips
    stop := condition.stop }

/-- Reads the type's prompt, if one is there. -/
def readType (type : ValueType) (keyword : String) (tokens : List Token) :
    Except ReadFailure (Reading Directive) :=
  match tokens with
  | ⟨.quoted _ _, _⟩ :: _ => (readPrompt keyword tokens).map (·.map fun p => .type type (some p))
  | token :: rest => .ok { value := .type type none, stop := { token, rest } }
  | [] => .error .usedUp

def readDepends : List Token → Except ReadFailure (Reading Directive)
  | token :: rest =>
    if token.lexeme.wordText? = some "on" then
      (Expression.readSome (.expressionExpected "depends on") rest).map
        (·.map fun text => .depends ⟨text⟩)
    else .error (.problem .onExpected)
  | [] => .error .usedUp

/-- The text of the word that the tokens begin with, or the problem that there is none. -/
def readWord (problem : String → Problem) : List Token → Except ReadFailure (String × List Token)
  | token :: rest =>
    match token.lexeme.wordText? with
    | some text => .ok (text, rest)
    | none => .error (.problem (problem token.lexeme.written))
  | [] => .error .usedUp

/-- Reads two bounds and an optional condition. -/
def readRange (tokens : List Token) : Except ReadFailure (Reading Directive) := do
  let (low, tokens) ← readWord .boundExpected tokens
  let (high, tokens) ← readWord .boundExpected tokens
  let condition ← Condition.readOptional tokens
  return condition.map fun condition => .range { low, high, condition }

def readVariable : List Token → Except ReadFailure (Reading Directive)
  | ⟨.char '=', _⟩ :: tokens =>
    match tokens with
    | ⟨.quoted quote name, linenr⟩ :: rest =>
      .ok {
        value := .env name
        stop := { token := ⟨.quoted quote name, linenr⟩, rest, kept := false } }
    | _ :: _ => .error (.problem .optionVariableExpected)
    | [] => .error .usedUp
  | _ :: _ => .error (.problem .optionEqualsExpected)
  | [] => .error .usedUp

/-- Reads the name of an option and, for `env`, its variable; other options are passed over. -/
def readOption (tokens : List Token) : Except ReadFailure (Reading Directive) := do
  let (name, tokens) ← readWord .optionNameExpected tokens
  if name = "env" then readVariable tokens
  else readRest (fun _ => .otherOption name) tokens

/-- Reads a directive from the tokens after its keyword. Help texts are not read from tokens. -/
def read (kind : DirectiveKind) (keyword : String) (tokens : List Token) :
    Except ReadFailure (Reading Directive) :=
  match kind with
  | .prompt => (readPrompt keyword tokens).map (·.map .prompt)
  | .type t => readType t keyword tokens
  | .typedDefault t => (readConditional keyword tokens).map (·.map (.default (some t)))
  | .default => (readConditional keyword tokens).map (·.map (.default none))
  | .select => (readConditional keyword tokens).map (·.map .select)
  | .imply => (readConditional keyword tokens).map (·.map .imply)
  | .range => readRange tokens
  | .depends => readDepends tokens
  | .option => readOption tokens
  | .help => readRest (fun _ => .help none) tokens
  | .optional => readRest (fun _ => .optional) tokens

/-- Reads `if` and the condition under which the children of a menu are visible. -/
def readVisible : List Token → Except ReadFailure (Reading Directive)
  | token :: rest =>
    if token.lexeme.wordText? = some "if" then (Condition.read rest).map (·.map .visible)
    else .error (.problem .visibleIfExpected)
  | [] => .error .usedUp

/-- The text of a help directive from its raw lines: tabs are expanded, the indentation of the first
line is taken off each line, and blank lines at the end are left out. -/
def helpText (indent : Nat) (lines : List (List Char)) : String :=
  let kept := (lines.reverse.dropWhile Text.isBlankText).reverse
  .ofList <| kept.flatMap fun line =>
    (if Text.isBlankText line then [] else (Text.expandTabs line).drop indent) ++ ['\n']

/-- The indentation of a raw line in columns. -/
def column (line : List Char) : Nat :=
  Text.indentation (Text.expandTabs line)

/-- Reads the help text in the lines after the present one. The first line that is not blank sets
the indentation; the text goes up to the first line, not blank, with less, which is put back. -/
def readHelp (s : TokenStream) : Except Fault (Option String × TokenStream) := do
  let s ← s.discardLine
  let (_, first, s) ← s.takeLines Text.isBlankText
  match first with
  | none => return (none, s)
  | some line =>
    let indent := column line
    if indent = 0 then return (none, s)
    else
      let (lines, _, s) ← s.takeLines fun line => Text.isBlankText line || indent ≤ column line
      return (some (helpText indent lines), s)

/-- Where a directive is being read: the place at which its reading began and the line it is in.
They differ only if the reading began between lines. A prompt after a type begins in its line. -/
structure Site where
  start : Location
  line : Location
  deriving Repr, DecidableEq

/-- The findings for the slips in a line. -/
def slipFindings (site : Site) (slips : List Slip) : List Finding :=
  slips.map fun slip => .warning site.line (.slip slip)

/-- Gives an entry a prompt without the blanks at its ends. -/
def applyPrompt (site : Site) (slips : List Slip) (prompt : Prompt) (e : Entry) :
    Entry × List Finding :=
  let text := prompt.text.trimBlanks
  (e.setHead { e.head with prompt := some { prompt with text } },
    (if prompt.text = text then [] else [.warning site.start (.promptBlanks e.title)]) ++
      slipFindings site slips ++
      (if e.head.prompt.isSome then [.warning site.start (.promptAgain e.title)] else []))

/-- Changes the value of an entry that has one. -/
def modifyValue (f : Value → Value) (e : Entry) : Entry :=
  match e.value? with
  | some value => e.setValue (f value)
  | none => e

def modifyConfig (f : Config → Config) (e : Entry) : Entry :=
  match e with
  | .config c => .config (f c)
  | e => e

def apply (environment : List (String × Json)) (site : Site) (slips : List Slip)
    (directive : Directive) (e : Entry) : Entry × List Finding :=
  let noted := slipFindings site slips
  match directive with
  | .prompt p => applyPrompt site slips p e
  | .type t none => (modifyValue (fun v => { v with type := some t }) e, noted)
  | .type t (some p) =>
    applyPrompt ⟨site.line, site.line⟩ slips p (modifyValue (fun v => { v with type := some t }) e)
  | .default none value =>
    (modifyValue (fun v => { v with defaults := v.defaults ++ [value] }) e, noted)
  | .default (some t) value =>
    (modifyValue (fun v => { v with type := some t, defaults := v.defaults ++ [value] }) e, noted)
  | .depends condition => (e.addDepends condition, noted)
  | .select value => (modifyConfig (fun c => { c with selects := addNew c.selects value }) e, noted)
  | .imply value => (modifyConfig (fun c => { c with implies := addNew c.implies value }) e, noted)
  | .range r => (modifyConfig (fun c => { c with ranges := addNew c.ranges r }) e, noted)
  | .env name =>
    match environment.lookup name with
    | some value => (modifyValue (fun v => { v with env := value.present? }) e, noted)
    | none => (e, noted ++ [.warning site.line (.variableUnset e.title name)])
  | .otherOption name => (e, noted ++ [.optionIgnored site.line name])
  | .help none => (e, noted ++ [.warning site.start (.helpEmpty e.title)])
  | .help (some text) =>
    (modifyValue (fun v => { v with help := some text }) e,
      noted ++
        if (e.value?.bind (·.help)).isSome then [.warning site.start (.helpAgain e.title)] else [])
  | .optional =>
    match e with
    | .choice c => (.choice { c with optional := true }, noted)
    | e => (e, noted)
  | .visible condition =>
    match e with
    | .menu head _ children => (.menu head (some condition) children, noted)
    | e => (e, noted)

end Directive

end Kconfig
