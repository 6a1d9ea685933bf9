import Kconfig.Keyword

/-!
# Reading entries

The entries that are being read form a stack of frames. One step reads a directive, opens or closes
an entry, or changes the file that is read; it acts on the innermost frame alone. Configs and
comments end in front of the next block keyword or at the end of their file. Choices and menus end
with their end keyword, and the top-level menu at the end of the top-level file.
-/

namespace Kconfig

structure Frame where
  /-- The entry as far as it has been read. -/
  entry : Entry
  /-- The conditions of the `if` blocks that were open when it began. -/
  scope : List Condition
  /-- The number of files that were open when it began. -/
  depth : Nat
  /-- The entry is the top-level menu. -/
  isTop : Bool := false
  deriving Repr, DecidableEq

/-- A state of the parser: the innermost frame, those around it, and the context. -/
structure State where
  ctx : Context
  frame : Frame
  outer : List Frame := []
  deriving Repr, DecidableEq

inductive Progress where
  | running (state : State)
  /-- The outermost frame is closed. -/
  | finished (entry : Entry) (ctx : Context)

namespace Frame

/-- The frame with a change of its entry. -/
def withEntry (frame : Frame) (entry : Entry) : Frame :=
  { frame with entry }

/-- Opens a config after its keyword; its symbol must follow. -/
def openConfig (ctx : Context) (isMenu : Bool) (keyword : String) :
    Except Fault (Frame × Context) := do
  let location ← ctx.location
  let (token, ctx) ← ctx.next
  match token.lexeme.wordText? with
  | none => .error (ctx.malformed (.symbolExpected keyword token.lexeme.written))
  | some symbol =>
    let entry := .config { head := { location, symbol := some symbol }, isMenu }
    return ({ entry, scope := ctx.scope, depth := ctx.depth }, ctx.define entry)

/-- Opens a comment after its keyword; its prompt must follow. -/
def openComment (ctx : Context) : Except Fault (Frame × Context) := do
  let location ← ctx.location
  let (entry, ctx) ← ctx.readDirective .prompt "comment" (.comment { head := { location } })
  return ({ entry, scope := ctx.scope, depth := ctx.depth }, ctx)

/-- Opens a choice after its keyword; a symbol may follow. -/
def openChoice (ctx : Context) : Except Fault (Frame × Context) := do
  let location ← ctx.location
  let (token, ctx) ← ctx.next
  let symbol := token.lexeme.wordText?
  let ctx ← if symbol.isNone then ctx.pushBack else pure ctx
  let entry := .choice { head := { location, symbol } }
  return ({ entry, scope := ctx.scope, depth := ctx.depth }, ctx)

/-- Opens a menu after its keyword; its prompt must follow. -/
def openMenu (ctx : Context) : Except Fault (Frame × Context) := do
  let location ← ctx.location
  let (entry, ctx) ← ctx.readDirective .prompt "menu" (.menu { location } none [])
  return ({ entry, scope := ctx.scope, depth := ctx.depth }, ctx)

/-- Opens the top-level menu at the beginning of the top-level file. -/
def openTop (ctx : Context) : Except Fault (Frame × Context) := do
  let file := (← ctx.current).file
  let entry := .menu { location := ⟨file, 1⟩ } none []
  return ({ entry, scope := ctx.scope, depth := ctx.depth, isTop := true }, ctx)

end Frame

namespace State

def goOn (s : State) (ctx : Context) : Progress :=
  .running { s with ctx }

/-- Goes on inside an entry that has just been opened. -/
def descend (s : State) (opened : Frame × Context) : Progress :=
  .running { ctx := opened.2, frame := opened.1, outer := s.frame :: s.outer }

def update (s : State) (result : Entry × Context) : Progress :=
  .running { s with ctx := result.2, frame := s.frame.withEntry result.1 }

/-- Closes the innermost frame: its entry is completed and becomes a child of the entry around it.
Symbols of configs have been registered before, those of choices are now. -/
def close (s : State) (ctx : Context) : Progress :=
  let entry := s.frame.entry.finish s.frame.scope
  let ctx :=
    match entry with
    | .config _ => ctx.setSymbol entry
    | .choice _ => ctx.define entry
    | _ => ctx
  match s.outer with
  | [] => .finished entry ctx
  | frame :: outer =>
    .running { ctx, frame := frame.withEntry (frame.entry.addChild entry), outer }

/-- A word that is no block keyword: a directive of the entry, or nothing known. -/
def stepDirective (s : State) (ctx : Context) (word : String) : Except Fault Progress := do
  let entry := s.frame.entry
  match DirectiveKind.ofKeyword? word with
  | some directive =>
    if directive.isKnownIn entry.kind then
      return s.update (← ctx.readDirective directive word entry)
    else return s.goOn (← ctx.unrecognized entry.kind word)
  | none => return s.goOn (← ctx.unrecognized entry.kind word)

/-- A word inside a config or comment. -/
def stepLeaf (s : State) (ctx : Context) (word : String) : Except Fault Progress := do
  match BlockKeyword.ofWord? word with
  | some _ => return s.close (← ctx.pushBack)
  | none => s.stepDirective ctx word

def stepChoice (fs : FileSystem) (s : State) (ctx : Context) (word : String) :
    Except Fault Progress := do
  let entry := s.frame.entry
  match BlockKeyword.ofWord? word with
  | none => s.stepDirective ctx word
  | some .endChoice =>
    ctx.checkBlockEnd entry word s.frame.depth s.frame.scope
    return s.close ctx
  | some (.config isMenu) => return s.descend (← Frame.openConfig ctx isMenu word)
  | some .comment => return s.descend (← Frame.openComment ctx)
  | some (.source kind) => return s.goOn (← ctx.readSource fs kind)
  | some .openIf => return s.goOn (← ctx.readIf)
  | some .closeIf => return s.goOn (← ctx.readEndif)
  | some .choice => .error (ctx.malformed (.notInChoice word entry.title))
  | some .menu => .error (ctx.malformed (.notInChoice word entry.title))
  | some .endMenu => .error (ctx.malformed (.notInChoice word entry.title))
  | some .mainMenu => .error (ctx.malformed (.notInChoice word entry.title))

/-- The `mainmenu` keyword: it gives the top-level menu its prompt, once. -/
def stepMainMenu (s : State) (ctx : Context) (word : String) : Except Fault Progress := do
  let entry := s.frame.entry
  if !s.frame.isTop then .error (ctx.malformed (.mainmenuInside entry.title))
  else if entry.head.prompt.isSome then
    .error (ctx.malformed (.mainmenuAgain entry.head.location))
  else
    let entry := entry.setHead { entry.head with location := ← ctx.location }
    return s.update (← ctx.readDirective .prompt word entry)

def stepMenu (fs : FileSystem) (s : State) (ctx : Context) (word : String) :
    Except Fault Progress := do
  let entry := s.frame.entry
  match BlockKeyword.ofWord? word with
  | none =>
    if word = "visible" then return s.update (← ctx.readExtra Directive.readVisible entry)
    else s.stepDirective ctx word
  | some .endMenu =>
    if s.frame.isTop then .error (ctx.malformed (.unmatched word "menu"))
    else
      ctx.checkBlockEnd entry word s.frame.depth s.frame.scope
      return s.close ctx
  | some (.config isMenu) => return s.descend (← Frame.openConfig ctx isMenu word)
  | some .choice => return s.descend (← Frame.openChoice ctx)
  | some .comment => return s.descend (← Frame.openComment ctx)
  | some .menu => return s.descend (← Frame.openMenu ctx)
  | some (.source kind) => return s.goOn (← ctx.readSource fs kind)
  | some .openIf => return s.goOn (← ctx.readIf)
  | some .closeIf => return s.goOn (← ctx.readEndif)
  | some .endChoice => .error (ctx.malformed (.unmatched word "choice"))
  | some .mainMenu => s.stepMainMenu ctx word

/-- The end of a file: a config or comment ends there, a block goes on in the file below. -/
def stepFileEnd (s : State) (ctx : Context) : Except Fault Progress := do
  let entry := s.frame.entry
  match entry with
  | .config _ => return s.close (← ctx.pushBack)
  | .comment _ => return s.close (← ctx.pushBack)
  | .choice _ =>
    if s.frame.depth < ctx.depth then return s.goOn ctx.closeFile
    else .error (ctx.malformed (.unclosed "endchoice" entry.title))
  | .menu _ _ _ =>
    if s.frame.depth < ctx.depth then return s.goOn ctx.closeFile
    else if !s.frame.isTop then .error (ctx.malformed (.unclosed "endmenu" entry.title))
    else
      match ctx.scope.getLast? with
      | some condition => .error (ctx.malformed (.unclosedIf condition.text none))
      | none => return s.close ctx

/-- One step of the parser. -/
def step (fs : FileSystem) (s : State) : Except Fault Progress := do
  let (token, ctx) ← s.ctx.next
  match token.lexeme with
  | .fileEnd => s.stepFileEnd ctx
  | .lineEnd => return s.goOn ctx
  | .word word =>
    match s.frame.entry with
    | .config _ => s.stepLeaf ctx word
    | .comment _ => s.stepLeaf ctx word
    | .choice _ => s.stepChoice fs ctx word
    | .menu _ _ _ => s.stepMenu fs ctx word
  | lexeme => return s.goOn (← ctx.unrecognized s.frame.entry.kind lexeme.written)

end State

end Kconfig
