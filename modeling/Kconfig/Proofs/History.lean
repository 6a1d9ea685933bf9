import Kconfig.Proofs.Reachable

/-!
# Histories of runs

The history of a run lists what the parser takes from the files, in the order in which it does so:
the headers of entries, directives, the begin and the end of `if` blocks, and the ends of entries. A
keyword that a step puts back is not taken by that step. The events of a step are read off the text
in front of it, so that a history can be compared with the tree that the run leaves.
-/

namespace Kconfig

/-- The begin of an entry: its keyword, the symbol after it, and the place of the keyword. -/
structure Header where
  kind : EntryKind
  symbol : Option String
  location : Location
  deriving Repr, DecidableEq

def Entry.header (e : Entry) : Header :=
  ⟨e.kind, e.head.symbol, e.head.location⟩

/-- Entries of these kinds go on up to an end keyword and hold other entries. -/
def EntryKind.isBlock : EntryKind → Bool
  | .choice => true
  | .menu => true
  | _ => false

/-- What is taken from the files. -/
inductive Event where
  | header (header : Header)
  /-- A directive of the innermost entry. -/
  | directive (directive : Directive)
  | openIf (condition : Condition)
  | closeIf
  /-- The end of the innermost entry, which is of the given kind. -/
  | close (kind : EntryKind)
  deriving Repr, DecidableEq

namespace Context

/-- The next token with the state of the file after it. -/
def ahead (ctx : Context) : Option (Token × TokenStream) :=
  ctx.files.head?.bind (·.next.toOption)

def wordAhead (ctx : Context) : Option String :=
  ctx.ahead.bind (·.1.lexeme.wordText?)

def valueAhead {α : Type} (ctx : Context) (read : List Token → Except ReadFailure (Reading α)) :
    Option α :=
  (ctx.readLine read).toOption.map (·.1.value)

def directiveAhead (ctx : Context) (kind : DirectiveKind) (keyword : String) : Option Directive :=
  match kind with
  | .optional => some .optional
  | .help => (ctx.files.head?.bind fun s => (Directive.readHelp s).toOption).map (.help ·.1)
  | kind => ctx.valueAhead (Directive.read kind keyword)

def headerEvents (ctx : Context) (kind : EntryKind) (symbol : Option String) : List Event :=
  ctx.location?.toList.map fun location => .header ⟨kind, symbol, location⟩

def promptEvents (ctx : Context) (keyword : String) : List Event :=
  (ctx.directiveAhead .prompt keyword).toList.map .directive

/-- What a block keyword brings, when it has just been taken. -/
def keywordEvents (ctx : Context) (word : String) : BlockKeyword → List Event
  | .config isMenu => ctx.headerEvents (if isMenu then .menuconfig else .config) ctx.wordAhead
  | .choice => ctx.headerEvents .choice ctx.wordAhead
  | .comment => ctx.headerEvents .comment none ++ ctx.promptEvents "comment"
  | .menu => ctx.headerEvents .menu none ++ ctx.promptEvents "menu"
  | .endChoice => [.close .choice]
  | .endMenu => [.close .menu]
  | .source _ => []
  | .openIf => (ctx.valueAhead Condition.read).toList.map .openIf
  | .closeIf => [.closeIf]
  | .mainMenu => ctx.promptEvents word

end Context

def Progress.ctx : Progress → Context
  | .running s => s.ctx
  | .finished _ ctx => ctx

namespace State

def directiveAt (s : State) (ctx : Context) (word : String) : Option Directive :=
  if s.frame.entry.kind = .menu ∧ word = "visible" then ctx.valueAhead Directive.readVisible
  else
    match DirectiveKind.ofKeyword? word with
    | some directive =>
      if directive.isKnownIn s.frame.entry.kind then ctx.directiveAhead directive word else none
    | none => none

/-- What a step takes. An entry that holds no others ends in front of the next block keyword, which
it puts back, or at the end of the file. -/
def events (s : State) (progress : Progress) : List Event :=
  match s.ctx.next with
  | .error _ => []
  | .ok (token, ctx) =>
    let kind := s.frame.entry.kind
    match token.lexeme with
    | .fileEnd => if kind.isBlock ∧ s.frame.depth < ctx.depth then [] else [.close kind]
    | .word word =>
      match BlockKeyword.ofWord? word with
      | some keyword =>
        (if kind.isBlock then [] else [.close kind]) ++
          if progress.ctx.ahead = s.ctx.ahead then [] else ctx.keywordEvents word keyword
      | none => (s.directiveAt ctx word).toList.map .directive
    | _ => []

/-- All that the steps from a state on take. -/
def history (fs : FileSystem) (s : State) : List Event :=
  match _h : s.step fs with
  | .error _ => []
  | .ok (.finished e ctx) => s.events (.finished e ctx)
  | .ok (.running s') => s.events (.running s') ++ history fs s'
termination_by (follows_wellFounded fs).wrap s
decreasing_by exact _h

lemma history_of_running {fs : FileSystem} {s s' : State} (h : s.step fs = .ok (.running s')) :
    s.history fs = s.events (.running s') ++ s'.history fs := by
  rw [history]
  split <;> simp_all

lemma history_of_finished {fs : FileSystem} {s : State} {e : Entry} {ctx : Context}
    (h : s.step fs = .ok (.finished e ctx)) : s.history fs = s.events (.finished e ctx) := by
  rw [history]
  split <;> simp_all

/-- All that the steps from a state on take, if there are at most `n` steps. -/
def historyFor (fs : FileSystem) : Nat → State → Option (List Event)
  | 0, _ => none
  | n + 1, s =>
    match s.step fs with
    | .error _ => some []
    | .ok (.finished e ctx) => some (s.events (.finished e ctx))
    | .ok (.running s') => (historyFor fs n s').map (s.events (.running s') ++ ·)

lemma history_of_historyFor {fs : FileSystem} {n : Nat} {s : State} {events : List Event}
    (h : historyFor fs n s = some events) : s.history fs = events := by
  induction n generalizing s events with
  | zero => cases h
  | succ n ih =>
    rw [historyFor] at h
    cases hstep : s.step fs with
    | error fault =>
      rw [hstep] at h
      cases h
      rw [history]
      split <;> simp_all
    | ok p =>
      rw [hstep] at h
      cases p with
      | finished e ctx =>
        cases h
        exact history_of_finished hstep
      | running s' =>
        obtain ⟨events', hevents', rfl⟩ := Option.map_eq_some_iff.1 h
        rw [history_of_running hstep, ih hevents']

end State

/-- All that is taken while the tree of a top-level file is read. -/
def Settings.history (fs : FileSystem) (settings : Settings) : List Event :=
  match settings.start fs with
  | .ok s => s.history fs
  | .error _ => []

/-- All that is taken while the tree is read, if there are at most `n` steps. -/
def Settings.historyFor (fs : FileSystem) (settings : Settings) (n : Nat) : Option (List Event) :=
  (settings.start fs).toOption.bind (·.historyFor fs n)

lemma Settings.history_of_historyFor {fs : FileSystem} {settings : Settings} {n : Nat}
    {events : List Event} (h : settings.historyFor fs n = some events) :
    settings.history fs = events := by
  unfold historyFor at h
  unfold history
  cases hstart : settings.start fs with
  | error fault =>
    rw [hstart] at h
    cases h
  | ok s =>
    rw [hstart] at h
    exact State.history_of_historyFor h

end Kconfig
