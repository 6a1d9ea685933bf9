import Kconfig.Tree
import Mathlib.Order.WellFounded
import Mathlib.Tactic.Lemma

/-!
# Reachable states

Reading a tree opens the top-level file and then makes steps. This file describes both by the states
they lead through: `Settings.start` is the first state, `Reachable` are all states of a run, and
every run that ends does so in a step of a reachable state. Steps are well-founded, so a statement
about runs is proved for a state once it holds for the state that the next step leads to.
-/

namespace Kconfig

def Settings.context (settings : Settings) : Context :=
  { root := settings.root
    environment := settings.environment
    strict := settings.strict
    report := { file := settings.file, verbosity := settings.verbosity } }

/-- The state at the beginning of the top-level file. -/
def Settings.start (fs : FileSystem) (settings : Settings) : Except Fault State := do
  let ctx ← settings.context.openFile fs settings.file
  let (frame, ctx) ← Frame.openTop ctx
  return { ctx, frame }

def Progress.state? : Progress → Option State
  | .running s => some s
  | .finished _ _ => none

/-- The states that a run goes through. -/
inductive Reachable (fs : FileSystem) (settings : Settings) : State → Prop where
  | start {s : State} (h : settings.start fs = .ok s) : Reachable fs settings s
  | step {s s' : State} (h : Reachable fs settings s) (hs : s.step fs = .ok (.running s')) :
    Reachable fs settings s'

/-- The first state when the top-level file has the given content. -/
def Settings.opened (settings : Settings) (bytes : List UInt8) : State where
  ctx :=
    { settings.context with
      files := [{ lines := LineReader.ofBytes settings.file bytes }]
      visited := [settings.file] }
  frame :=
    { entry := .menu { location := ⟨settings.file, 1⟩ } none []
      scope := []
      depth := 1
      isTop := true }

lemma Settings.start_eq (fs : FileSystem) (settings : Settings) :
    settings.start fs =
      match fs.look (Path.join settings.root settings.file) with
      | .file bytes => .ok (settings.opened bytes)
      | .missing =>
        .error (.missingFile settings.file (Path.join settings.root settings.file))
      | .directory => .error (.isDirectory (Path.join settings.root settings.file))
      | .blocked => .error (.notDirectory (Path.join settings.root settings.file))
      | .invalid => .error .invalidPath := by
  unfold start Context.openFile
  dsimp only [context]
  cases fs.look (Path.join settings.root settings.file) <;> rfl

lemma Settings.start_eq_ok {fs : FileSystem} {settings : Settings} {s : State} :
    settings.start fs = .ok s ↔ ∃ bytes,
      fs.look (Path.join settings.root settings.file) = .file bytes ∧
        s = settings.opened bytes := by
  rw [Settings.start_eq]
  constructor
  · intro h
    split at h
    · rename_i bytes hlook
      cases h
      exact ⟨bytes, hlook, rfl⟩
    all_goals cases h
  · rintro ⟨bytes, hlook, rfl⟩
    rw [hlook]

namespace State

variable {fs : FileSystem}

lemma run_eq (s : State) :
    s.run fs =
      match s.step fs with
      | .error fault => .error (s.failure fault)
      | .ok (.finished e ctx) => .ok (e, ctx)
      | .ok (.running s') => s'.run fs := by
  rw [run]
  split <;> simp [*]

lemma eq_running_of_state? {result : Except Fault Progress} {s' : State}
    (h : result.toOption.bind Progress.state? = some s') : result = .ok (.running s') := by
  rcases result with fault | (t | ⟨e, ctx⟩)
  · cases h
  · cases h
    rfl
  · cases h

lemma step_of_state? {s s' : State} (h : (s.step fs).toOption.bind Progress.state? = some s') :
    s.step fs = .ok (.running s') :=
  eq_running_of_state? h

lemma run_of_running {s s' : State} (h : s.step fs = .ok (.running s')) :
    s.run fs = s'.run fs := by
  rw [run_eq, h]

lemma run_of_finished {s : State} {e : Entry} {ctx : Context}
    (h : s.step fs = .ok (.finished e ctx)) : s.run fs = .ok (e, ctx) := by
  rw [run_eq, h]

lemma run_of_error {s : State} {fault : Fault} (h : s.step fs = .error fault) :
    s.run fs = .error (s.failure fault) := by
  rw [run_eq, h]

/-- A statement about a state holds if it follows from the statement about the state after it. -/
theorem step_induction (fs : FileSystem) {motive : State → Prop}
    (next : ∀ s, (∀ s', s.step fs = .ok (.running s') → motive s') → motive s) (s : State) :
    motive s :=
  (follows_wellFounded fs).induction s next

/-- Every run ends in a step that fails or closes the outermost frame. -/
theorem exists_last_step {settings : Settings} {s : State} (h : Reachable fs settings s) :
    (∃ last fault, Reachable fs settings last ∧ last.step fs = .error fault ∧
      s.run fs = .error (last.failure fault)) ∨
    ∃ last e ctx, Reachable fs settings last ∧ last.step fs = .ok (.finished e ctx) ∧
      s.run fs = .ok (e, ctx) := by
  revert h
  induction s using step_induction fs with
  | next s ih =>
    intro h
    cases hstep : s.step fs with
    | error fault => exact .inl ⟨s, fault, h, hstep, run_of_error hstep⟩
    | ok progress =>
      cases progress with
      | finished e ctx => exact .inr ⟨s, e, ctx, h, hstep, run_of_finished hstep⟩
      | running s' =>
        rw [run_of_running hstep]
        exact ih s' hstep (h.step hstep)

/-- What a run gives if it ends within `n` steps. -/
def runFor (fs : FileSystem) : Nat → State → Option (Except Failure (Entry × Context))
  | 0, _ => none
  | n + 1, s =>
    match s.step fs with
    | .error fault => some (.error (s.failure fault))
    | .ok (.finished e ctx) => some (.ok (e, ctx))
    | .ok (.running s') => runFor fs n s'

lemma run_of_runFor {n : Nat} {s : State} {result : Except Failure (Entry × Context)}
    (h : runFor fs n s = some result) : s.run fs = result := by
  induction n generalizing s with
  | zero => cases h
  | succ n ih =>
    rw [runFor] at h
    cases hstep : s.step fs with
    | error fault =>
      rw [hstep] at h
      cases h
      exact run_of_error hstep
    | ok progress =>
      rw [hstep] at h
      cases progress with
      | finished e ctx =>
        cases h
        exact run_of_finished hstep
      | running s' =>
        rw [run_of_running hstep]
        exact ih h

theorem exists_runFor (fs : FileSystem) (s : State) : ∃ n, runFor fs n s = some (s.run fs) := by
  induction s using step_induction fs with
  | next s ih =>
    cases hstep : s.step fs with
    | error fault =>
      refine ⟨1, ?_⟩
      rw [runFor, hstep, run_of_error hstep]
    | ok progress =>
      cases progress with
      | finished e ctx =>
        refine ⟨1, ?_⟩
        rw [runFor, hstep, run_of_finished hstep]
      | running s' =>
        obtain ⟨n, hn⟩ := ih s' hstep
        refine ⟨n + 1, ?_⟩
        rw [runFor, hstep, run_of_running hstep]
        exact hn

/-- The fault of the step after `n` others, if that step fails. -/
def faultAfter? (fs : FileSystem) : Nat → State → Option Fault
  | 0, s =>
    match s.step fs with
    | .error fault => some fault
    | .ok _ => none
  | n + 1, s =>
    match s.step fs with
    | .ok (.running s') => faultAfter? fs n s'
    | _ => none

lemma faultAfter?_zero {s : State} {fault : Fault} (h : s.step fs = .error fault) :
    s.faultAfter? fs 0 = some fault := by
  rw [faultAfter?, h]

lemma faultAfter?_succ {s s' : State} (h : s.step fs = .ok (.running s')) (n : Nat) :
    s.faultAfter? fs (n + 1) = s'.faultAfter? fs n := by
  rw [faultAfter?, h]

lemma run_of_faultAfter? {s : State} {n : Nat} {fault : Fault}
    (h : s.faultAfter? fs n = some fault) :
    ∃ failure, s.run fs = .error failure ∧ failure.fault = fault := by
  induction n generalizing s with
  | zero =>
    rw [faultAfter?] at h
    split at h
    · rename_i fault' hstep
      cases h
      exact ⟨_, run_of_error hstep, rfl⟩
    · cases h
  | succ n ih =>
    rw [faultAfter?] at h
    split at h
    · rename_i s' hstep
      rw [run_of_running hstep]
      exact ih h
    · cases h

end State

namespace Settings

/-- The fault of the step of a parse that comes after `n` others, if that step fails. -/
def faultAfter? (fs : FileSystem) (settings : Settings) (n : Nat) : Option Fault :=
  (settings.start fs).toOption.bind (·.faultAfter? fs n)

lemma faultAfter?_of_start {fs : FileSystem} {settings : Settings} {s : State}
    (h : settings.start fs = .ok s) (n : Nat) :
    settings.faultAfter? fs n = s.faultAfter? fs n := by
  rw [faultAfter?, h]
  rfl

end Settings

namespace Tree

variable {fs : FileSystem} {settings : Settings}

lemma parse_eq :
    parse fs settings =
      match settings.start fs with
      | .error (.missingFile name path) => .error (.missingRootFile name path)
      | .error fault => .error fault
      | .ok s =>
        match s.run fs with
        | .error failure => .error failure.fault
        | .ok (e, ctx) => .ok (ofRun e ctx) := by
  rw [Settings.start_eq]
  unfold parse Context.openFile
  dsimp only
  cases fs.look (Path.join settings.root settings.file) with
  | file bytes =>
    change Except.bind (Except.mapError Failure.fault ((settings.opened bytes).run fs)) _ = _
    dsimp only
    cases (settings.opened bytes).run fs with
    | error failure => rfl
    | ok result => rfl
  | _ => rfl

/-- A tree is what the last step of a run leaves. -/
theorem parse_eq_ok {tree : Tree} :
    parse fs settings = .ok tree ↔ ∃ s e ctx,
      settings.start fs = .ok s ∧ s.run fs = .ok (e, ctx) ∧ tree = ofRun e ctx := by
  rw [parse_eq]
  constructor
  · intro h
    split at h
    · cases h
    · cases h
    · rename_i s hstart
      split at h
      · cases h
      · rename_i e ctx hrun
        cases h
        exact ⟨s, e, ctx, hstart, hrun, rfl⟩
  · rintro ⟨s, e, ctx, hstart, hrun, rfl⟩
    rw [hstart]
    dsimp only
    rw [hrun]

/-- The tree of a top-level file if reading it ends within `n` steps. -/
def parseFor (fs : FileSystem) (settings : Settings) (n : Nat) : Option Tree :=
  match settings.start fs with
  | .error _ => none
  | .ok s =>
    match s.runFor fs n with
    | some (.ok (e, ctx)) => some (ofRun e ctx)
    | _ => none

lemma parse_of_parseFor {n : Nat} {tree : Tree} (h : parseFor fs settings n = some tree) :
    parse fs settings = .ok tree := by
  unfold parseFor at h
  split at h
  · cases h
  · rename_i s hstart
    split at h
    · rename_i e ctx hrun
      cases h
      exact parse_eq_ok.2 ⟨s, e, ctx, hstart, State.run_of_runFor hrun, rfl⟩
    · cases h

lemma parse_of_run {s : State} {e : Entry} {ctx : Context} (hstart : settings.start fs = .ok s)
    (hrun : s.run fs = .ok (e, ctx)) : parse fs settings = .ok (ofRun e ctx) :=
  parse_eq_ok.2 ⟨s, e, ctx, hstart, hrun, rfl⟩

lemma parse_of_failure {s : State} {failure : Failure} (hstart : settings.start fs = .ok s)
    (hrun : s.run fs = .error failure) : parse fs settings = .error failure.fault := by
  rw [parse_eq, hstart]
  dsimp only
  rw [hrun]

lemma parse_of_faultAfter? {n : Nat} {fault : Fault}
    (h : settings.faultAfter? fs n = some fault) : parse fs settings = .error fault := by
  cases hstart : settings.start fs with
  | error fault' =>
    rw [Settings.faultAfter?, hstart] at h
    cases h
  | ok s =>
    rw [Settings.faultAfter?_of_start hstart] at h
    obtain ⟨failure, hrun, rfl⟩ := State.run_of_faultAfter? h
    exact parse_of_failure hstart hrun

end Tree

end Kconfig
