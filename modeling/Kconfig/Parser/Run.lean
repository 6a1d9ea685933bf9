import Kconfig.Parser.Advance

/-!
# Runs of the parser

A run makes steps until the outermost frame is closed. It ends although files can be read again and
again: a step takes a token from the file that is read, or opens a file whose name is new on the
stack, or goes back to the file below, or closes a frame. So a file can be read to its end if every
file can be that is opened with fewer free names.
-/

namespace Kconfig

namespace FileSystem

/-- The normalised names that can be opened below a root. -/
noncomputable def names (fs : FileSystem) (root : String) : List String :=
  Classical.choose (fs.finite root)

theorem mem_names (fs : FileSystem) {root name : String} {bytes : List UInt8}
    (h : fs.look (Path.join root name) = .file bytes) : Path.normalize name ∈ fs.names root :=
  Classical.choose_spec (fs.finite root) name bytes h

end FileSystem

namespace Parser

variable {fs : FileSystem} {root : String}

/-- Whether a file on the stack has this normalised name. -/
def isOpenAs (files : List TokenStream) (name : String) : Bool :=
  files.any fun stream => Path.normalize stream.file == name

/-- The number of names that no file on the stack has. -/
noncomputable def fresh (fs : FileSystem) (root : String) (files : List TokenStream) : Nat :=
  (fs.names root).countP fun name => !isOpenAs files name

theorem fresh_congr {s s' : TokenStream} (below : List TokenStream) (h : s'.file = s.file) :
    fresh fs root (s' :: below) = fresh fs root (s :: below) := by
  simp [fresh, isOpenAs, h]

theorem countP_lt {p q : String → Bool} {names : List String} {name : String}
    (hpq : ∀ n, q n = true → p n = true) (hmem : name ∈ names) (hp : p name = true)
    (hq : q name = false) : names.countP q < names.countP p := by
  induction names with
  | nil => cases hmem
  | cons n ns ih =>
    have hle : ns.countP q ≤ ns.countP p := List.countP_mono_left fun x _ => hpq x
    rw [List.countP_cons, List.countP_cons]
    rcases List.mem_cons.1 hmem with rfl | hmem
    · simp only [hp, hq, if_true, Bool.false_eq_true, if_false]
      omega
    · have := ih hmem
      cases hqn : q n with
      | true =>
        simp only [hpq n hqn, if_true]
        omega
      | false =>
        simp only [Bool.false_eq_true, if_false]
        omega

/-- A new name on the stack is one name less that is free. -/
theorem fresh_lt {t : TokenStream} {files : List TokenStream}
    (hmem : Path.normalize t.file ∈ fs.names root)
    (hnew : isOpenAs files (Path.normalize t.file) = false) :
    fresh fs root (t :: files) < fresh fs root files := by
  refine countP_lt ?_ hmem (by simp [hnew]) (by simp [isOpenAs])
  intro n hn
  simp only [isOpenAs, List.any_cons, Bool.not_or, Bool.and_eq_true] at hn
  exact hn.2

end Parser

/-- A fault with the context in which it arose. -/
structure Failure where
  fault : Fault
  ctx : Context
  deriving Repr

namespace State

/-- The state `s'` comes right after `s`. -/
def Follows (fs : FileSystem) (s' s : State) : Prop :=
  s.step fs = .ok (.running s')

/-- A run ends that reads the file on top of a stack, if it ends in the files below. The induction
is on the free names, the size of the file and the number of frames, in this order. -/
theorem acc_of_below {fs : FileSystem} {root : String} (free : Nat) :
    ∀ below : List TokenStream,
      (∀ s : State, s.ctx.root = root → s.ctx.files = below → Acc (Follows fs) s) →
      ∀ (size frames : Nat) (top : TokenStream) (s : State),
        Parser.fresh fs root (top :: below) = free → top.size = size → s.outer.length = frames →
          s.ctx.root = root → s.ctx.files = top :: below → Acc (Follows fs) s := by
  induction free using Nat.strongRecOn with | ind free ihfree
  intro below hbelow size
  induction size using Nat.strongRecOn with | ind size ihsize
  intro frames
  induction frames using Nat.strongRecOn with | ind frames ihframes
  intro top s hfree hsize hframes hroot hfiles
  refine ⟨_, fun s' hstep => ?_⟩
  cases step_advance hstep with
  | reads h =>
    obtain ⟨a, b, below', ha, hb, hab⟩ := h.files
    rw [hfiles] at ha
    cases ha
    have hlt := hab.2
    exact ihsize b.size (by omega) _ b s' ((Parser.fresh_congr below hab.1).trans hfree) rfl rfl
      (h.root.trans hroot) hb
  | closes h hshorter =>
    obtain ⟨a, b, below', ha, hb, hab⟩ := h.files
    rw [hfiles] at ha
    cases ha
    have hfree' := (Parser.fresh_congr below hab.1).trans hfree
    rcases Nat.lt_or_eq_of_le hab.2 with hlt | heq
    · exact ihsize b.size (by omega) _ b s' hfree' rfl rfl (h.root.trans hroot) hb
    · exact ihframes _ (by omega) b s' hfree' (by omega) rfl (h.root.trans hroot) hb
  | opens mid h hopen =>
    obtain ⟨a, b, below', ha, hb, hab⟩ := h.files
    rw [hfiles] at ha
    cases ha
    obtain ⟨name, bytes, hlook, hnew, hfiles'⟩ := hopen.files
    have hlt := hab.2
    have hfree' := (Parser.fresh_congr below hab.1).trans hfree
    rw [h.root, hroot] at hlook
    rw [hb] at hfiles'
    have hnew' : Parser.isOpenAs (b :: below) (Path.normalize name) = false := by
      rw [← hb]
      exact hnew
    have hfewer := Parser.fresh_lt (t := { lines := LineReader.ofBytes name bytes })
      (fs.mem_names hlook) hnew'
    refine ihfree _ (by omega) (b :: below) ?_ _ _ _ s' rfl rfl rfl
      (hopen.root.trans (h.root.trans hroot)) hfiles'
    intro t htroot htfiles
    exact ihsize b.size (by omega) _ b t hfree' rfl rfl htroot htfiles
  | returns mid h hroot' hfiles' =>
    obtain ⟨a, b, below', ha, hb, hab⟩ := h.files
    rw [hfiles] at ha
    cases ha
    rw [hb] at hfiles'
    exact hbelow s' (hroot'.trans (h.root.trans hroot)) hfiles'

theorem files_of_step {fs : FileSystem} {s s' : State} (h : s.step fs = .ok (.running s')) :
    s.ctx.files ≠ [] := by
  cases step_advance h with
  | reads h => exact h.ne_nil_left
  | closes h => exact h.ne_nil_left
  | opens mid h => exact h.ne_nil_left
  | returns mid h => exact h.ne_nil_left

/-- No chain of steps goes on forever. -/
theorem follows_wellFounded (fs : FileSystem) : WellFounded (Follows fs) := by
  have hacc : ∀ (files : List TokenStream) (s : State), s.ctx.files = files →
      Acc (Follows fs) s := by
    intro files
    induction files with
    | nil => exact fun s hfiles => ⟨_, fun s' hstep => absurd hfiles (files_of_step hstep)⟩
    | cons top below ih =>
      intro s hfiles
      exact acc_of_below _ below (fun t _ ht => ih t ht) _ _ top s rfl rfl rfl rfl hfiles
  exact ⟨fun s => hacc s.ctx.files s rfl⟩

/-- A step that fails does so after its first token, if that can be read. -/
def failure (s : State) (fault : Fault) : Failure where
  fault := fault
  ctx :=
    match s.ctx.next with
    | .ok (_, ctx) => ctx
    | .error _ => s.ctx

/-- Makes steps until the outermost frame is closed. -/
def run (fs : FileSystem) (s : State) : Except Failure (Entry × Context) :=
  match _h : s.step fs with
  | .error fault => .error (s.failure fault)
  | .ok (.finished e ctx) => .ok (e, ctx)
  | .ok (.running s') => run fs s'
termination_by (follows_wellFounded fs).wrap s
decreasing_by exact _h

end State

/-- What an entry begins like after its keyword. -/
inductive Opening where
  | config (isMenu : Bool)
  | choice
  | comment
  | menu
  | top
  deriving Repr, DecidableEq

namespace Context

/-- Opens the frame of an entry after its keyword. -/
def openFrame (ctx : Context) : Opening → Except Fault (Frame × Context)
  | .config isMenu => Frame.openConfig ctx isMenu (if isMenu then "menuconfig" else "config")
  | .choice => Frame.openChoice ctx
  | .comment => Frame.openComment ctx
  | .menu => Frame.openMenu ctx
  | .top => Frame.openTop ctx

/-- Reads a whole entry after its keyword. -/
def readEntry (fs : FileSystem) (ctx : Context) (opening : Opening) :
    Except Failure (Entry × Context) :=
  match ctx.openFrame opening with
  | .error fault => .error { fault, ctx }
  | .ok (frame, ctx) => State.run fs { ctx, frame }

end Context

end Kconfig
