import Kconfig.FileSystem.Snapshot
import Kconfig.Proofs.Reachable
import Mathlib.Data.Set.Card

/-!
# Termination

Every run ends, whatever is in the files. A file can be included again and again, but not while it
is open under any spelling of its name. So the names on the stack of files are always different, and
the stack is not higher than the number of names that lead to files. -/

namespace Kconfig

/-- The normalised names of the files that can be opened below a root. -/
def FileSystem.openable (fs : FileSystem) (root : String) : Set String :=
  {n | ∃ name bytes, fs.look (Path.join root name) = .file bytes ∧ Path.normalize name = n}

lemma FileSystem.finite_openable (fs : FileSystem) (root : String) :
    (fs.openable root).Finite := by
  obtain ⟨names, hnames⟩ := fs.finite root
  refine names.finite_toSet.subset ?_
  rintro n ⟨name, bytes, hlook, rfl⟩
  exact hnames name bytes hlook

namespace Context

variable {fs : FileSystem} {a b : Context}

/-- The normalised names of the open files, the one that is read first. -/
def openNames (ctx : Context) : List String :=
  ctx.files.map fun stream => Path.normalize stream.file

lemma isOpen_eq_false {ctx : Context} {name : String} :
    ctx.isOpen name = false ↔ Path.normalize name ∉ ctx.openNames := by
  simp [isOpen, openNames]

lemma Reads.openNames {n : Nat} (h : Reads n a b) : b.openNames = a.openNames := by
  obtain ⟨s, s', below, ha, hb, hs⟩ := h.files
  unfold Context.openNames
  rw [ha, hb, List.map_cons, List.map_cons, hs.1]

/-- The names of the open files are different and lead to files below the root. -/
structure NamesApart (fs : FileSystem) (root : String) (ctx : Context) : Prop where
  root_eq : ctx.root = root
  nodup : ctx.openNames.Nodup
  openable : ∀ n ∈ ctx.openNames, n ∈ fs.openable root

namespace NamesApart

variable {root : String}

lemma reads {n : Nat} (h : NamesApart fs root a) (hr : Reads n a b) : NamesApart fs root b where
  root_eq := hr.root.trans h.root_eq
  nodup := by
    rw [hr.openNames]
    exact h.nodup
  openable := by
    rw [hr.openNames]
    exact h.openable

lemma opens (h : NamesApart fs root a) (ho : Opens fs a b) : NamesApart fs root b := by
  obtain ⟨name, bytes, hlook, hnew, hfiles⟩ := ho.files
  have hnames : b.openNames = Path.normalize name :: a.openNames := by
    unfold Context.openNames
    rw [hfiles]
    rfl
  refine ⟨ho.root.trans h.root_eq, ?_, ?_⟩
  · rw [hnames]
    exact List.nodup_cons.2 ⟨isOpen_eq_false.1 hnew, h.nodup⟩
  · rw [hnames]
    intro n hn
    rcases List.mem_cons.1 hn with rfl | hn
    · rw [h.root_eq] at hlook
      exact ⟨name, bytes, hlook, rfl⟩
    · exact h.openable n hn

lemma returns (h : NamesApart fs root a) (hroot : b.root = a.root)
    (hfiles : b.files = a.files.tail) : NamesApart fs root b := by
  have hnames : b.openNames = a.openNames.tail := by
    unfold Context.openNames
    rw [hfiles, List.map_tail]
  refine ⟨hroot.trans h.root_eq, ?_, ?_⟩
  · rw [hnames]
    exact h.nodup.tail
  · rw [hnames]
    exact fun n hn => h.openable n (List.mem_of_mem_tail hn)

lemma depth_le (h : NamesApart fs root a) : a.depth ≤ (fs.openable root).ncard := by
  have hcard : a.openNames.toFinset.card = a.depth := by
    rw [List.toFinset_card_of_nodup h.nodup, Context.openNames, List.length_map, depth]
  rw [← hcard, ← Set.ncard_coe_finset]
  refine Set.ncard_le_ncard ?_ (fs.finite_openable root)
  intro n hn
  exact h.openable n (List.mem_toFinset.1 hn)

end NamesApart

end Context

open Context

lemma State.step_namesApart {fs : FileSystem} {root : String} {s s' : State}
    (h : NamesApart fs root s.ctx) (hstep : s.step fs = .ok (.running s')) :
    NamesApart fs root s'.ctx := by
  cases step_advance hstep with
  | reads hr => exact h.reads hr
  | closes hr => exact h.reads hr
  | opens mid hr ho => exact (h.reads hr).opens ho
  | returns mid hr hroot hfiles => exact (h.reads hr).returns hroot hfiles

theorem Reachable.namesApart {fs : FileSystem} {settings : Settings} {s : State}
    (h : Reachable fs settings s) : NamesApart fs settings.root s.ctx := by
  induction h with
  | start h =>
    obtain ⟨bytes, hlook, rfl⟩ := Settings.start_eq_ok.1 h
    refine ⟨rfl, List.nodup_singleton _, ?_⟩
    intro n hn
    rw [List.mem_singleton.1 hn]
    exact ⟨settings.file, bytes, hlook, rfl⟩
  | step _ hstep ih => exact State.step_namesApart ih hstep

/-- No sequence of steps goes on forever, and every run gives its result after some number of steps.
In each of its states the names of the open files are different, so that there are no more open
files than names to open. -/
theorem parse_terminates (fs : FileSystem) (settings : Settings) :
    (¬∃ states : Nat → State, ∀ n, (states n).step fs = .ok (.running (states (n + 1)))) ∧
      (∀ s : State, ∃ n, s.runFor fs n = some (s.run fs)) ∧
        (fs.openable settings.root).Finite ∧
          ∀ s, Reachable fs settings s →
            s.ctx.openNames.Nodup ∧ s.ctx.depth ≤ (fs.openable settings.root).ncard := by
  refine ⟨?_, State.exists_runFor fs, fs.finite_openable settings.root, ?_⟩
  · -- A least state of such a sequence would have no state after it.
    rintro ⟨states, hstates⟩
    obtain ⟨last, ⟨n, rfl⟩, hlast⟩ :=
      (State.follows_wellFounded fs).has_min (Set.range states) ⟨_, 0, rfl⟩
    exact hlast _ ⟨n + 1, rfl⟩ (hstates n)
  · intro s hs
    exact ⟨hs.namesApart.nodup, hs.namesApart.depth_le⟩

/-- Two files that include each other. -/
def mutualInclusion : Snapshot where
  files := [(["K".toList], "source \"L\"\n".toUTF8.toList),
    (["L".toList], "source \"./K\"\n".toUTF8.toList)]

theorem parse_terminates_mutualInclusion : ∃ s,
    Reachable mutualInclusion.toFileSystem { root := "", file := "K" } s ∧
      s.ctx.openNames = ["L", "K"] ∧
        2 ≤ (mutualInclusion.toFileSystem.openable "").ncard := by
  let fs := mutualInclusion.toFileSystem
  let settings : Settings := { root := "", file := "K" }
  let first := settings.opened "source \"L\"\n".toUTF8.toList
  have hstart : settings.start fs = .ok first :=
    Settings.start_eq_ok.2 ⟨_, by decide +kernel, rfl⟩
  have hstep : ((first.step fs).toOption.bind Progress.state?).any
      (fun s => s.ctx.openNames = ["L", "K"]) = true := by decide +kernel
  obtain ⟨s, hs, hnames⟩ := (Option.any_eq_true _ _).1 hstep
  have hreachable : Reachable fs settings s := .step (.start hstart) (State.step_of_state? hs)
  refine ⟨s, hreachable, of_decide_eq_true hnames, ?_⟩
  have hdepth := ((parse_terminates fs settings).2.2.2 s hreachable).2
  have htwo : s.ctx.depth = 2 := by
    have hlength := congrArg List.length (of_decide_eq_true hnames)
    rwa [openNames, List.length_map] at hlength
  rwa [htwo] at hdepth

end Kconfig
