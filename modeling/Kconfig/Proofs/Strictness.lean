import Kconfig.FileSystem.Snapshot
import Kconfig.Proofs.Strictness.Steps

/-!
# Strict and lenient runs

A strict run and a lenient one that begin in the same state do the same up to the first unknown
text. There the strict run ends, and the lenient one goes on, with this text first in its record. -/

namespace Kconfig

namespace State

variable {fs : FileSystem} {s : State}

lemma skipped_of_step {p : Progress} (hlenient : s.ctx.strict = false) (h : s.step fs = .ok p) :
    p.ctx.strict = false ∧ s.ctx.report.skipped <+: p.ctx.report.skipped := by
  have hself : s.lenient = s := by
    rw [lenient, Context.lenient, ← hlenient]
  have hcontrast := step_contrast fs s
  rw [hself, h] at hcontrast
  cases hcontrast with
  | alike h =>
    have heased : p.Eased s.ctx p := h
    exact ⟨heased.strict.trans hlenient, heased.skipped ▸ List.prefix_rfl⟩
  | skip fails goesOn lenient skipped =>
    cases goesOn
    exact ⟨lenient, skipped ▸ List.prefix_append _ _⟩

lemma run_of_lenient (fs : FileSystem) (s : State) : s.ctx.strict = false →
    (∃ n fault, s.faultAfter? fs n = some fault) ∨
      ∃ e ctx, s.run fs = .ok (e, ctx) ∧ s.ctx.report.skipped <+: ctx.report.skipped := by
  induction s using step_induction fs with
  | next s ih =>
    intro hlenient
    cases hstep : s.step fs with
    | error fault => exact .inl ⟨0, fault, faultAfter?_zero hstep⟩
    | ok p =>
      obtain ⟨hlenient', hprefix⟩ := skipped_of_step hlenient hstep
      cases p with
      | finished e ctx => exact .inr ⟨e, ctx, run_of_finished hstep, hprefix⟩
      | running s' =>
        rcases ih s' hstep hlenient' with ⟨n, fault, hfault⟩ | ⟨e, ctx, hrun, hprefix'⟩
        · exact .inl ⟨n + 1, fault, (faultAfter?_succ hstep n).trans hfault⟩
        · exact .inr ⟨e, ctx, (run_of_running hstep).trans hrun, hprefix.trans hprefix'⟩

/-- How a strict run and the lenient run from the same state compare. -/
inductive Comparison (fs : FileSystem) (s : State) : Prop where
  | alike {e : Entry} {ctx : Context} (strict : s.run fs = .ok (e, ctx))
    (lenient : s.lenient.run fs = .ok (e, ctx.lenient))
    (skipped : ctx.report.skipped = s.ctx.report.skipped)
  | fails {failure failure' : Failure} (strict : s.run fs = .error failure)
    (lenient : s.lenient.run fs = .error failure') (same : failure'.fault = failure.fault)
    (known : failure.fault.Known)
  /-- The strict run fails where the lenient one passes over text. -/
  | skips {n : Nat} {kind : EntryKind} {place : Location} {text : String}
    (strict : s.faultAfter? fs n = some (.malformed (some place) (.unrecognized kind text)))
    (lenient : (∃ m fault, n < m ∧ s.lenient.faultAfter? fs m = some fault) ∨
      ∃ e ctx, s.lenient.run fs = .ok (e, ctx) ∧
        s.ctx.report.skipped ++ [(place.text, text)] <+: ctx.report.skipped)

lemma Comparison.running {s' : State} (h : Comparison fs s') (hs : s.step fs = .ok (.running s'))
    (hlenient : s.lenient.step fs = .ok (.running s'.lenient))
    (hskipped : s'.ctx.report.skipped = s.ctx.report.skipped) : Comparison fs s := by
  cases h with
  | alike strict lenient skipped =>
    exact .alike ((run_of_running hs).trans strict) ((run_of_running hlenient).trans lenient)
      (skipped.trans hskipped)
  | fails strict lenient same known =>
    exact .fails ((run_of_running hs).trans strict) ((run_of_running hlenient).trans lenient) same
      known
  | skips strict lenient =>
    refine .skips ((faultAfter?_succ hs _).trans strict) ?_
    rcases lenient with ⟨m, fault, hm, hfault⟩ | ⟨e, ctx, hrun, hprefix⟩
    · exact .inl ⟨m + 1, fault, by omega, (faultAfter?_succ hlenient m).trans hfault⟩
    · exact .inr ⟨e, ctx, (run_of_running hlenient).trans hrun, hskipped ▸ hprefix⟩

theorem run_comparison (fs : FileSystem) (s : State) : s.ctx.strict = true → Comparison fs s := by
  induction s using step_induction fs with
  | next s ih =>
    intro hstrict
    cases step_contrast fs s with
    | alike h =>
      rcases h.split with ⟨fault, hknown, hs, hlenient⟩ | ⟨p, q, hs, hlenient, heased⟩
      · exact .fails (run_of_error hs) (run_of_error hlenient) rfl hknown
      · cases heased.eq
        cases p with
        | finished e ctx =>
          exact .alike (run_of_finished hs) (run_of_finished hlenient) heased.skipped
        | running s' =>
          exact (ih s' hs (heased.strict.trans hstrict)).running hs hlenient heased.skipped
    | skip fails goesOn lenient skipped =>
      refine .skips (faultAfter?_zero (fails hstrict)) ?_
      rcases run_of_lenient fs _ lenient with ⟨n, fault, hfault⟩ | ⟨e, ctx, hrun, hprefix⟩
      · exact .inl ⟨n + 1, fault, n.succ_pos, (faultAfter?_succ goesOn n).trans hfault⟩
      · exact .inr ⟨e, ctx, (run_of_running goesOn).trans hrun, skipped ▸ hprefix⟩

end State

namespace Settings

def strictly (settings : Settings) : Settings :=
  { settings with strict := true }

def leniently (settings : Settings) : Settings :=
  { settings with strict := false }

end Settings

namespace Tree

variable {fs : FileSystem} {settings : Settings}

lemma parse_of_look {target : Target} (h : fs.look (Path.join settings.root settings.file) = target)
    (htarget : ∀ bytes, target ≠ .file bytes) :
    ∃ fault : Fault, fault.Known ∧ ∀ other : Settings, other.root = settings.root →
      other.file = settings.file → parse fs other = .error fault := by
  cases target with
  | file bytes => exact (htarget bytes rfl).elim
  | missing =>
    refine ⟨.missingRootFile settings.file (Path.join settings.root settings.file), True.intro, ?_⟩
    intro other hroot hfile
    rw [parse_eq, Settings.start_eq, hroot, hfile, h]
  | directory =>
    refine ⟨.isDirectory (Path.join settings.root settings.file), True.intro,
      fun other hroot hfile => ?_⟩
    rw [parse_eq, Settings.start_eq, hroot, hfile, h]
  | blocked =>
    refine ⟨.notDirectory (Path.join settings.root settings.file), True.intro,
      fun other hroot hfile => ?_⟩
    rw [parse_eq, Settings.start_eq, hroot, hfile, h]
  | invalid =>
    refine ⟨.invalidPath, True.intro, fun other hroot hfile => ?_⟩
    rw [parse_eq, Settings.start_eq, hroot, hfile, h]

lemma parse_comparison (fs : FileSystem) (settings : Settings) :
    (∃ tree, parse fs settings.strictly = .ok tree ∧ parse fs settings.leniently = .ok tree ∧
      tree.report.skipped = []) ∨
    (∃ fault : Fault, fault.Known ∧ parse fs settings.strictly = .error fault ∧
      parse fs settings.leniently = .error fault) ∨
    ∃ n kind place text,
      settings.strictly.faultAfter? fs n =
        some (.malformed (some place) (.unrecognized kind text)) ∧
      ((∃ m fault, n < m ∧ settings.leniently.faultAfter? fs m = some fault) ∨
      ∃ tree, parse fs settings.leniently = .ok tree ∧
        tree.report.skipped.head? = some (place.text, text)) := by
  cases hlook : fs.look (Path.join settings.root settings.file) with
  | file bytes =>
    have hstrict : settings.strictly.start fs = .ok (settings.strictly.opened bytes) :=
      Settings.start_eq_ok.2 ⟨bytes, hlook, rfl⟩
    have hlenient : settings.leniently.start fs = .ok (settings.strictly.opened bytes).lenient :=
      Settings.start_eq_ok.2 ⟨bytes, hlook, rfl⟩
    cases State.run_comparison fs (settings.strictly.opened bytes) rfl with
    | @alike e ctx strict lenient skipped =>
      have htree : ofRun e ctx.lenient = ofRun e ctx := rfl
      exact .inl ⟨_, parse_of_run hstrict strict, htree ▸ parse_of_run hlenient lenient, skipped⟩
    | fails strict lenient same known =>
      exact .inr (.inl ⟨_, known, parse_of_failure hstrict strict,
        (parse_of_failure hlenient lenient).trans (congrArg _ same)⟩)
    | skips strict lenient =>
      refine .inr (.inr ⟨_, _, _, _, (Settings.faultAfter?_of_start hstrict _).trans strict, ?_⟩)
      rcases lenient with ⟨m, fault, hm, hfault⟩ | ⟨e, ctx, hrun, later, hlater⟩
      · exact .inl ⟨m, fault, hm, (Settings.faultAfter?_of_start hlenient m).trans hfault⟩
      · refine .inr ⟨_, parse_of_run hlenient hrun, ?_⟩
        change ctx.report.skipped.head? = _
        rw [← hlater]
        rfl
  | _ =>
    obtain ⟨fault, hknown, hparse⟩ := parse_of_look hlook fun _ => nofun
    exact .inr (.inl ⟨fault, hknown, hparse _ rfl rfl, hparse _ rfl rfl⟩)

/-- A strict parse and a lenient one differ only in unknown text. They give the same tree if there
is none, and the same error if the strict one fails for another reason. Where it fails at unknown
text, the lenient one fails in a later step, or gives a tree whose report has this text first among
what has been passed over. -/
theorem parse_strictly_leniently (fs : FileSystem) (settings : Settings) :
    (∀ tree, parse fs settings.strictly = .ok tree ↔
      parse fs settings.leniently = .ok tree ∧ tree.report.skipped = []) ∧
    (∀ fault : Fault, fault.Known → parse fs settings.strictly = .error fault →
      parse fs settings.leniently = .error fault) ∧
    ∀ location kind text,
      parse fs settings.strictly = .error (.malformed location (.unrecognized kind text)) →
        ∃ place n, location = some place ∧
          settings.strictly.faultAfter? fs n =
            some (.malformed location (.unrecognized kind text)) ∧
          ((∃ m fault, n < m ∧ settings.leniently.faultAfter? fs m = some fault ∧
            parse fs settings.leniently = .error fault) ∨
          ∃ tree, parse fs settings.leniently = .ok tree ∧
            tree.report.skipped.head? = some (place.text, text)) := by
  rcases parse_comparison fs settings with
    ⟨tree, hstrict, hlenient, hskipped⟩ | ⟨fault, hknown, hstrict, hlenient⟩ |
      ⟨n, kind, place, text, hfault, hlenient⟩
  · rw [hstrict, hlenient]
    refine ⟨fun tree' => ⟨?_, fun h => h.1⟩, fun fault _ h => h, ?_⟩
    · rintro ⟨⟩
      exact ⟨rfl, hskipped⟩
    · rintro location kind text ⟨⟩
  · rw [hstrict, hlenient]
    refine ⟨fun tree => ⟨?_, ?_⟩, fun fault _ h => h, ?_⟩
    · rintro ⟨⟩
    · rintro ⟨⟨⟩, -⟩
    · rintro location kind text ⟨⟩
      exact hknown.elim
  · rw [parse_of_faultAfter? hfault]
    refine ⟨fun tree => ⟨?_, ?_⟩, ?_, ?_⟩
    · rintro ⟨⟩
    · rintro ⟨htree, hskipped⟩
      rcases hlenient with ⟨m, fault, -, hlater⟩ | ⟨tree', htree', hfirst⟩
      · rw [parse_of_faultAfter? hlater] at htree
        cases htree
      · rw [htree] at htree'
        cases htree'
        rw [hskipped] at hfirst
        cases hfirst
    · rintro fault hknown ⟨⟩
      exact hknown.elim
    · rintro location kind' text' ⟨⟩
      refine ⟨place, n, rfl, hfault, ?_⟩
      rcases hlenient with ⟨m, fault, hm, hlater⟩ | htree
      · exact .inl ⟨m, fault, hm, hlater, parse_of_faultAfter? hlater⟩
      · exact .inr htree

end Tree

/-- A file that is understood, one with an `endif` too many, and one with two lines that are not
understood. -/
def misspelled : Snapshot where
  files := [
    (["Plain".toList], "config A\n bool\n".toUTF8.toList),
    (["Unmatched".toList], "config A\nendif\n".toUTF8.toList),
    (["Unknown".toList], "config A\n boool x\nconfg B\n".toUTF8.toList)]

theorem parse_strictly_leniently_misspelled :
    (∃ tree, Tree.parse misspelled.toFileSystem
          (Settings.strictly { root := "", file := "Plain" }) = .ok tree ∧
        Tree.parse misspelled.toFileSystem
          (Settings.leniently { root := "", file := "Plain" }) = .ok tree) ∧
      (Tree.parse misspelled.toFileSystem
            (Settings.strictly { root := "", file := "Unmatched" }) =
          .error (.malformed (some ⟨"Unmatched", 2⟩) (.unmatched "endif" "if")) ∧
        Tree.parse misspelled.toFileSystem
            (Settings.leniently { root := "", file := "Unmatched" }) =
          .error (.malformed (some ⟨"Unmatched", 2⟩) (.unmatched "endif" "if"))) ∧
      Tree.parse misspelled.toFileSystem (Settings.strictly { root := "", file := "Unknown" }) =
          .error (.malformed (some ⟨"Unknown", 2⟩) (.unrecognized .config "boool x")) ∧
        ∃ tree, Tree.parse misspelled.toFileSystem
            (Settings.leniently { root := "", file := "Unknown" }) = .ok tree ∧
          tree.report.skipped.head? = some ("Unknown:2", "boool x") := by
  have hplain : (Tree.parseFor misspelled.toFileSystem
      (Settings.strictly { root := "", file := "Plain" }) 20).isSome = true := by decide +kernel
  have hunmatched : (Settings.strictly { root := "", file := "Unmatched" }).faultAfter?
      misspelled.toFileSystem 3 =
        some (.malformed (some ⟨"Unmatched", 2⟩) (.unmatched "endif" "if")) := by decide +kernel
  have hunknown : (Settings.strictly { root := "", file := "Unknown" }).faultAfter?
      misspelled.toFileSystem 2 =
        some (.malformed (some ⟨"Unknown", 2⟩) (.unrecognized .config "boool x")) := by
    decide +kernel
  have hlenient : (Tree.parseFor misspelled.toFileSystem
      (Settings.leniently { root := "", file := "Unknown" }) 20).isSome = true := by decide +kernel
  obtain ⟨tree, htree⟩ := Option.isSome_iff_exists.1 hplain
  obtain ⟨skipping, hskipping⟩ := Option.isSome_iff_exists.1 hlenient
  have hstrict := Tree.parse_of_parseFor htree
  have hfails := Tree.parse_of_faultAfter? hunmatched
  have hstops := Tree.parse_of_faultAfter? hunknown
  obtain ⟨place, n, hplace, -, hlater⟩ :=
    (Tree.parse_strictly_leniently misspelled.toFileSystem _).2.2 _ _ _ hstops
  refine ⟨⟨tree, hstrict, ?_⟩, ⟨hfails, ?_⟩, hstops, ?_⟩
  · exact (((Tree.parse_strictly_leniently misspelled.toFileSystem _).1 tree).1 hstrict).1
  · exact (Tree.parse_strictly_leniently misspelled.toFileSystem _).2.1 _ True.intro hfails
  · cases hplace
    rcases hlater with ⟨m, fault, -, -, herror⟩ | hrecord
    · rw [Tree.parse_of_parseFor hskipping] at herror
      cases herror
    · exact hrecord

end Kconfig
