import Kconfig.Proofs.Expressions
import Kconfig.Proofs.FullPaths
import Kconfig.Proofs.Located
import Kconfig.Proofs.Motion
import Kconfig.Proofs.Strictness

/-!
# Recursion

A file that is open is not included again. The names of files are compared there and not their full
paths, so a file can be opened inside itself: by an absolute name, or by one that leaves the root
and comes back by its names. `readSource_refused` says that there is no other way. A directive that
asks for an open file by a name at the same level is refused, and the run ends in front of the file.
-/

namespace Kconfig

lemma toOption_eq_some {ε α : Type} {x : Except ε α} {a : α} :
    x.toOption = some a ↔ x = .ok a := by
  cases x <;> simp [Except.toOption]

lemma Quiet.substitute {a b : Context} (h : Quiet a b) (text : String) :
    b.substitute text = a.substitute text := by
  unfold Context.substitute Context.symbolValue
  rw [h.symbols, h.environment]

namespace Context

/-- The name of the file that an inclusion directive asks for, if it can be that of a file. -/
def targetAhead (ctx : Context) (kind : SourceKind) : Option String := do
  let value ← ctx.valueAhead kind.readPath
  let path ← Reference.substitute? ctx.symbolValue value.1
  let s ← ctx.files.head?
  if path.whole?.any (·.trimBlanks = "") then none else (kind.target s.file path).whole?

/-- How the inclusion of an open file is refused. A directory is refused as such. -/
def refusal (fs : FileSystem) (ctx : Context) (kind : SourceKind) (target : String) : Fault :=
  ctx.malformed <|
    if fs.isDirectory (Path.join ctx.root target) then .pathIsDirectory kind.keyword target
    else .recursion kind.keyword target ctx.includePath

/-- The same files are open in both contexts, at the same lines. -/
structure SamePlace (a b : Context) : Prop where
  root : b.root = a.root
  locations : b.files.map TokenStream.location = a.files.map TokenStream.location

variable {fs : FileSystem} {ctx a b : Context} {kind : SourceKind} {target : String}

/-- The check finds the open files that the full path leads to, but only those whose names are at
the same level. -/
lemma isOpen_iff (root : String) :
    ctx.isOpen target = true ↔ ∃ file ∈ ctx.fileNames,
      Path.normalize (Path.join root file) = Path.normalize (Path.join root target) ∧
        Path.SameLevel file target := by
  simp [isOpen, fileNames, ← Path.normalize_eq_iff root]

namespace SamePlace

lemma isOpen (h : SamePlace a b) (name : String) : b.isOpen name = a.isOpen name := by
  have hany : ∀ ctx : Context,
      ctx.isOpen name = (ctx.files.map TokenStream.location).any fun place =>
      Path.normalize place.file == Path.normalize name := by
    intro ctx
    rw [List.any_map]
    rfl
  rw [hany, hany, h.locations]

lemma includePath (h : SamePlace a b) : b.includePath = a.includePath := by
  have hmap : ∀ ctx : Context, ctx.includePath =
      (ctx.files.map TokenStream.location).reverse.map Location.text := by
    intro ctx
    rw [← List.map_reverse, List.map_map]
    rfl
  rw [hmap, hmap, h.locations]

lemma location? (h : SamePlace a b) : b.location? = a.location? := by
  rw [Context.location?, Context.location?, ← List.head?_map, ← List.head?_map, h.locations]

lemma refusal (h : SamePlace a b) : b.refusal fs kind target = a.refusal fs kind target := by
  rw [Context.refusal, Context.refusal, malformed, malformed, h.location?, h.includePath, h.root]

end SamePlace

lemma openSource_of_isOpen (start : Location) (h : ctx.isOpen target = true) :
    ctx.openSource fs kind start target = .error (ctx.refusal fs kind target) := by
  unfold openSource refusal
  rw [if_pos h]
  split <;> rfl

lemma targetAhead_eq_some (h : ctx.targetAhead kind = some target) :
    ∃ r b path s, ctx.readLine kind.readPath = .ok (r, b) ∧
      ctx.substitute r.value.1 = .ok path ∧ ctx.files.head? = some s ∧
        ¬path.whole?.any (·.trimBlanks = "") = true ∧
          (kind.target s.file path).whole? = some target := by
  obtain ⟨value, hvalue, h⟩ := Option.bind_eq_some_iff.1 h
  obtain ⟨⟨r, b⟩, hread, rfl⟩ := Option.map_eq_some_iff.1 hvalue
  obtain ⟨path, hpath, h⟩ := Option.bind_eq_some_iff.1 h
  obtain ⟨s, hs, h⟩ := Option.bind_eq_some_iff.1 h
  split at h
  · cases h
  · rename_i hblank
    exact ⟨r, b, path, s, toOption_eq_some.1 hread, by rw [substitute, hpath], hs, hblank, h⟩

lemma samePlace_readLine {α : Type} {read : List Token → Except ReadFailure (Reading α)}
    {r : Reading α} {s : TokenStream} {below : List TokenStream} {token : Token} {rest : List Token}
    (hfiles : ctx.files = s :: below) (hline : s.upcoming = token :: rest)
    (h : ctx.readLine read = .ok (r, b)) : SamePlace ctx b := by
  obtain ⟨s', hs', h⟩ := bind_eq_ok.1 h
  obtain ⟨t, ht, h⟩ := bind_eq_ok.1 h
  obtain ⟨below', hfiles'⟩ := current_eq_ok hs'
  rw [hfiles] at hfiles'
  cases hfiles'
  rw [mapError_eq_ok, TokenStream.load_of_upcoming hline] at ht
  cases ht
  split at h
  · cases h
  · cases h
    refine ⟨rfl, ?_⟩
    rw [setCurrent, hfiles]
    rfl

lemma SamePlace.note (h : SamePlace a b) (findings : List Finding) :
    SamePlace a (b.note findings) :=
  ⟨h.root, h.locations⟩

lemma SamePlace.current {s : TokenStream} {below : List TokenStream} (h : SamePlace a b)
    (hfiles : a.files = s :: below) : ∃ t, b.current = .ok t ∧ t.file = s.file := by
  have hlocations := h.locations
  rw [hfiles, List.map_cons] at hlocations
  obtain ⟨t, below', hb, hlocation, -⟩ := List.map_eq_cons_iff.1 hlocations
  exact ⟨t, by rw [Context.current, hb], congrArg Location.file hlocation⟩

lemma readSource_eq {s : TokenStream} {below : List TokenStream} {token : Token}
    {rest : List Token} (hfiles : ctx.files = s :: below) (hline : s.upcoming = token :: rest)
    (h : ctx.targetAhead kind = some target) :
    ∃ b start, SamePlace ctx b ∧
      ctx.readSource fs kind = b.openSource fs kind start target := by
  obtain ⟨r, b, path, s', hread, hpath, hs', hblank, htarget⟩ := targetAhead_eq_some h
  rw [hfiles] at hs'
  cases hs'
  have hlocation : ctx.location = .ok s.location := by
    rw [Context.location, current, hfiles]
    rfl
  let noted := b.note (kind.extraFindings s.location r.value.2)
  have hplace : SamePlace ctx noted := (samePlace_readLine hfiles hline hread).note _
  have hsubstitute : noted.substitute r.value.1 = .ok path := by
    rw [← hpath, ← (readLine_quiet hread).substitute]
    rfl
  obtain ⟨t, ht, hfile⟩ := hplace.current hfiles
  refine ⟨noted, s.location, hplace, ?_⟩
  rw [readSource, hlocation]
  change (ctx.readLine kind.readPath >>= _) = _
  rw [hread]
  change (noted.substitute r.value.1 >>= _) = _
  rw [hsubstitute]
  change (if path.whole?.any (·.trimBlanks = "") = true then _ else noted.current >>= _) = _
  rw [if_neg hblank, ht]
  change noted.openTarget fs kind s.location (kind.target t.file path) = _
  rw [openTarget, hfile, htarget]

lemma readSource_of_isOpen {s : TokenStream} {below : List TokenStream} {token : Token}
    {rest : List Token} (hfiles : ctx.files = s :: below) (hline : s.upcoming = token :: rest)
    (h : ctx.targetAhead kind = some target) (hopen : ctx.isOpen target = true) :
    ctx.readSource fs kind = .error (ctx.refusal fs kind target) := by
  obtain ⟨b, start, hplace, hread⟩ := readSource_eq hfiles hline h
  rw [hread, openSource_of_isOpen start ((hplace.isOpen target).trans hopen), hplace.refusal]

end Context

open Context

namespace Reachable

variable {fs : FileSystem} {settings : Settings} {s : State} {token : Token} {ctx : Context}

lemma exists_upcoming (h : Reachable fs settings s) (hnext : s.ctx.next = .ok (token, ctx))
    (hend : token.lexeme.isEnd = false) :
    ∃ t below next rest, ctx.files = t :: below ∧ t.upcoming = next :: rest := by
  obtain ⟨t, ht, hnext⟩ := bind_eq_ok.1 hnext
  obtain ⟨⟨token', t'⟩, hdelivered, hnext⟩ := bind_eq_ok.1 hnext
  cases pure_eq_ok.1 hnext
  obtain ⟨u, rest, hload, hupcoming, -, rfl⟩ :=
    TokenStream.next_eq_ok.1 hdelivered
  have hcomplete := (h.upToEnd.current ht).load hload (hupcoming ▸ List.cons_ne_nil _ _)
  rw [hupcoming] at hcomplete
  obtain ⟨next, rest, rfl⟩ := List.exists_cons_of_ne_nil (hcomplete.tail hend).ne_nil
  exact ⟨_, _, next, rest, rfl, TokenStream.upcoming_stopAt _ _⟩

lemma run_eq (h : Reachable fs settings s) :
    ∃ first, settings.start fs = .ok first ∧ first.run fs = s.run fs := by
  induction h with
  | start hstart => exact ⟨_, hstart, rfl⟩
  | step _ hstep ih =>
    obtain ⟨first, hstart, hrun⟩ := ih
    exact ⟨first, hstart, hrun.trans (State.run_of_running hstep)⟩

end Reachable

/-- A directive that asks for an open file is refused, if the names are at the same level or the
root leads down into no directory. The run ends with it, and no file is opened. -/
theorem readSource_refused {fs : FileSystem} {settings : Settings} {s : State} {token : Token}
    {ctx : Context} {word target file : String} {kind : SourceKind}
    (hreachable : Reachable fs settings s) (hnext : s.ctx.next = .ok (token, ctx))
    (hlex : token.lexeme = .word word) (hword : BlockKeyword.ofWord? word = some (.source kind))
    (hblock : s.frame.entry.kind.isBlock = true) (htarget : ctx.targetAhead kind = some target)
    (hfile : file ∈ s.ctx.fileNames)
    (hpath : Path.normalize (Path.join settings.root file) =
      Path.normalize (Path.join settings.root target))
    (hlevel : Path.SameLevel file target ∨ Path.Bare settings.root) :
    ctx.readSource fs kind = .error (ctx.refusal fs kind target) ∧
      s.run fs = .error { fault := ctx.refusal fs kind target, ctx } ∧
        ctx.fileNames = s.ctx.fileNames ∧ ctx.visited = s.ctx.visited ∧
          Tree.parse fs settings = .error (ctx.refusal fs kind target) := by
  have hnames := (next_reads hnext).fileNames
  have hsame : Path.SameLevel file target := by
    rcases hlevel with hlevel | hbare
    · exact hlevel
    · exact .of_bare hbare hpath
  have hopen : ctx.isOpen target = true :=
    (isOpen_iff settings.root).2 ⟨file, hnames ▸ hfile, hpath, hsame⟩
  obtain ⟨t, below, next, rest, hfiles, hline⟩ :=
    hreachable.exists_upcoming hnext (by rw [hlex]; rfl)
  have hread : ctx.readSource fs kind = .error (ctx.refusal fs kind target) :=
    readSource_of_isOpen hfiles hline htarget hopen
  have hstep : s.step fs = .error (ctx.refusal fs kind target) := by
    rw [State.step_of_request hnext hlex hword hblock rfl, hread]
    rfl
  have hrun : s.run fs = .error { fault := ctx.refusal fs kind target, ctx } := by
    rw [State.run_of_error hstep, State.failure, hnext]
  obtain ⟨first, hstart, hfirst⟩ := hreachable.run_eq
  exact ⟨hread, hrun, hnames, visited_next hnext,
    Tree.parse_of_failure hstart (hfirst.trans hrun)⟩

/-- A file above the root that asks for itself by the way through the root. -/
def roundabout : Snapshot where
  files := [(["p".toList, "q".toList, "K".toList], "source \"../L\"\n".toUTF8.toList),
    (["p".toList, "L".toList], "rsource \"q/../L\"\n".toUTF8.toList)]

theorem readSource_refused_roundabout :
    ∃ s ctx, Reachable roundabout.toFileSystem { root := "p/q", file := "K" } s ∧
      s.ctx.next = .ok (⟨.word "rsource", 1⟩, ctx) ∧ s.ctx.fileNames = ["../L", "K"] ∧
        ctx.targetAhead { relative := true } = some "../q/../L" ∧
          Path.normalize (Path.join "p/q" "../L") =
              Path.normalize (Path.join "p/q" "../q/../L") ∧
            Path.SameLevel "../L" "../q/../L" ∧
              Tree.parse roundabout.toFileSystem { root := "p/q", file := "K" } =
                .error (.malformed (some ⟨"../L", 1⟩)
                  (.recursion "rsource" "../q/../L" ["K:1", "../L:1"])) := by
  let fs := roundabout.toFileSystem
  let settings : Settings := { root := "p/q", file := "K" }
  let first := settings.opened "source \"../L\"\n".toUTF8.toList
  have hstart : settings.start fs = .ok first :=
    Settings.start_eq_ok.2 ⟨_, by decide +kernel, rfl⟩
  have hrun : ((first.step fs).toOption.bind Progress.state?).any (fun s =>
      s.ctx.next.toOption.any fun delivered =>
        delivered.1 = ⟨.word "rsource", 1⟩ ∧ s.ctx.fileNames = ["../L", "K"] ∧
          s.frame.entry.kind.isBlock = true ∧
            delivered.2.targetAhead { relative := true } = some "../q/../L" ∧
              delivered.2.refusal fs { relative := true } "../q/../L" =
                .malformed (some ⟨"../L", 1⟩)
                  (.recursion "rsource" "../q/../L" ["K:1", "../L:1"])) = true := by
    decide +kernel
  obtain ⟨s, hs, hrun⟩ := (Option.any_eq_true _ _).1 hrun
  obtain ⟨⟨token, ctx⟩, hnext, hrun⟩ := (Option.any_eq_true _ _).1 hrun
  obtain ⟨rfl, hnames, hblock, htarget, hrefusal⟩ := of_decide_eq_true hrun
  have hreachable : Reachable fs settings s := .step (.start hstart) (State.step_of_state? hs)
  have hnext := toOption_eq_some.1 hnext
  have hpath : Path.normalize (Path.join "p/q" "../L") =
      Path.normalize (Path.join "p/q" "../q/../L") := by decide +kernel
  have hlevel : Path.SameLevel "../L" "../q/../L" := ⟨by decide +kernel, by decide +kernel⟩
  obtain ⟨-, -, -, -, hparse⟩ := readSource_refused hreachable hnext rfl rfl hblock htarget
    (hnames ▸ List.mem_cons_self) hpath (.inl hlevel)
  exact ⟨s, ctx, hreachable, hnext, hnames, htarget, hpath, hlevel, hrefusal ▸ hparse⟩

/-- A file that asks for itself through the directory above the root. -/
def outAndBack : Snapshot where
  files := [(["proj".toList, "Kconfig".toList], "source \"../proj/Kconfig\"\n".toUTF8.toList)]

/-- A name that goes up and comes back by the name of the root: the file is opened inside itself. -/
theorem step_opens_itself :
    ∃ s ctx s', Reachable outAndBack.toFileSystem { root := "proj", file := "Kconfig" } s ∧
      s.ctx.next = .ok (⟨.word "source", 1⟩, ctx) ∧ s.ctx.fileNames = ["Kconfig"] ∧
        ctx.targetAhead {} = some "../proj/Kconfig" ∧
          Path.normalize (Path.join "proj" "Kconfig") =
              Path.normalize (Path.join "proj" "../proj/Kconfig") ∧
            s.step outAndBack.toFileSystem = .ok (.running s') ∧
              s'.ctx.fileNames = ["../proj/Kconfig", "Kconfig"] := by
  let fs := outAndBack.toFileSystem
  let settings : Settings := { root := "proj", file := "Kconfig" }
  let first := settings.opened "source \"../proj/Kconfig\"\n".toUTF8.toList
  have hstart : settings.start fs = .ok first :=
    Settings.start_eq_ok.2 ⟨_, by decide +kernel, rfl⟩
  have hnext : (first.ctx.next.toOption).any (fun delivered =>
      delivered.1 = ⟨.word "source", 1⟩ ∧
        delivered.2.targetAhead {} = some "../proj/Kconfig") = true := by decide +kernel
  obtain ⟨⟨token, ctx⟩, hnext, htarget⟩ := (Option.any_eq_true _ _).1 hnext
  obtain ⟨rfl, htarget⟩ := of_decide_eq_true htarget
  have hstep : ((first.step fs).toOption.bind Progress.state?).any (fun s =>
      s.ctx.fileNames = ["../proj/Kconfig", "Kconfig"]) = true := by decide +kernel
  obtain ⟨s', hs', hnames⟩ := (Option.any_eq_true _ _).1 hstep
  exact ⟨first, ctx, s', .start hstart, toOption_eq_some.1 hnext, rfl, htarget,
    by decide +kernel, State.step_of_state? hs', of_decide_eq_true hnames⟩

end Kconfig
