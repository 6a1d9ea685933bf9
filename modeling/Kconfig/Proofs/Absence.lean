import Kconfig.Proofs.Agreement
import Kconfig.Proofs.Outcomes
import Kconfig.Proofs.Snapshots

/-!
# Files that are missing

Skipping a file that is missing is including one without tokens. While such a file is open, nothing
but ends of lines is read from it, and closing it leaves the context as it was before the opening.
So a run in which the file is deleted waits meanwhile, and then both runs go on from contexts that
agree, but for their reports and the files they have opened.
-/

namespace Kconfig

open Context

/-- The only tokens of the file are ends of lines. -/
def Hollow (bytes : List UInt8) : Prop :=
  ∀ line ∈ (Line.ofBytes bytes).1, Lexeme.scan line.text = [.lineEnd]

/-- The second file system is the first one without files whose only tokens are ends of lines. What
would go on from such a file leads nowhere either. -/
def FileSystem.Deletion (fs fs' : FileSystem) : Prop :=
  ∀ path, fs'.look path = fs.look path ∨
    fs'.look path = .missing ∧
      (fs.look path = .blocked ∨ ∃ bytes, fs.look path = .file bytes ∧ Hollow bytes)

namespace TokenStream

variable {s t : TokenStream} {token : Token}

/-- The only tokens to come are ends of lines. -/
structure Idle (s : TokenStream) : Prop where
  unread : s.lines.unread = none
  upcoming : ∀ token ∈ s.upcoming, token.lexeme = .lineEnd
  rest : ∀ line ∈ s.lines.rest, Lexeme.scan line.text = [.lineEnd]

lemma idle_of_hollow {bytes : List UInt8} (h : Hollow bytes) (name : String) :
    Idle { lines := LineReader.ofBytes name bytes } where
  unread := rfl
  upcoming := List.forall_mem_nil _
  rest := h

lemma Idle.load (h : s.Idle) (hload : s.load = .ok t) :
    t.Idle ∨ ∃ linenr, t.upcoming = [⟨.fileEnd, linenr⟩] := by
  unfold TokenStream.load at hload
  split at hload
  · cases hload
    exact .inl h
  · rename_i hnil
    have hup := upcoming_refill (not_not.1 hnil)
    split at hload
    · cases hload
    · cases hload
      exact .inr ⟨_, hup _ _ _⟩
    · rename_i text lines hnext
      cases hload
      refine .inl ?_
      unfold LineReader.next at hnext
      rw [h.unread] at hnext
      dsimp only at hnext
      split at hnext
      · rename_i line rest hrest
        cases hnext
        obtain ⟨hline, hlines⟩ := List.forall_mem_cons.1 (hrest ▸ h.rest)
        refine ⟨h.unread, ?_, hlines⟩
        rw [hup, Token.ofLine, hline]
        exact List.forall_mem_singleton.2 rfl
      · split at hnext <;> cases hnext

lemma Idle.next (h : s.Idle) (hnext : s.next = .ok (token, t)) :
    token.lexeme = .fileEnd ∨ token.lexeme = .lineEnd ∧ t.Idle := by
  obtain ⟨s', rest, hload, hup, -, rfl⟩ := next_eq_ok.1 hnext
  rcases h.load hload with hidle | ⟨linenr, hend⟩
  · obtain ⟨hfirst, hrest⟩ := List.forall_mem_cons.1 (hup ▸ hidle.upcoming)
    refine .inr ⟨hfirst, hidle.unread, ?_, hidle.rest⟩
    rwa [upcoming_stopAt]
  · rw [hup] at hend
    cases hend
    exact .inl rfl

end TokenStream

namespace FileSystem.Deletion

variable {fs fs' : FileSystem} {root : String} {a b : Context}

/-- The path of the name leads where it has led before. -/
def kept (fs fs' : FileSystem) (root name : String) : Bool :=
  fs'.look (Path.join root name) = fs.look (Path.join root name)

/-- The runs differ in their reports, and the second one opens no file that is deleted. -/
def leeway (fs fs' : FileSystem) (root : String) : Leeway where
  root
  lax := True
  report _ _ := True
  visited names names' := names' = names.filter (kept fs fs' root)
  add := fun _ _ => True.intro

/-- The first context has a file without tokens open on top of what both have in common. -/
def Ahead (w : Leeway) (a b : Context) : Prop :=
  ∃ top below, a.files = top :: below ∧ top.Idle ∧ a.closeFile.Agrees w b

lemma openDeleted (hab : a.Agrees (leeway fs fs' root) b) {kind : SourceKind} {start : Location}
    {target : String} {bytes : List UInt8} (hfile : fs.look (Path.join root target) = .file bytes)
    (hhollow : Hollow bytes) (hmissing : fs'.look (Path.join root target) = .missing) :
    Agree True (Ahead (leeway fs fs' root)) (a.openSource fs kind start target)
      (b.openSource fs' kind start target) := by
  have hroot : a.root = root := hab.root
  have hroot' : b.root = root := hab.root'
  refine .of_ok fun a' hopen => ⟨b.note [kind.missing start target (Path.join root target)], ?_⟩
  unfold Context.openSource Context.openFile at hopen
  split at hopen
  · cases hopen
  · split at hopen
    · cases hopen
    · rename_i hclosed
      dsimp only at hopen
      rw [hroot, hfile] at hopen
      cases hopen
      constructor
      · have hdirectory : ¬fs'.isDirectory (Path.join root target) = true := by
          rw [FileSystem.isDirectory, hmissing]
          decide
        unfold Context.openSource Context.openFile
        dsimp only
        rw [hab.isOpen, hroot', if_neg hdirectory, if_neg hclosed, hmissing]
      · refine ⟨_, a.files, rfl, TokenStream.idle_of_hollow hhollow target, ?_⟩
        have hvisited : b.visited = a.visited.filter (kept fs fs' root) := hab.visited
        have hgone : ¬kept fs fs' root target = true := by simp [kept, hfile, hmissing]
        refine { hab with root := rfl, root' := hroot', report := True.intro, visited := ?_ }
        change b.visited = (a.visited ++ [target]).filter (kept fs fs' root)
        rw [List.filter_append, List.filter_cons_of_neg hgone, List.filter_nil, List.append_nil,
          hvisited]

lemma openSource_of_blocked {kind : SourceKind} {start : Location} {target : String} {a' : Context}
    (hblocked : fs.look (Path.join a.root target) = .blocked) :
    a.openSource fs kind start target ≠ .ok a' := by
  intro hopen
  unfold Context.openSource Context.openFile at hopen
  split at hopen
  · cases hopen
  · split at hopen
    · cases hopen
    · dsimp only at hopen
      rw [hblocked] at hopen
      cases hopen

lemma openLoose_of_changed {kind : SourceKind} {start : Location} {target : Text.Loose}
    {a' : Context}
    (hchanged : fs.look (Path.stem (Path.joinLoose a.root target)) = .blocked ∨
      ∃ bytes, fs.look (Path.stem (Path.joinLoose a.root target)) = .file bytes) :
    a.openLoose fs kind start target ≠ .ok a' := by
  intro hopen
  unfold Context.openLoose at hopen
  dsimp only at hopen
  split at hopen
  · cases hopen
  · split at hopen
    · cases hopen
    · split at hopen
      · cases hopen
      · rcases hchanged with hblocked | ⟨bytes, hfile⟩
        · rw [hblocked] at hopen
          cases hopen
        · rw [hfile] at hopen
          cases hopen

lemma openTarget (h : fs.Deletion fs') (hab : a.Agrees (leeway fs fs' root) b) (kind : SourceKind)
    (start : Location) (target : Text.Loose) :
    Agree True (fun a b => a.Agrees (leeway fs fs' root) b ∨ Ahead (leeway fs fs' root) a b)
      (a.openTarget fs kind start target) (b.openTarget fs' kind start target) := by
  have hroot : a.root = root := hab.root
  have hvisited : b.visited = a.visited.filter (kept fs fs' root) := hab.visited
  unfold Context.openTarget
  split
  · rename_i target _
    rcases h (Path.join root target) with hsame | ⟨hmissing, hblocked | ⟨bytes, hfile, hhollow⟩⟩
    · refine (hab.openSource start ?_ fun _ _ => ?_).mono fun a b => .inl
      · exact .of_eq hsame
      · have hkept : kept fs fs' root target = true := decide_eq_true hsame
        change b.visited ++ [target] = (a.visited ++ [target]).filter (kept fs fs' root)
        rw [List.filter_append, List.filter_cons_of_pos hkept, List.filter_nil, hvisited]
    · rw [← hroot] at hblocked
      exact .of_ok fun a' hopen => absurd hopen (openSource_of_blocked hblocked)
    · exact (openDeleted hab hfile hhollow hmissing).mono fun a b => .inr
  · rcases h (Path.stem (Path.joinLoose root target)) with hsame | ⟨-, hchanged⟩
    · exact (hab.openLoose start (.of_eq hsame)).mono fun a b => .inl
    · rw [← hroot] at hchanged
      refine .of_ok fun a' hopen => absurd hopen (openLoose_of_changed (hchanged.imp_right ?_))
      exact fun ⟨bytes, hfile, _⟩ => ⟨bytes, hfile⟩

end FileSystem.Deletion

namespace State

variable {fs fs' : FileSystem} {settings : Settings} {s : State} {b : Context} {p : Progress}

open FileSystem.Deletion

/-- While the first run reads a file without tokens, the second one waits. -/
lemma step_ahead {w : Leeway} (hblock : s.frame.entry.kind.isBlock = true)
    (hdepth : s.frame.depth ≤ b.depth) (h : Ahead w s.ctx b) (hstep : s.step fs = .ok p) :
    ∃ a, p = .running { s with ctx := a } ∧ (a.Agrees w b ∨ Ahead w a b) := by
  obtain ⟨top, below, hfiles, hidle, hab⟩ := h
  obtain ⟨token, ctx, hnext, htakes⟩ := takes_of_step hstep
  obtain ⟨top₀, top', below₀, hfiles₀, htop, hfiles', rfl⟩ := Context.next_eq_ok hnext
  cases hfiles.symm.trans hfiles₀
  have hclose : (s.ctx.setCurrent top').closeFile = s.ctx.closeFile := rfl
  rcases hidle.next htop with hend | ⟨hline, hidle'⟩
  · rcases htakes.fileEnd_eq hblock hend with ⟨rfl, -⟩ | ⟨-, -, -, hle, -⟩
    · exact ⟨_, rfl, .inl (hclose ▸ hab)⟩
    · have hbelow : b.depth = below.length := by
        rw [hab.depth, depth, closeFile, hfiles]
        rfl
      rw [depth, hfiles', List.length_cons] at hle
      omega
  · cases htakes.lineEnd_eq hline
    exact ⟨_, rfl, .inr ⟨top', below, hfiles', hidle', hclose ▸ hab⟩⟩

/-- A run that does not fail ends with the same entry once the files are deleted. -/
theorem run_deleted (hfs : fs.Deletion fs') (s : State) :
    ∀ {b : Context} {e : Entry} {ctx : Context}, Reachable fs' settings { s with ctx := b } →
      (s.ctx.Agrees (leeway fs fs' settings.root) b ∨ s.frame.entry.kind.isBlock = true ∧
        Ahead (leeway fs fs' settings.root) s.ctx b) → s.run fs = .ok (e, ctx) →
      ∃ ctx', { s with ctx := b }.run fs' = .ok (e, ctx') ∧
        ctx.Agrees (leeway fs fs' settings.root) ctx' := by
  induction s using step_induction fs with
  | next s ih =>
    intro b e ctx hreach h hrun
    cases hstep : s.step fs with
    | error fault =>
      rw [run_of_error hstep] at hrun
      cases hrun
    | ok p =>
      rcases h with hab | ⟨hblock, hahead⟩
      · have hsource : ∀ {a b : Context} (kind : SourceKind),
            a.Agrees (leeway fs fs' settings.root) b →
              Agree True
                (fun a b => a.Agrees (leeway fs fs' settings.root) b ∨
                  Ahead (leeway fs fs' settings.root) a b)
                (a.readSource fs kind) (b.readSource fs' kind) :=
          fun kind hab => hab.readSource fun start target hab =>
            hfs.openTarget hab kind start target
        have hsteps := step_agrees hsource hab
        rw [hstep] at hsteps
        rcases hsteps.split with ⟨fault, hfails, -⟩ | ⟨p, q, hp, hq, hpq⟩
        · cases hfails
        · cases hp
          cases hpq with
          | running hab =>
            rw [run_of_running hstep] at hrun
            rw [run_of_running hq]
            exact ih _ hstep (hreach.step hq) (.inl hab) hrun
          | sourced hblock hab =>
            rw [run_of_running hstep] at hrun
            rw [run_of_running hq]
            exact ih _ hstep (hreach.step hq) (hab.imp_right fun h => ⟨hblock, h⟩) hrun
          | finished hab =>
            rw [run_of_finished hstep] at hrun
            cases hrun
            exact ⟨_, run_of_finished hq, hab⟩
      · have hdepths := (List.pairwise_cons.1 hreach.sound.depths).1 _ List.mem_cons_self
        obtain ⟨a, rfl, h⟩ := step_ahead hblock hdepths hahead hstep
        rw [run_of_running hstep] at hrun
        exact ih _ hstep hreach (h.imp_right fun h => ⟨hblock, h⟩) hrun

end State

/-- Deleting files whose only tokens are ends of lines leaves the tree of a parse as it is, with all
locations, and the symbols. The list of files loses the names that have led to them. -/
theorem Tree.parse_deleted {fs fs' : FileSystem} (h : fs.Deletion fs') {settings : Settings}
    (hroot : fs'.look (Path.join settings.root settings.file) =
      fs.look (Path.join settings.root settings.file))
    {tree : Tree} (hparse : Tree.parse fs settings = .ok tree) :
    ∃ tree', Tree.parse fs' settings = .ok tree' ∧ tree'.root = tree.root ∧
      tree'.symbols = tree.symbols ∧
        tree'.files = tree.files.filter fun name =>
          fs'.look (Path.join settings.root name) = fs.look (Path.join settings.root name) := by
  obtain ⟨s, e, ctx, hstart, hrun, rfl⟩ := Tree.parse_eq_ok.1 hparse
  obtain ⟨bytes, hlook, rfl⟩ := Settings.start_eq_ok.1 hstart
  have hstart' := Settings.start_eq_ok.2 ⟨bytes, hroot.trans hlook, rfl⟩
  have hab : (settings.opened bytes).ctx.Agrees (FileSystem.Deletion.leeway fs fs' settings.root)
      (settings.opened bytes).ctx := by
    have hkept : FileSystem.Deletion.kept fs fs' settings.root settings.file = true :=
      decide_eq_true hroot
    refine ⟨rfl, rfl, rfl, rfl, True.intro, .cons (.refl _) .nil, ?_, rfl, rfl, rfl⟩
    change [settings.file] = [settings.file].filter _
    rw [List.filter_cons_of_pos hkept, List.filter_nil]
  obtain ⟨ctx', hrun', hab'⟩ := State.run_deleted h _ (.start hstart') (.inl hab) hrun
  exact ⟨_, Tree.parse_eq_ok.2 ⟨_, e, ctx', hstart', hrun', rfl⟩, rfl, hab'.symbols, hab'.visited⟩

namespace Snapshot

variable {s : Snapshot} {place : List Path.Name} {bytes : List UInt8}

/-- The file systems before and after a file without tokens has been deleted. -/
theorem deletion (h : s.Lone place bytes) (hhollow : Hollow bytes) :
    s.toFileSystem.Deletion (s.delete place).toFileSystem := by
  intro path
  rcases look_delete h path.toList with hsame | ⟨hmissing, hblocked | hfile⟩
  · exact .inl hsame
  · exact .inr ⟨hmissing, .inl hblocked⟩
  · exact .inr ⟨hmissing, .inr ⟨bytes, hfile, hhollow⟩⟩

/-- A menu, a choice and an `if` block that include a file in which there is only a comment. -/
def remarked : Snapshot where
  files := [
    (["K".toList], ("menu \"m\"\nsource \"E\"\nif A\norsource \"E\"\nchoice\n bool \"c\"\n" ++
      "rsource \"E\"\nconfig B\nendchoice\nendif\nendmenu\nosource \"E\"\n").toUTF8.toList),
    (["E".toList], "# nothing\n\n".toUTF8.toList)]

theorem parse_deleted_remarked : ∃ tree tree',
    Tree.parse remarked.toFileSystem { root := "", file := "K" } = .ok tree ∧
      tree.files = ["K", "E", "E", "E", "E"] ∧
        Tree.parse (remarked.delete ["E".toList]).toFileSystem { root := "", file := "K" } =
            .ok tree' ∧
          tree'.root = tree.root ∧ tree'.symbols = tree.symbols ∧ tree'.files = ["K"] := by
  have hrun : (Tree.parseFor remarked.toFileSystem { root := "", file := "K" } 60).any
      (fun tree => tree.files = ["K", "E", "E", "E", "E"]) = true := by decide +kernel
  obtain ⟨tree, htree, hfiles⟩ := (Option.any_eq_true _ _).1 hrun
  have hfiles := of_decide_eq_true hfiles
  have hparse := Tree.parse_of_parseFor htree
  have hlone : remarked.Lone ["E".toList] "# nothing\n\n".toUTF8.toList :=
    ⟨by decide +kernel, by decide, by decide +kernel⟩
  have hhollow : Hollow "# nothing\n\n".toUTF8.toList := by
    unfold Hollow
    decide +kernel
  obtain ⟨tree', hparse', hroot, hsymbols, hkept⟩ :=
    Tree.parse_deleted (deletion hlone hhollow) (by decide +kernel) hparse
  refine ⟨tree, tree', hparse, hfiles, hparse', hroot, hsymbols, ?_⟩
  rw [hkept, hfiles]
  decide +kernel

end Snapshot

end Kconfig
