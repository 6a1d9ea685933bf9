import Kconfig.FileSystem.Snapshot
import Kconfig.Proofs.Motion
import Kconfig.Proofs.Outcomes

/-!
# Restoration

Reading an entry leaves the open files and the conditions as it has found them. A block compares
only the number of open files and the conditions at its end with those at its beginning. That the
files are the same, and not read a second time, is a property of runs: while a frame is open, no
file is closed that was open when the frame began.

The openings of files in a run have numbers, by which `Context.visited` lists their names. The stack
of the open files is followed as a list of these numbers.
-/

namespace Kconfig

open Context

/-- What does not change in a frame while it is open. -/
structure Frame.Mark where
  scope : List Condition
  depth : Nat
  isTop : Bool
  kind : EntryKind
  deriving DecidableEq

def Frame.mark (frame : Frame) : Frame.Mark :=
  ⟨frame.scope, frame.depth, frame.isTop, frame.entry.kind⟩

lemma Frame.mark_withEntry {frame : Frame} {e : Entry} (h : e.kind = frame.entry.kind) :
    (frame.withEntry e).mark = frame.mark := by
  unfold mark withEntry
  rw [h]

def State.marks (s : State) : List Frame.Mark :=
  (s.frame :: s.outer).map Frame.mark

/-- The numbers of the openings on the stack after a step from `s` to `s'`. -/
def openings (s s' : State) (numbers : List Nat) : List Nat :=
  if s.ctx.depth < s'.ctx.depth then s.ctx.visited.length :: numbers
  else numbers.drop (s.ctx.depth - s'.ctx.depth)

/-- Steps lead from `s` to other states, all with `least` frames or more around the innermost one.
The open files are those of the openings `numbers` in `s`. -/
inductive Leads (fs : FileSystem) (least : Nat) (s : State) (numbers : List Nat) :
    State → List Nat → Prop where
  | refl : Leads fs least s numbers s numbers
  | step {t t' : State} {numbers' : List Nat} (h : Leads fs least s numbers t numbers')
    (hstep : t.step fs = .ok (.running t')) (hleast : least ≤ t'.outer.length) :
    Leads fs least s numbers t' (openings t t' numbers')

/-- A state of a run, with the numbers of the openings on its stack. The top-level file has the
number 0. -/
def Traced (fs : FileSystem) (settings : Settings) (s : State) (numbers : List Nat) : Prop :=
  ∃ first, settings.start fs = .ok first ∧ Leads fs 0 first [0] s numbers

lemma Leads.reachable {fs : FileSystem} {settings : Settings} {least : Nat} {s t : State}
    {numbers numbers' : List Nat} (h : Leads fs least s numbers t numbers')
    (hs : Reachable fs settings s) : Reachable fs settings t := by
  induction h with
  | refl => exact hs
  | step _ hstep _ ih => exact ih.step hstep

lemma Traced.reachable {fs : FileSystem} {settings : Settings} {s : State} {numbers : List Nat}
    (h : Traced fs settings s numbers) : Reachable fs settings s := by
  obtain ⟨first, hstart, hleads⟩ := h
  exact hleads.reachable (.start hstart)

section Openings

variable {s s' : State} {numbers : List Nat}

lemma openings_of_eq (h : s'.ctx.depth = s.ctx.depth) : openings s s' numbers = numbers := by
  rw [openings, h, if_neg (lt_irrefl _), Nat.sub_self, List.drop_zero]

lemma openings_of_visits (h : Visits s.ctx s'.ctx) :
    openings s s' numbers = s.ctx.visited.length :: numbers := by
  obtain ⟨name, hnames, -⟩ := h.opened
  have hdepth : s'.ctx.depth = s.ctx.depth + 1 := by
    rw [depth_eq_length, depth_eq_length, hnames, List.length_cons]
  rw [openings, if_pos (by omega)]

lemma openings_of_closeFile {ctx : Context} (hreads : Reads 0 s.ctx ctx)
    (h : s'.ctx = ctx.closeFile) : openings s s' numbers = numbers.tail := by
  have hpos : 0 < ctx.depth := List.length_pos_iff.2 hreads.ne_nil
  have hdepth : s'.ctx.depth = ctx.depth - 1 := by
    rw [h]
    exact List.length_tail
  have hsame := hreads.depth
  rw [openings, if_neg (by omega), show s.ctx.depth - s'.ctx.depth = 1 by omega, List.drop_one]

end Openings

lemma State.close_marks {s s' : State} {ctx : Context} (h : s.close ctx = .running s') :
    s'.marks = s.marks.tail := by
  obtain ⟨g, outer, houter, houter', -, hframe⟩ := close_eq_running h
  unfold marks
  rw [houter', hframe, houter, List.map_cons, List.map_cons, List.map_cons, List.tail_cons,
    Frame.mark_withEntry (Entry.kind_addChild _ _)]

lemma State.close_scope (s : State) (ctx : Context) : (s.close ctx).ctx.scope = ctx.scope := by
  unfold close
  dsimp only
  split
  all_goals
    dsimp only [Progress.ctx]
    split
    · exact scope_setSymbol _ _
    · exact scope_define _ _
    · rfl

lemma State.close_remains {s s' : State} {ctx : Context} (hctx : Remains s.ctx ctx)
    (h : s.close ctx = .running s') : Remains s.ctx s'.ctx := by
  unfold close at h
  dsimp only at h
  split at h
  · cases h
  · cases h
    dsimp only
    split
    · exact hctx.setSymbol _
    · exact hctx.define _
    · exact hctx

/-- The frames, the files below the one that is read, and the openings are on the stacks of `s` that
were on those of `base`. -/
structure Keeps (base : State) (numbers : List Nat) (s : State) (numbers' : List Nat) : Prop where
  frames : base.marks <:+ s.marks
  names : base.ctx.fileNames <:+ s.ctx.fileNames
  below : base.ctx.files.tail <:+ s.ctx.files.tail
  numbers : numbers <:+ numbers'
  length : numbers'.length = s.ctx.depth

namespace Keeps

variable {base s s' : State} {numbers numbers' : List Nat}

lemma suffix_tail {α : Type} {as bs : List α} (h : as <:+ bs)
    (hlength : as.length < bs.length) : as <:+ bs.tail := by
  cases bs with
  | nil => simp at hlength
  | cons b bs =>
    rcases List.suffix_cons_iff.1 h with rfl | h
    · simp at hlength
    · exact h

lemma of_reads (h : Keeps base numbers s numbers') (hreads : Reads 0 s.ctx s'.ctx)
    (hframes : base.marks <:+ s'.marks) :
    Keeps base numbers s' (openings s s' numbers') := by
  rw [openings_of_eq hreads.depth]
  refine ⟨hframes, ?_, ?_, h.numbers, ?_⟩
  · rw [hreads.fileNames]
    exact h.names
  · rw [hreads.below]
    exact h.below
  · rw [hreads.depth]
    exact h.length

lemma of_visits (h : Keeps base numbers s numbers') (hctx : Visits s.ctx s'.ctx)
    (hframes : s'.marks = s.marks) : Keeps base numbers s' (openings s s' numbers') := by
  obtain ⟨name, hnames, -⟩ := hctx.opened
  rw [openings_of_visits hctx]
  refine ⟨hframes ▸ h.frames, ?_, h.below.trans hctx.below, ?_, ?_⟩
  · rw [hnames]
    exact h.names.trans (List.suffix_cons _ _)
  · exact h.numbers.trans (List.suffix_cons _ _)
  · rw [List.length_cons, h.length, depth_eq_length, depth_eq_length, hnames, List.length_cons]

lemma of_closeFile {ctx : Context} (h : Keeps base numbers s numbers')
    (hlength : numbers.length = base.ctx.depth) (hpos : 0 < base.ctx.depth)
    (hreads : Reads 0 s.ctx ctx) (hclosed : s'.ctx = ctx.closeFile) (hframes : s'.marks = s.marks)
    (hdepth : base.ctx.depth < ctx.depth) : Keeps base numbers s' (openings s s' numbers') := by
  have hsame := hreads.depth
  have hnames : s'.ctx.fileNames = s.ctx.fileNames.tail := by
    rw [← hreads.fileNames, hclosed]
    exact List.map_tail
  have hbelow : s'.ctx.files.tail = s.ctx.files.tail.tail := by
    rw [← hreads.below, hclosed]
    rfl
  rw [openings_of_closeFile hreads hclosed]
  refine ⟨hframes ▸ h.frames, ?_, ?_, ?_, ?_⟩
  · rw [hnames]
    refine suffix_tail h.names ?_
    rw [← depth_eq_length, ← depth_eq_length]
    omega
  · rw [hbelow]
    refine suffix_tail h.below ?_
    rw [List.length_tail, List.length_tail]
    unfold depth at hdepth hsame hpos
    omega
  · refine suffix_tail h.numbers ?_
    rw [hlength, h.length]
    omega
  · rw [List.length_tail, h.length, depth_eq_length s'.ctx, hnames, List.length_tail,
      ← depth_eq_length]

/-- A step keeps what is on the stacks of `base`, as long as the frames of `base` are not closed. -/
lemma motion {p : Progress} (h : Keeps base numbers s numbers')
    (hlength : numbers.length = base.ctx.depth) (hpos : 0 < base.ctx.depth) (hmotion : Motion s p)
    (hp : p = .running s') (hbase : base.ctx.depth ≤ s.frame.depth)
    (hleast : base.outer.length ≤ s'.outer.length) :
    Keeps base numbers s' (openings s s' numbers') := by
  cases hmotion with
  | @stay e ctx hctx hkind =>
    cases hp
    have hmark : (s.frame.withEntry e).mark = s.frame.mark := Frame.mark_withEntry hkind
    refine h.of_reads hctx.reads ?_
    change base.marks <:+ (s.frame.withEntry e).mark :: s.outer.map Frame.mark
    rw [hmark]
    exact h.frames
  | cross hblock hreads hvisited =>
    cases hp
    exact h.of_reads hreads h.frames
  | enter hblock hctx =>
    cases hp
    exact h.of_visits hctx rfl
  | leave hblock hctx hdepth =>
    cases hp
    exact h.of_closeFile hlength hpos hctx.reads rfl rfl (by omega)
  | @call kind opened hholds hopened =>
    cases hp
    exact h.of_reads hopened.remains.reads (h.frames.trans (List.suffix_cons opened.1.mark _))
  | close hctx hends =>
    refine h.of_reads (State.close_remains hctx hp).reads ?_
    rw [State.close_marks hp]
    refine suffix_tail h.frames ?_
    obtain ⟨g, outer, houter, houter', -, -⟩ := State.close_eq_running hp
    rw [State.marks, State.marks, List.length_map, List.length_map, List.length_cons,
      List.length_cons, houter, List.length_cons, ← houter']
    omega

end Keeps

section Runs

variable {fs : FileSystem} {settings : Settings} {s s' : State} {numbers numbers' : List Nat}

lemma Reachable.nested (h : Reachable fs settings s) : Nested s.frame s.outer := by
  induction h with
  | start hstart =>
    obtain ⟨bytes, -, rfl⟩ := Settings.start_eq_ok.1 hstart
    exact settings.nested_opened bytes
  | step _ hstep ih => exact State.effect_nested (State.step_effect hstep) ih rfl

/-- An entry that holds no others is read in one opening of a file, under the same conditions. -/
lemma Reachable.leaf (h : Reachable fs settings s) (hleaf : s.frame.entry.kind.isBlock = false) :
    s.ctx.depth = s.frame.depth ∧ s.ctx.scope = s.frame.scope := by
  induction h with
  | start hstart =>
    obtain ⟨bytes, -, rfl⟩ := Settings.start_eq_ok.1 hstart
    cases hleaf
  | @step s s' hs hstep ih =>
    generalize hp : Progress.running s' = p at hstep
    cases State.step_motion hstep with
    | @stay e ctx hctx hkind =>
      cases hp
      have hsame := ih (hkind ▸ hleaf)
      exact ⟨hctx.reads.depth.trans hsame.1, hctx.scope.trans hsame.2⟩
    | cross hblock hreads hvisited =>
      cases hp
      rw [hblock] at hleaf
      cases hleaf
    | enter hblock hctx =>
      cases hp
      rw [hblock] at hleaf
      cases hleaf
    | leave hblock hctx hdepth =>
      cases hp
      rw [hblock] at hleaf
      cases hleaf
    | call hholds hopened =>
      cases hp
      exact ⟨hopened.remains.reads.depth.trans hopened.depth.symm,
        hopened.remains.scope.trans hopened.scope.symm⟩
    | close hctx hends =>
      -- The frame around a closed one holds entries.
      obtain ⟨g, outer, houter, -, -, hframe⟩ := State.close_eq_running hp.symm
      have hnested := hs.nested
      rw [houter] at hnested
      have hkind : s'.frame.entry.kind = g.entry.kind := by
        rw [hframe]
        exact Entry.kind_addChild _ _
      have hholds := hnested.2.1
      rw [← hkind] at hholds
      cases hkind' : s'.frame.entry.kind <;> simp_all [EntryKind.isBlock, EntryKind.holds]

lemma depth_le_of_marks {base : State} (h : Reachable fs settings s)
    (hframes : base.marks <:+ s.marks) :
    base.frame.depth ≤ s.frame.depth := by
  have hmem : base.frame.mark ∈ s.marks := hframes.subset List.mem_cons_self
  have hdepths := (List.pairwise_cons.1 h.sound.depths).2
  rw [List.map_cons] at hdepths
  obtain ⟨f, hf, hmark⟩ := List.mem_map.1 hmem
  have hdepth : f.depth = base.frame.depth := congrArg Frame.Mark.depth hmark
  rw [← hdepth]
  rcases List.mem_cons.1 hf with rfl | hf
  · exact le_refl _
  · exact (List.pairwise_cons.1 hdepths).1 _ (List.mem_map_of_mem hf)

lemma Leads.keeps (hs : Reachable fs settings s) (hframe : s.frame.depth = s.ctx.depth)
    (hlength : numbers.length = s.ctx.depth)
    (h : Leads fs s.outer.length s numbers s' numbers') : Keeps s numbers s' numbers' := by
  induction h with
  | refl => exact ⟨List.suffix_rfl, List.suffix_rfl, List.suffix_rfl, List.suffix_rfl, hlength⟩
  | step hleads hstep hleast ih =>
    have hbase := depth_le_of_marks (hleads.reachable hs) ih.frames
    rw [hframe] at hbase
    have hpos : 0 < s.ctx.depth := List.length_pos_iff.2 hs.sound.files.nonempty
    exact ih.motion hlength hpos (State.step_motion hstep) rfl hbase hleast

lemma Traced.keeps (h : Traced fs settings s numbers) :
    ∃ bytes, Keeps (settings.opened bytes) [0] s numbers := by
  obtain ⟨first, hstart, hleads⟩ := h
  have hreachable := Reachable.start hstart
  obtain ⟨bytes, -, rfl⟩ := Settings.start_eq_ok.1 hstart
  exact ⟨bytes, Leads.keeps hreachable rfl rfl hleads⟩

/-- The numbers on the stack are different and stand for the names of the open files. -/
structure Numbered (s : State) (numbers : List Nat) : Prop where
  names : numbers.map (s.ctx.visited[·]?) = s.ctx.fileNames.map some
  decreasing : numbers.Pairwise (· > ·)

lemma Numbered.of_reads (h : Numbered s numbers) (hreads : Reads 0 s.ctx s'.ctx)
    (hvisited : s'.ctx.visited = s.ctx.visited) : Numbered s' (openings s s' numbers) := by
  rw [openings_of_eq hreads.depth]
  refine ⟨?_, h.decreasing⟩
  rw [hvisited, hreads.fileNames]
  exact h.names

lemma Numbered.lt (h : Numbered s numbers) {n : Nat} (hn : n ∈ numbers) :
    n < s.ctx.visited.length := by
  have hmem : s.ctx.visited[n]? ∈ s.ctx.fileNames.map some := by
    rw [← h.names]
    exact List.mem_map_of_mem hn
  obtain ⟨name, -, hname⟩ := List.mem_map.1 hmem
  exact (List.getElem?_eq_some_iff.1 hname.symm).1

lemma Numbered.of_visits (h : Numbered s numbers) (hctx : Visits s.ctx s'.ctx) :
    Numbered s' (openings s s' numbers) := by
  obtain ⟨name, hnames, hvisited⟩ := hctx.opened
  rw [openings_of_visits hctx]
  refine ⟨?_, List.pairwise_cons.2 ⟨fun n hn => h.lt hn, h.decreasing⟩⟩
  have hold : numbers.map (s'.ctx.visited[·]?) = numbers.map (s.ctx.visited[·]?) := by
    refine List.map_congr_left fun n hn => ?_
    rw [hvisited, List.getElem?_append_left (h.lt hn)]
  rw [List.map_cons, hold, h.names, hvisited, List.getElem?_concat_length, hnames, List.map_cons]

theorem Traced.numbered (h : Traced fs settings s numbers) : Numbered s numbers := by
  obtain ⟨first, hstart, hleads⟩ := h
  induction hleads with
  | refl =>
    obtain ⟨bytes, -, rfl⟩ := Settings.start_eq_ok.1 hstart
    exact ⟨rfl, List.pairwise_singleton _ _⟩
  | @step t t' numbers' hleads hstep hleast ih =>
    generalize hp : Progress.running t' = p at hstep
    cases State.step_motion hstep with
    | stay hctx hkind =>
      cases hp
      exact ih.of_reads hctx.reads hctx.visited
    | cross hblock hreads hvisited =>
      cases hp
      exact ih.of_reads hreads hvisited
    | enter hblock hctx =>
      cases hp
      exact ih.of_visits hctx
    | @leave ctx hblock hctx hdepth =>
      cases hp
      rw [openings_of_closeFile hctx.reads rfl]
      refine ⟨?_, ih.decreasing.sublist (List.tail_sublist _)⟩
      have hnames : ctx.closeFile.fileNames = t.ctx.fileNames.tail := by
        rw [← hctx.reads.fileNames]
        exact List.map_tail
      change numbers'.tail.map (ctx.visited[·]?) = ctx.closeFile.fileNames.map some
      rw [hctx.visited, hnames, List.map_tail, List.map_tail, ih.names]
    | call hholds hopened =>
      cases hp
      exact ih.of_reads hopened.remains.reads hopened.remains.visited
    | close hctx hends =>
      have hremains := State.close_remains hctx hp.symm
      exact ih.of_reads hremains.reads hremains.visited

end Runs

/-- The step from `caller` to `callee` opens a frame, and the step from `last` to `after` closes it.
In `caller` the files are those of the openings `numbers`, in `last` of the openings `numbers'`. -/
structure Call (fs : FileSystem) (settings : Settings) (caller callee last after : State)
    (numbers numbers' : List Nat) : Prop where
  traced : Traced fs settings caller numbers
  opens : caller.step fs = .ok (.running callee)
  deeper : callee.outer = caller.frame :: caller.outer
  inside : Leads fs callee.outer.length callee (openings caller callee numbers) last numbers'
  closes : last.step fs = .ok (.running after)
  shallower : after.outer.length < callee.outer.length

/-- What holds when a frame has been closed. -/
structure Restored (caller callee last after : State) (numbers numbers' : List Nat) : Prop where
  names : after.ctx.fileNames = caller.ctx.fileNames
  scope : after.ctx.scope = caller.ctx.scope
  /-- The files below the one that is read have not been touched. -/
  below : after.ctx.files.tail = caller.ctx.files.tail
  /-- The last token of the entry has been read in the opening of the file in which its keyword has
  been read, and the files below are the same openings. -/
  openings : numbers' = numbers
  /-- After an entry that holds no others comes the end of the file or a keyword. -/
  leaf : callee.frame.entry.kind.isBlock = false → ∃ token, after.ctx.pending? = some token ∧
    (token.lexeme = .fileEnd ∨
      ∃ word, token.lexeme = .word word ∧ BlockKeyword.ofWord? word ≠ none)
  /-- The last token of a block is its end keyword. -/
  block : callee.frame.entry.kind.isBlock = true →
    last.ctx.wordAhead.bind BlockKeyword.ofWord? = callee.frame.entry.kind.endKeyword?

namespace Call

variable {fs : FileSystem} {settings : Settings} {caller callee last after : State}
  {numbers numbers' : List Nat}

lemma begins (h : Call fs settings caller callee last after numbers numbers') :
    Begins caller.ctx callee.frame.entry.kind (callee.frame, callee.ctx) := by
  have hopens := h.opens
  have hlength := congrArg List.length h.deeper
  rw [List.length_cons] at hlength
  generalize hp : Progress.running callee = p at hopens
  cases State.step_motion hopens with
  | call hholds hopened =>
    cases hp
    exact ⟨hopened.remains, hopened.scope, hopened.depth, hopened.isTop, rfl⟩
  | close hctx hends =>
    obtain ⟨g, outer, houter, houter', -, -⟩ := State.close_eq_running hp.symm
    rw [houter, houter', List.length_cons] at hlength
    omega
  | _ =>
    cases hp
    simp at hlength

lemma ends (h : Call fs settings caller callee last after numbers numbers')
    (hleast : callee.outer.length ≤ last.outer.length) :
    ∃ ctx, last.close ctx = .running after ∧ Remains last.ctx ctx ∧ last.Ends ctx := by
  have hcloses := h.closes
  have hshallower := h.shallower
  generalize hp : Progress.running after = p at hcloses
  cases State.step_motion hcloses with
  | close hctx hends => exact ⟨_, rfl, hctx, hends⟩
  | call hholds hopened =>
    cases hp
    rw [List.length_cons] at hshallower
    omega
  | _ =>
    cases hp
    dsimp only at hshallower
    omega

lemma keeps (h : Call fs settings caller callee last after numbers numbers') :
    Keeps callee numbers last numbers' := by
  have hremains := h.begins.remains
  have hinside := h.inside
  rw [openings_of_eq hremains.reads.depth] at hinside
  obtain ⟨bytes, hcaller⟩ := h.traced.keeps
  refine hinside.keeps (h.traced.reachable.step h.opens) ?_ ?_
  · exact h.begins.depth.trans hremains.reads.depth.symm
  · exact hcaller.length.trans hremains.reads.depth.symm

lemma mark (h : Call fs settings caller callee last after numbers numbers') :
    last.frame.mark = callee.frame.mark ∧
      ∃ ctx, last.close ctx = .running after ∧ Remains last.ctx ctx ∧ last.Ends ctx := by
  have hleast : callee.outer.length ≤ last.outer.length := by
    have hle := h.keeps.frames.length_le
    simp only [State.marks, List.length_map, List.length_cons] at hle
    omega
  obtain ⟨ctx, hclose, hctx, hends⟩ := h.ends hleast
  have hmarks : callee.marks = last.marks := by
    refine h.keeps.frames.eq_of_length ?_
    obtain ⟨g, outer, houter, houter', -, -⟩ := State.close_eq_running hclose
    have hshallower := h.shallower
    simp only [State.marks, List.length_map, List.length_cons]
    rw [houter, List.length_cons] at hleast ⊢
    rw [houter'] at hshallower
    omega
  exact ⟨(List.cons_eq_cons.1 hmarks).1.symm, ctx, hclose, hctx, hends⟩

lemma depth_scope {ctx : Context} (h : Call fs settings caller callee last after numbers numbers')
    (hctx : Remains last.ctx ctx) (hends : last.Ends ctx) :
    last.ctx.depth = caller.ctx.depth ∧ last.ctx.scope = caller.ctx.scope := by
  have hmark := h.mark.1
  have hscope : last.frame.scope = caller.ctx.scope :=
    (congrArg Frame.Mark.scope hmark).trans h.begins.scope
  have hdepth : last.frame.depth = caller.ctx.depth :=
    (congrArg Frame.Mark.depth hmark).trans h.begins.depth
  rw [← hscope, ← hdepth]
  cases hends with
  | leaf hleaf hpending hlex =>
    have hcallee := h.traced.reachable.step h.opens
    exact (h.inside.reachable hcallee).leaf hleaf
  | block hahead hword hkeyword htop hdepth' hscope' =>
    exact ⟨hctx.reads.depth.symm.trans hdepth', hctx.scope.symm.trans hscope'⟩
  | top htop =>
    have htop' : last.frame.isTop = false :=
      (congrArg Frame.Mark.isTop hmark).trans h.begins.isTop
    rw [htop'] at htop
    cases htop

theorem restored (h : Call fs settings caller callee last after numbers numbers') :
    Restored caller callee last after numbers numbers' := by
  obtain ⟨hmark, ctx, hclose, hctx, hends⟩ := h.mark
  have hkind : last.frame.entry.kind = callee.frame.entry.kind := congrArg Frame.Mark.kind hmark
  have htop : last.frame.isTop = false := (congrArg Frame.Mark.isTop hmark).trans h.begins.isTop
  obtain ⟨hdepth, hscope⟩ := h.depth_scope hctx hends
  have hkeeps := h.keeps
  have hcalled := h.begins.remains
  have hreturned := State.close_remains hctx hclose
  have hsame : callee.ctx.depth = last.ctx.depth := hcalled.reads.depth.trans hdepth.symm
  have hnames : callee.ctx.fileNames = last.ctx.fileNames := by
    refine hkeeps.names.eq_of_length ?_
    rw [← depth_eq_length, ← depth_eq_length, hsame]
  have hbelow : callee.ctx.files.tail = last.ctx.files.tail := by
    refine hkeeps.below.eq_of_length ?_
    unfold depth at hsame
    rw [List.length_tail, List.length_tail, hsame]
  refine ⟨?_, hreturned.scope.trans hscope, ?_, ?_, ?_, ?_⟩
  · rw [hreturned.reads.fileNames, ← hnames, hcalled.reads.fileNames]
  · rw [hreturned.reads.below, ← hbelow, hcalled.reads.below]
  · obtain ⟨bytes, hcaller⟩ := h.traced.keeps
    refine (hkeeps.numbers.eq_of_length ?_).symm
    rw [hcaller.length, hkeeps.length, hdepth]
  · intro hleaf
    rw [← hkind] at hleaf
    cases hends with
    | leaf _ hpending hlex =>
      refine ⟨_, ?_, hlex⟩
      rw [← hpending, pending?, pending?, (State.close_running hclose).2.1]
    | block hahead hword hkeyword =>
      rw [EntryKind.endKeyword?_of_leaf hleaf] at hkeyword
      cases hkeyword
    | top htop' =>
      rw [htop] at htop'
      cases htop'
  · intro hblock
    rw [← hkind] at hblock ⊢
    cases hends with
    | leaf hleaf =>
      rw [hleaf] at hblock
      cases hblock
    | block hahead hword hkeyword => rw [hahead, Option.bind_some, hword, hkeyword]
    | top htop' =>
      rw [htop] at htop'
      cases htop'

end Call

lemma Traced.finished {fs : FileSystem} {settings : Settings} {last : State} {e : Entry}
    {ctx : Context} {numbers : List Nat} (h : Traced fs settings last numbers)
    (hstep : last.step fs = .ok (.finished e ctx)) :
    ctx.fileNames = [settings.file] ∧ ctx.scope = [] ∧ numbers = [0] := by
  obtain ⟨bytes, hkeeps⟩ := h.keeps
  generalize hp : Progress.finished e ctx = p at hstep
  cases State.step_motion hstep with
  | @close ctx' hctx hends =>
    obtain ⟨houter, -⟩ := State.close_eq_finished hp.symm
    have hmarks : (settings.opened bytes).marks = last.marks := by
      refine hkeeps.frames.eq_of_length ?_
      rw [State.marks, State.marks, houter]
      rfl
    have hmark := (List.cons_eq_cons.1 hmarks).1
    have hkind : EntryKind.menu = last.frame.entry.kind := congrArg Frame.Mark.kind hmark
    have hdepth : 1 = last.frame.depth := congrArg Frame.Mark.depth hmark
    have htop : true = last.frame.isTop := congrArg Frame.Mark.isTop hmark
    cases hends with
    | leaf hleaf =>
      rw [← hkind] at hleaf
      cases hleaf
    | block hahead hword hkeyword htop' =>
      rw [htop' hkind.symm] at htop
      cases htop
    | top htop' hdepth' hscope =>
      rw [← hdepth, hctx.reads.depth] at hdepth'
      have hone : last.ctx.depth = 1 := by
        have hle := hkeeps.names.length_le
        rw [← depth_eq_length, ← depth_eq_length] at hle
        exact le_antisymm hdepth' hle
      have hnames : [settings.file] = last.ctx.fileNames := by
        refine hkeeps.names.eq_of_length ?_
        rw [← depth_eq_length last.ctx, hone]
        rfl
      have hfiles : ctx.files = ctx'.files := by
        have hclosed := State.close_files last ctx'
        rwa [← hp] at hclosed
      refine ⟨?_, ?_, ?_⟩
      · rw [fileNames, hfiles, hnames]
        exact hctx.reads.fileNames
      · have hclosed := State.close_scope last ctx'
        rw [← hp] at hclosed
        exact hclosed.trans hscope
      · refine (hkeeps.numbers.eq_of_length ?_).symm
        rw [hkeeps.length, hone]
        rfl
  | _ => cases hp

/-- Every entry that is read leaves the open files and the conditions as it has found them, and ends
in the very opening of a file in which it has begun. The top-level menu ends with the top-level file
alone and without conditions. -/
theorem reading_restores (fs : FileSystem) (settings : Settings) :
    (∀ caller callee last after numbers numbers',
      Call fs settings caller callee last after numbers numbers' →
        Restored caller callee last after numbers numbers') ∧
      ∀ last e ctx numbers, Traced fs settings last numbers →
        last.step fs = .ok (.finished e ctx) →
          ctx.fileNames = [settings.file] ∧ ctx.scope = [] ∧ numbers = [0] :=
  ⟨fun _ _ _ _ _ _ h => h.restored, fun _ _ _ _ h => h.finished⟩

/-- The state after `n` steps, if the run goes on and no frame of `s` is closed before that. -/
def State.follow (fs : FileSystem) (least : Nat) (s : State) (numbers : List Nat) :
    Nat → Option (State × List Nat)
  | 0 => some (s, numbers)
  | n + 1 =>
    (follow fs least s numbers n).bind fun t =>
      ((t.1.step fs).toOption.bind Progress.state?).bind fun t' =>
        if least ≤ t'.outer.length then some (t', openings t.1 t' t.2) else none

lemma State.leads_of_follow {fs : FileSystem} {least : Nat} {s t : State}
    {numbers numbers' : List Nat} {n : Nat} (h : s.follow fs least numbers n = some (t, numbers')) :
    Leads fs least s numbers t numbers' := by
  induction n generalizing t numbers' with
  | zero =>
    cases h
    exact .refl
  | succ n ih =>
    obtain ⟨⟨u, between⟩, hu, h⟩ := Option.bind_eq_some_iff.1 h
    obtain ⟨t', hstep, h⟩ := Option.bind_eq_some_iff.1 h
    split at h
    · rename_i hleast
      cases h
      exact .step (ih hu) (step_of_state? hstep) hleast
    · cases h

/-- A menu with an entry of another file in it. -/
def menuOverFiles : Snapshot where
  files := [(["K".toList], "menu \"m\"\nsource \"L\"\nendmenu\n".toUTF8.toList),
    (["L".toList], "config A\n".toUTF8.toList)]

/-- The menu is closed after another file has been opened and closed. -/
theorem reading_restores_menuOverFiles : ∃ caller callee last after numbers,
    Call menuOverFiles.toFileSystem { root := "", file := "K" } caller callee last after [0]
        numbers ∧
      last.ctx.visited = ["K", "L"] ∧ callee.frame.entry.kind = .menu ∧
        Restored caller callee last after [0] numbers ∧
          ∃ final e ctx, Traced menuOverFiles.toFileSystem { root := "", file := "K" } final [0] ∧
            final.step menuOverFiles.toFileSystem = .ok (.finished e ctx) ∧
              ctx.fileNames = ["K"] := by
  let fs := menuOverFiles.toFileSystem
  let settings : Settings := { root := "", file := "K" }
  let first := settings.opened "menu \"m\"\nsource \"L\"\nendmenu\n".toUTF8.toList
  have hstart : settings.start fs = .ok first :=
    Settings.start_eq_ok.2 ⟨_, by decide +kernel, rfl⟩
  have hcall : (((first.step fs).toOption.bind Progress.state?).any fun callee =>
      decide (callee.outer = first.frame :: first.outer ∧ callee.frame.entry.kind = .menu) &&
        (callee.follow fs callee.outer.length (openings first callee [0]) 7).any fun last =>
          decide (last.1.ctx.visited = ["K", "L"]) &&
            ((last.1.step fs).toOption.bind Progress.state?).any fun after =>
              decide (after.outer.length < callee.outer.length)) = true := by decide +kernel
  have hfinal : ((first.follow fs 0 [0] 10).any fun final =>
      decide (final.2 = [0]) &&
        match final.1.step fs with
        | .ok (.finished _ _) => true
        | .ok (.running _) => false
        | .error _ => false) = true := by decide +kernel
  simp only [Option.any_eq_true, Bool.and_eq_true, decide_eq_true_eq] at hcall hfinal
  obtain ⟨callee, hopens, ⟨hdeeper, hkind⟩, ⟨last, numbers⟩, hinside, hvisited, after, hcloses,
    hshallower⟩ := hcall
  obtain ⟨⟨final, numbers'⟩, hleads, rfl, hend⟩ := hfinal
  have htraced : Traced fs settings final [0] := ⟨first, hstart, State.leads_of_follow hleads⟩
  have hcall : Call fs settings first callee last after [0] numbers :=
    ⟨⟨first, hstart, .refl⟩, State.step_of_state? hopens, hdeeper, State.leads_of_follow hinside,
      State.step_of_state? hcloses, hshallower⟩
  obtain ⟨hrestores, hfinishes⟩ := reading_restores fs settings
  refine ⟨first, callee, last, after, numbers, hcall, hvisited, hkind,
    hrestores _ _ _ _ _ _ hcall, final, ?_⟩
  split at hend
  · rename_i e ctx hstep
    exact ⟨e, ctx, htraced, hstep, (hfinishes _ _ _ _ htraced hstep).1⟩
  · cases hend
  · cases hend

end Kconfig
