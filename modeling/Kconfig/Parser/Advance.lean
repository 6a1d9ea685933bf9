import Kconfig.Context.Reads
import Kconfig.Parser

/-!
# The steps of the parser

Each step takes tokens from the file that is read and may then open another file, or it closes the
file that is read, or it closes an entry without taking a token.
-/

namespace Kconfig

open Context

/-- What a step does to the files and to the frames. -/
inductive Advance (fs : FileSystem) (s s' : State) : Prop where
  /-- It takes a token. -/
  | reads (h : Reads 1 s.ctx s'.ctx)
  /-- It closes the innermost frame. -/
  | closes (h : Reads 0 s.ctx s'.ctx) (shorter : s'.outer.length < s.outer.length)
  /-- It takes a token and opens a file. -/
  | opens (mid : Context) (h : Reads 1 s.ctx mid) (opened : Opens fs mid s'.ctx)
  /-- It closes the file that is read. -/
  | returns (mid : Context) (h : Reads 0 s.ctx mid) (root : s'.ctx.root = mid.root)
    (files : s'.ctx.files = mid.files.tail)

namespace Frame

theorem openConfig_reads {ctx ctx' : Context} {isMenu : Bool} {keyword : String} {frame : Frame}
    (h : openConfig ctx isMenu keyword = .ok (frame, ctx')) : Reads 0 ctx ctx' := by
  obtain ⟨location, -, h⟩ := bind_eq_ok.1 h
  obtain ⟨⟨token, ctx₁⟩, hnext, h⟩ := bind_eq_ok.1 h
  dsimp only at h
  split at h
  · cases h
  · cases pure_eq_ok.1 h
    exact ((next_reads hnext).mono (Nat.zero_le _)).congr (by simp) (by simp)

theorem openComment_reads {ctx ctx' : Context} {frame : Frame} (hne : ctx.files ≠ [])
    (h : openComment ctx = .ok (frame, ctx')) : Reads 0 ctx ctx' := by
  obtain ⟨location, -, h⟩ := bind_eq_ok.1 h
  obtain ⟨⟨e, ctx₁⟩, hread, h⟩ := bind_eq_ok.1 h
  cases pure_eq_ok.1 h
  exact readDirective_reads hne hread

theorem openChoice_reads {ctx ctx' : Context} {frame : Frame}
    (h : openChoice ctx = .ok (frame, ctx')) : Reads 0 ctx ctx' := by
  obtain ⟨location, -, h⟩ := bind_eq_ok.1 h
  obtain ⟨⟨token, ctx₁⟩, hnext, h⟩ := bind_eq_ok.1 h
  dsimp only at h
  split at h
  · obtain ⟨ctx₂, hpush, h⟩ := bind_eq_ok.1 h
    cases pure_eq_ok.1 h
    exact next_pushBack_reads hnext hpush
  · obtain ⟨ctx₂, hpure, h⟩ := bind_eq_ok.1 h
    cases pure_eq_ok.1 hpure
    cases pure_eq_ok.1 h
    exact (next_reads hnext).mono (Nat.zero_le _)

theorem openMenu_reads {ctx ctx' : Context} {frame : Frame} (hne : ctx.files ≠ [])
    (h : openMenu ctx = .ok (frame, ctx')) : Reads 0 ctx ctx' := by
  obtain ⟨location, -, h⟩ := bind_eq_ok.1 h
  obtain ⟨⟨e, ctx₁⟩, hread, h⟩ := bind_eq_ok.1 h
  cases pure_eq_ok.1 h
  exact readDirective_reads hne hread

end Frame

namespace State

variable {fs : FileSystem} {s s' : State} {ctx : Context} {word : String}

theorem close_running (h : s.close ctx = .running s') :
    s'.ctx.root = ctx.root ∧ s'.ctx.files = ctx.files ∧ s'.outer.length < s.outer.length := by
  unfold close at h
  dsimp only at h
  split at h
  · cases h
  · rename_i frame outer houter
    cases h
    simp only [houter, List.length_cons, Nat.lt_succ_self, and_true]
    split <;> simp

theorem close_advance {n : Nat} (hr : Reads n s.ctx ctx) (h : s.close ctx = .running s') :
    Advance fs s s' := by
  obtain ⟨hroot, hfiles, hlt⟩ := close_running h
  exact .closes ((hr.mono (Nat.zero_le _)).congr hroot hfiles) hlt

theorem goOn_advance {ctx' : Context} (hr : Reads 1 s.ctx ctx) (hr' : Reads 0 ctx ctx')
    (h : s.goOn ctx' = .running s') : Advance fs s s' := by
  cases h
  exact .reads (hr.trans hr')

theorem update_advance {result : Entry × Context} (hr : Reads 1 s.ctx ctx)
    (hr' : Reads 0 ctx result.2) (h : s.update result = .running s') : Advance fs s s' := by
  cases h
  exact .reads (hr.trans hr')

theorem descend_advance {opened : Frame × Context} (hr : Reads 1 s.ctx ctx)
    (hr' : Reads 0 ctx opened.2) (h : s.descend opened = .running s') : Advance fs s s' := by
  cases h
  exact .reads (hr.trans hr')

theorem source_advance {ctx' : Context} {kind : SourceKind} (hr : Reads 1 s.ctx ctx)
    (hs : ctx.readSource fs kind = .ok ctx') (h : s.goOn ctx' = .running s') : Advance fs s s' := by
  cases h
  rcases readSource_reads hs with hs | ⟨mid, hmid, hopen⟩
  · exact .reads (hr.trans hs)
  · exact .opens mid (hr.trans hmid) hopen

theorem stepDirective_advance (hr : Reads 1 s.ctx ctx)
    (h : s.stepDirective ctx word = .ok (.running s')) : Advance fs s s' := by
  unfold stepDirective at h
  dsimp only at h
  split at h
  · split at h
    · obtain ⟨result, hread, h⟩ := bind_eq_ok.1 h
      exact update_advance hr (readDirective_reads hr.ne_nil hread) (pure_eq_ok.1 h)
    · obtain ⟨ctx', hread, h⟩ := bind_eq_ok.1 h
      exact goOn_advance hr (unrecognized_reads hread) (pure_eq_ok.1 h)
  · obtain ⟨ctx', hread, h⟩ := bind_eq_ok.1 h
    exact goOn_advance hr (unrecognized_reads hread) (pure_eq_ok.1 h)

theorem stepLeaf_advance {token : Token} (hnext : s.ctx.next = .ok (token, ctx))
    (hr : Reads 1 s.ctx ctx) (h : s.stepLeaf ctx word = .ok (.running s')) : Advance fs s s' := by
  unfold stepLeaf at h
  split at h
  · obtain ⟨ctx', hpush, h⟩ := bind_eq_ok.1 h
    exact close_advance (next_pushBack_reads hnext hpush) (pure_eq_ok.1 h)
  · exact stepDirective_advance hr h

theorem stepChoice_advance (hr : Reads 1 s.ctx ctx)
    (h : s.stepChoice fs ctx word = .ok (.running s')) : Advance fs s s' := by
  unfold stepChoice at h
  dsimp only at h
  split at h
  · exact stepDirective_advance hr h
  · obtain ⟨-, -, h⟩ := bind_eq_ok.1 h
    exact close_advance hr (pure_eq_ok.1 h)
  · obtain ⟨opened, hopen, h⟩ := bind_eq_ok.1 h
    exact descend_advance hr (Frame.openConfig_reads hopen) (pure_eq_ok.1 h)
  · obtain ⟨opened, hopen, h⟩ := bind_eq_ok.1 h
    exact descend_advance hr (Frame.openComment_reads hr.ne_nil hopen) (pure_eq_ok.1 h)
  · obtain ⟨ctx', hsource, h⟩ := bind_eq_ok.1 h
    exact source_advance hr hsource (pure_eq_ok.1 h)
  · obtain ⟨ctx', hif, h⟩ := bind_eq_ok.1 h
    exact goOn_advance hr (readIf_reads hif) (pure_eq_ok.1 h)
  · obtain ⟨ctx', hif, h⟩ := bind_eq_ok.1 h
    exact goOn_advance hr (readEndif_reads hr.ne_nil hif) (pure_eq_ok.1 h)
  all_goals cases h

theorem stepMainMenu_advance (hr : Reads 1 s.ctx ctx)
    (h : s.stepMainMenu ctx word = .ok (.running s')) : Advance fs s s' := by
  unfold stepMainMenu at h
  dsimp only at h
  split at h
  · cases h
  · split at h
    · cases h
    · obtain ⟨location, -, h⟩ := bind_eq_ok.1 h
      obtain ⟨result, hread, h⟩ := bind_eq_ok.1 h
      exact update_advance hr (readDirective_reads hr.ne_nil hread) (pure_eq_ok.1 h)

theorem stepMenu_advance (hr : Reads 1 s.ctx ctx)
    (h : s.stepMenu fs ctx word = .ok (.running s')) : Advance fs s s' := by
  unfold stepMenu at h
  dsimp only at h
  split at h
  · split at h
    · obtain ⟨result, hread, h⟩ := bind_eq_ok.1 h
      exact update_advance hr (readExtra_reads Directive.readVisible_leaves hread) (pure_eq_ok.1 h)
    · exact stepDirective_advance hr h
  · split at h
    · cases h
    · obtain ⟨-, -, h⟩ := bind_eq_ok.1 h
      exact close_advance hr (pure_eq_ok.1 h)
  · obtain ⟨opened, hopen, h⟩ := bind_eq_ok.1 h
    exact descend_advance hr (Frame.openConfig_reads hopen) (pure_eq_ok.1 h)
  · obtain ⟨opened, hopen, h⟩ := bind_eq_ok.1 h
    exact descend_advance hr (Frame.openChoice_reads hopen) (pure_eq_ok.1 h)
  · obtain ⟨opened, hopen, h⟩ := bind_eq_ok.1 h
    exact descend_advance hr (Frame.openComment_reads hr.ne_nil hopen) (pure_eq_ok.1 h)
  · obtain ⟨opened, hopen, h⟩ := bind_eq_ok.1 h
    exact descend_advance hr (Frame.openMenu_reads hr.ne_nil hopen) (pure_eq_ok.1 h)
  · obtain ⟨ctx', hsource, h⟩ := bind_eq_ok.1 h
    exact source_advance hr hsource (pure_eq_ok.1 h)
  · obtain ⟨ctx', hif, h⟩ := bind_eq_ok.1 h
    exact goOn_advance hr (readIf_reads hif) (pure_eq_ok.1 h)
  · obtain ⟨ctx', hif, h⟩ := bind_eq_ok.1 h
    exact goOn_advance hr (readEndif_reads hr.ne_nil hif) (pure_eq_ok.1 h)
  · cases h
  · exact stepMainMenu_advance hr h

theorem stepFileEnd_advance {token : Token} (hnext : s.ctx.next = .ok (token, ctx))
    (h : s.stepFileEnd ctx = .ok (.running s')) : Advance fs s s' := by
  have hr : Reads 0 s.ctx ctx := (next_reads hnext).mono (Nat.zero_le _)
  unfold stepFileEnd at h
  dsimp only at h
  split at h
  · obtain ⟨ctx', hpush, h⟩ := bind_eq_ok.1 h
    exact close_advance (next_pushBack_reads hnext hpush) (pure_eq_ok.1 h)
  · obtain ⟨ctx', hpush, h⟩ := bind_eq_ok.1 h
    exact close_advance (next_pushBack_reads hnext hpush) (pure_eq_ok.1 h)
  · split at h
    · cases pure_eq_ok.1 h
      exact .returns ctx hr rfl rfl
    · cases h
  · split at h
    · cases pure_eq_ok.1 h
      exact .returns ctx hr rfl rfl
    · split at h
      · cases h
      · split at h
        · cases h
        · exact close_advance hr (pure_eq_ok.1 h)

/-- Every step that does not end the run advances. -/
theorem step_advance (h : s.step fs = .ok (.running s')) : Advance fs s s' := by
  obtain ⟨⟨token, ctx⟩, hnext, h⟩ := bind_eq_ok.1 h
  have hr := next_reads hnext
  dsimp only at h
  split at h
  · exact stepFileEnd_advance hnext h
  · rename_i hlex
    rw [cost, hlex, if_neg (by simp)] at hr
    cases pure_eq_ok.1 h
    exact .reads hr
  · rename_i word hlex
    rw [cost, hlex, if_neg (by simp)] at hr
    split at h
    · exact stepLeaf_advance hnext hr h
    · exact stepLeaf_advance hnext hr h
    · exact stepChoice_advance hr h
    · exact stepMenu_advance hr h
  · rename_i lexeme hend hline hword
    rw [cost, if_neg hend] at hr
    obtain ⟨ctx', hread, h⟩ := bind_eq_ok.1 h
    exact goOn_advance hr (unrecognized_reads hread) (pure_eq_ok.1 h)

end State

end Kconfig
