import Kconfig.Proofs.Forecast
import Kconfig.Proofs.Located
import Kconfig.Proofs.Steps

/-!
# Motions

What a step does to the frames, to the open files and to the conditions, apart from the entries that
it builds. Only blocks see other files and other conditions: an entry that holds no others is read
in one opening of a file. A block ends in front of its end keyword, with as many files open and
under the same conditions as when it began.
-/

namespace Kconfig

namespace Context

variable {fs : FileSystem} {a b c ctx ctx' : Context}

lemma visited_next {token : Token} (h : ctx.next = .ok (token, ctx')) :
    ctx'.visited = ctx.visited := by
  obtain ⟨s, -, h⟩ := bind_eq_ok.1 h
  obtain ⟨⟨token', s'⟩, -, h⟩ := bind_eq_ok.1 h
  cases pure_eq_ok.1 h
  rfl

lemma visited_pushBack (h : ctx.pushBack = .ok ctx') : ctx'.visited = ctx.visited := by
  obtain ⟨s, -, h⟩ := bind_eq_ok.1 h
  obtain ⟨s', -, h⟩ := bind_eq_ok.1 h
  cases pure_eq_ok.1 h
  rfl

lemma visited_readLine {α : Type} {read : List Token → Except ReadFailure (Reading α)}
    {r : Reading α}
    (h : ctx.readLine read = .ok (r, ctx')) : ctx'.visited = ctx.visited := by
  obtain ⟨s, -, h⟩ := bind_eq_ok.1 h
  obtain ⟨s', -, h⟩ := bind_eq_ok.1 h
  split at h
  · cases h
  · cases h
    rfl

lemma visited_readExtra {read : List Token → Except ReadFailure (Reading Directive)} {e e' : Entry}
    (h : ctx.readExtra read e = .ok (e', ctx')) : ctx'.visited = ctx.visited := by
  obtain ⟨start, -, h⟩ := bind_eq_ok.1 h
  obtain ⟨⟨r, ctx₁⟩, hline, h⟩ := bind_eq_ok.1 h
  have hvisited := visited_readLine hline
  obtain ⟨location, -, h⟩ := bind_eq_ok.1 h
  cases pure_eq_ok.1 h
  exact hvisited

lemma visited_readDirective {kind : DirectiveKind} {keyword : String} {e e' : Entry}
    (h : ctx.readDirective kind keyword e = .ok (e', ctx')) : ctx'.visited = ctx.visited := by
  unfold readDirective at h
  split at h
  · obtain ⟨location, -, h⟩ := bind_eq_ok.1 h
    cases h
  · split at h
    · cases h
      rfl
    · obtain ⟨start, -, h⟩ := bind_eq_ok.1 h
      obtain ⟨s, -, h⟩ := bind_eq_ok.1 h
      obtain ⟨⟨text, s'⟩, -, h⟩ := bind_eq_ok.1 h
      cases pure_eq_ok.1 h
      rfl
    · exact visited_readExtra h

lemma visited_unrecognized {kind : EntryKind} {first : String}
    (h : ctx.unrecognized kind first = .ok ctx') : ctx'.visited = ctx.visited := by
  obtain ⟨⟨text, ctx₁⟩, hskip, h⟩ := bind_eq_ok.1 h
  obtain ⟨⟨r, ctx₂⟩, hline, hskip⟩ := bind_eq_ok.1 hskip
  cases pure_eq_ok.1 hskip
  dsimp only at h
  split at h
  · cases h
  · have hvisited := visited_readLine hline
    obtain ⟨location, -, h⟩ := bind_eq_ok.1 h
    cases pure_eq_ok.1 h
    exact hvisited

lemma visited_readIf (h : ctx.readIf = .ok ctx') : ctx'.visited = ctx.visited := by
  obtain ⟨⟨condition, mid⟩, hread, h⟩ := bind_eq_ok.1 h
  cases pure_eq_ok.1 h
  obtain ⟨start, -, hread⟩ := bind_eq_ok.1 hread
  obtain ⟨⟨r, ctx₁⟩, hline, hread⟩ := bind_eq_ok.1 hread
  have hvisited := visited_readLine hline
  obtain ⟨location, -, hread⟩ := bind_eq_ok.1 hread
  cases pure_eq_ok.1 hread
  exact hvisited

@[simp]
lemma visited_setSymbol (ctx : Context) (e : Entry) : (ctx.setSymbol e).visited = ctx.visited := by
  unfold setSymbol
  split <;> rfl

@[simp]
lemma visited_define (ctx : Context) (e : Entry) : (ctx.define e).visited = ctx.visited := by
  unfold define
  split
  · rfl
  · rw [visited_setSymbol]
    rfl

lemma Reads.depth {n : Nat} (h : Reads n a b) : b.depth = a.depth := by
  obtain ⟨s, s', below, ha, hb, -⟩ := h.files
  rw [Context.depth, Context.depth, ha, hb, List.length_cons, List.length_cons]

lemma Reads.fileNames {n : Nat} (h : Reads n a b) : b.fileNames = a.fileNames := by
  obtain ⟨s, s', below, ha, hb, hafter⟩ := h.files
  rw [Context.fileNames, Context.fileNames, ha, hb, List.map_cons, List.map_cons, hafter.1]

lemma Reads.below {n : Nat} (h : Reads n a b) : b.files.tail = a.files.tail := by
  obtain ⟨s, s', below, ha, hb, -⟩ := h.files
  rw [ha, hb, List.tail_cons, List.tail_cons]

/-- Reading goes on in the same opening of the same file, under the same conditions. -/
structure Remains (a b : Context) : Prop where
  reads : Reads 0 a b
  scope : b.scope = a.scope
  visited : b.visited = a.visited

namespace Remains

lemma trans (h₁ : Remains a b) (h₂ : Remains b c) : Remains a c :=
  ⟨h₁.reads.trans h₂.reads, h₂.scope.trans h₁.scope, h₂.visited.trans h₁.visited⟩

lemma setSymbol (h : Remains a b) (e : Entry) : Remains a (b.setSymbol e) :=
  ⟨h.reads.congr (root_setSymbol b e) (files_setSymbol b e),
    (scope_setSymbol b e).trans h.scope, (visited_setSymbol b e).trans h.visited⟩

lemma define (h : Remains a b) (e : Entry) : Remains a (b.define e) :=
  ⟨h.reads.congr (root_define b e) (files_define b e),
    (scope_define b e).trans h.scope, (visited_define b e).trans h.visited⟩

end Remains

lemma remains_next {token : Token} (h : ctx.next = .ok (token, ctx')) : Remains ctx ctx' :=
  ⟨(next_reads h).mono (Nat.zero_le _), (next_quiet h).scope, visited_next h⟩

lemma remains_pushBack {token : Token} {ctx'' : Context} (h : ctx.next = .ok (token, ctx'))
    (hpush : ctx'.pushBack = .ok ctx'') : Remains ctx ctx'' where
  reads := next_pushBack_reads h hpush
  scope := (pushBack_quiet hpush).scope.trans (next_quiet h).scope
  visited := (visited_pushBack hpush).trans (visited_next h)

lemma remains_readDirective {kind : DirectiveKind} {keyword : String} {e e' : Entry}
    (hne : ctx.files ≠ []) (h : ctx.readDirective kind keyword e = .ok (e', ctx')) :
    Remains ctx ctx' where
  reads := readDirective_reads hne h
  scope := by
    obtain ⟨-, -, -, -, -, hquiet⟩ := readDirective_eq_ok h
    exact hquiet.scope
  visited := visited_readDirective h

/-- A frame that is opened begins in the file that is read, under the conditions that are open. -/
structure Begins (a : Context) (kind : EntryKind) (opened : Frame × Context) : Prop where
  remains : Remains a opened.2
  scope : opened.1.scope = a.scope
  depth : opened.1.depth = a.depth
  isTop : opened.1.isTop = false
  kind : opened.1.entry.kind = kind

lemma begins_of_remains {e : Entry} {kind : EntryKind} (h : Remains a b) (hkind : e.kind = kind) :
    Begins a kind ({ entry := e, scope := b.scope, depth := b.depth }, b) :=
  ⟨h, h.scope, h.reads.depth, rfl, hkind⟩

lemma openFrame_begins {opening : Opening} {opened : Frame × Context} (hne : ctx.files ≠ [])
    (htop : opening ≠ .top) (h : ctx.openFrame opening = .ok opened) :
    Begins ctx opening.kind opened := by
  cases opening with
  | config isMenu =>
    obtain ⟨location, -, h⟩ := bind_eq_ok.1 h
    obtain ⟨⟨token, ctx₁⟩, hnext, h⟩ := bind_eq_ok.1 h
    have hremains := remains_next hnext
    dsimp only at h
    split at h
    · cases h
    · cases pure_eq_ok.1 h
      exact ⟨hremains.define _, hremains.scope, hremains.reads.depth, rfl, rfl⟩
  | choice =>
    obtain ⟨location, -, h⟩ := bind_eq_ok.1 h
    obtain ⟨⟨token, ctx₁⟩, hnext, h⟩ := bind_eq_ok.1 h
    dsimp only at h
    split at h
    · obtain ⟨ctx₂, hpush, h⟩ := bind_eq_ok.1 h
      cases pure_eq_ok.1 h
      exact begins_of_remains (remains_pushBack hnext hpush) rfl
    · obtain ⟨ctx₂, hpure, h⟩ := bind_eq_ok.1 h
      cases pure_eq_ok.1 hpure
      cases pure_eq_ok.1 h
      exact begins_of_remains (remains_next hnext) rfl
  | comment =>
    obtain ⟨location, -, h⟩ := bind_eq_ok.1 h
    obtain ⟨⟨e, ctx₁⟩, hread, h⟩ := bind_eq_ok.1 h
    cases pure_eq_ok.1 h
    obtain ⟨d, site, slips, -, rfl, -⟩ := readDirective_eq_ok hread
    exact begins_of_remains (remains_readDirective hne hread)
      (Directive.shows_apply _ site slips d _).kind
  | menu =>
    obtain ⟨location, -, h⟩ := bind_eq_ok.1 h
    obtain ⟨⟨e, ctx₁⟩, hread, h⟩ := bind_eq_ok.1 h
    cases pure_eq_ok.1 h
    obtain ⟨d, site, slips, -, rfl, -⟩ := readDirective_eq_ok hread
    exact begins_of_remains (remains_readDirective hne hread)
      (Directive.shows_apply _ site slips d _).kind
  | top => exact absurd rfl htop

/-- The token that has been put back, if there is one. -/
def pending? (ctx : Context) : Option Token :=
  ctx.files.head?.bind fun s => if s.pushedBack then s.current else none

lemma pending_of_pushBack {token : Token} (h : ctx.next = .ok (token, ctx'))
    (hpush : ctx'.pushBack = .ok c) : c.pending? = some token := by
  obtain ⟨s, hs, h⟩ := bind_eq_ok.1 h
  obtain ⟨⟨token', s'⟩, hnext, h⟩ := bind_eq_ok.1 h
  cases pure_eq_ok.1 h
  have hcurrent := (TokenStream.next_after hnext).2.1
  obtain ⟨t, ht, hpush⟩ := bind_eq_ok.1 hpush
  obtain ⟨t', hback, hpush⟩ := bind_eq_ok.1 hpush
  cases pure_eq_ok.1 hpush
  cases ht
  unfold TokenStream.pushBack at hback
  split at hback
  · cases hback
  · split at hback
    · cases hback
    · cases hback
      exact hcurrent

/-- A file has been opened after some reading. -/
structure Visits (a b : Context) : Prop where
  scope : b.scope = a.scope
  below : a.files.tail <:+ b.files.tail
  opened : ∃ name, b.fileNames = name :: a.fileNames ∧ b.visited = a.visited ++ [name]

lemma readSource_visits {kind : SourceKind} (h : ctx.readSource fs kind = .ok ctx') :
    Remains ctx ctx' ∨ Visits ctx ctx' := by
  obtain ⟨start, r, mid, hline, hincludes⟩ := includes_of_readSource h
  have hvisited := visited_readLine hline
  have hscope := (readLine_quiet hline).scope
  have hreads := readLine_reads kind.readPath_leaves hline
  cases hincludes with
  | missing => exact .inl ⟨hreads.congr rfl rfl, hscope, hvisited⟩
  | opened name bytes =>
    refine .inr ⟨hscope, ?_, name, ?_, congrArg (· ++ [name]) hvisited⟩
    · rw [← hreads.below]
      exact List.tail_suffix mid.files
    · exact congrArg (name :: ·) hreads.fileNames

lemma checkBlockEnd_eq_ok {e : Entry} {keyword : String} {depth : Nat} {scope : List Condition}
    (h : ctx.checkBlockEnd e keyword depth scope = .ok ()) :
    ctx.depth = depth ∧ ctx.scope = scope := by
  unfold checkBlockEnd at h
  split at h
  · cases h
  · rename_i hdepth
    split at h
    · cases h
    · split at h
      · cases h
      · rename_i hscope
        exact ⟨not_not.1 hdepth, not_not.1 hscope⟩

end Context

open Context

/-- Why the innermost frame can be closed with the context `ctx`. -/
inductive State.Ends (s : State) (ctx : Context) : Prop where
  | leaf {token : Token} (hleaf : s.frame.entry.kind.isBlock = false)
    (hpending : ctx.pending? = some token)
    (hlex : token.lexeme = .fileEnd ∨
      ∃ word, token.lexeme = .word word ∧ BlockKeyword.ofWord? word ≠ none)
  | block {word : String} {keyword : BlockKeyword} (hahead : s.ctx.wordAhead = some word)
    (hword : BlockKeyword.ofWord? word = some keyword)
    (hkeyword : s.frame.entry.kind.endKeyword? = some keyword)
    (htop : s.frame.entry.kind = .menu → s.frame.isTop = false)
    (hdepth : ctx.depth = s.frame.depth) (hscope : ctx.scope = s.frame.scope)
  | top (htop : s.frame.isTop = true) (hdepth : ctx.depth ≤ s.frame.depth) (hscope : ctx.scope = [])

/-- What a step does to the frames, the files and the conditions. -/
inductive Motion (s : State) : Progress → Prop where
  | stay {e : Entry} {ctx : Context} (hctx : Remains s.ctx ctx)
    (hkind : e.kind = s.frame.entry.kind) : Motion s (s.update (e, ctx))
  /-- An `if` block begins or ends. -/
  | cross {ctx : Context} (hblock : s.frame.entry.kind.isBlock = true) (hreads : Reads 0 s.ctx ctx)
    (hvisited : ctx.visited = s.ctx.visited) : Motion s (s.goOn ctx)
  | enter {ctx : Context} (hblock : s.frame.entry.kind.isBlock = true)
    (hctx : Visits s.ctx ctx) : Motion s (s.goOn ctx)
  | leave {ctx : Context} (hblock : s.frame.entry.kind.isBlock = true)
    (hctx : Remains s.ctx ctx) (hdepth : s.frame.depth < ctx.depth) :
    Motion s (s.goOn ctx.closeFile)
  | call {kind : EntryKind} {opened : Frame × Context}
    (hholds : s.frame.entry.kind.holds kind = true) (hopened : Begins s.ctx kind opened) :
    Motion s (s.descend opened)
  | close {ctx : Context} (hctx : Remains s.ctx ctx) (hends : s.Ends ctx) : Motion s (s.close ctx)

namespace State

variable {fs : FileSystem} {s : State} {p : Progress}

/-- Every step that does not fail is one of the motions. -/
theorem step_motion (hstep : s.step fs = .ok p) : Motion s p := by
  obtain ⟨token, ctx, hnext, htakes⟩ := takes_of_step hstep
  have hctx := remains_next hnext
  have hgoOn : ∀ {ctx'}, Remains ctx ctx' → Motion s (s.goOn ctx') :=
    fun hremains => .stay (hctx.trans hremains) rfl
  cases htakes with
  | lineEnd hlex => exact .stay hctx rfl
  | skip hlex h =>
    exact hgoOn ⟨unrecognized_reads h, (unrecognized_quiet h).scope, visited_unrecognized h⟩
  | directive hlex hword hvisible hdirective hknown h =>
    obtain ⟨d, site, slips, -, happly, -⟩ := readDirective_eq_ok h
    refine .stay (hctx.trans (remains_readDirective hctx.reads.ne_nil h)) ?_
    rw [happly]
    exact (Directive.shows_apply _ site slips d _).kind
  | visible hlex hkind h =>
    obtain ⟨d, site, slips, -, happly, hquiet⟩ := readExtra_eq_ok h
    refine .stay (hctx.trans ⟨readExtra_reads Directive.readVisible_leaves h, hquiet.scope,
      visited_readExtra h⟩) ?_
    rw [happly]
    exact (Directive.shows_apply _ site slips d _).kind
  | mainMenu hlex hword hkind htop hprompt hlocation h =>
    obtain ⟨d, site, slips, -, happly, -⟩ := readDirective_eq_ok h
    refine .stay (hctx.trans (remains_readDirective hctx.reads.ne_nil h)) ?_
    rw [happly, (Directive.shows_apply _ site slips d _).kind, Entry.kind_setHead]
  | @header word keyword opening opened hlex hword hopening hholds h =>
    have htop : opening ≠ .top := by
      rintro rfl
      cases keyword <;> cases hopening
    have hbegins := openFrame_begins hctx.reads.ne_nil htop h
    refine .call hholds ⟨hctx.trans hbegins.remains, ?_, ?_, hbegins.isTop, hbegins.kind⟩
    · rw [hbegins.scope, hctx.scope]
    · rw [hbegins.depth, hctx.reads.depth]
  | source hlex hword hblock h =>
    rcases readSource_visits h with h | h
    · exact hgoOn h
    · obtain ⟨name, hnames, hvisited⟩ := h.opened
      refine .enter hblock ⟨h.scope.trans hctx.scope, ?_, name, ?_, ?_⟩
      · rw [← hctx.reads.below]
        exact h.below
      · rw [hnames, hctx.reads.fileNames]
      · rw [hvisited, hctx.visited]
  | openIf hlex hword hblock h =>
    exact .cross hblock (hctx.reads.trans (readIf_reads h))
      ((visited_readIf h).trans hctx.visited)
  | closeIf hlex hword hblock h =>
    obtain ⟨-, rfl⟩ := readEndif_eq_ok h
    exact .cross hblock (hctx.reads.congr rfl rfl) hctx.visited
  | blockEnd hlex hword hkeyword htop h =>
    obtain ⟨hdepth, hscope⟩ := checkBlockEnd_eq_ok h
    have hahead := wordAhead_of_next hnext
    rw [hlex] at hahead
    exact .close hctx (.block hahead hword hkeyword htop hdepth hscope)
  | leafEnd hleaf hlex h =>
    exact .close (remains_pushBack hnext h) (.leaf hleaf (pending_of_pushBack hnext h) hlex)
  | fileEnd hlex hblock hdepth => exact .leave hblock hctx hdepth
  | topEnd hlex hkind htop hdepth hscope => exact .close hctx (.top htop hdepth hscope)

end State

end Kconfig
