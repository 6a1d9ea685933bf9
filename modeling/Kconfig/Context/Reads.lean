import Kconfig.Context
import Kconfig.Directive.Suffix
import Kconfig.TokenStream.Size

/-!
# What requests do to the open files

All requests but the opening and closing of files change only the file that is read, and only by
taking tokens from it.
-/

namespace Kconfig

theorem bind_eq_ok {ε α β : Type} {x : Except ε α} {f : α → Except ε β} {b : β} :
    (x >>= f) = .ok b ↔ ∃ a, x = .ok a ∧ f a = .ok b := by
  cases x with
  | error e => simp [bind, Except.bind]
  | ok a => simp [bind, Except.bind]

theorem mapError_eq_ok {ε ε' α : Type} {x : Except ε α} {f : ε → ε'} {a : α} :
    x.mapError f = .ok a ↔ x = .ok a := by
  cases x with
  | error e =>
    constructor
    · intro h
      cases h
    · intro h
      cases h
  | ok b =>
    constructor
    · intro h
      cases h
      rfl
    · intro h
      cases h
      rfl

theorem pure_eq_ok {ε α : Type} {a b : α} : (pure a : Except ε α) = .ok b ↔ a = b := by
  simp [pure, Except.pure]

namespace Context

/-- The context `b` arises from `a` when `n` tokens, or more, are taken from the file that is read.
-/
structure Reads (n : Nat) (a b : Context) : Prop where
  root : b.root = a.root
  files : ∃ s s' below, a.files = s :: below ∧ b.files = s' :: below ∧ TokenStream.After n s s'

namespace Reads

variable {m n : Nat} {a b c : Context}

theorem refl (h : a.files ≠ []) : Reads 0 a a := by
  obtain ⟨s, below, hs⟩ := List.exists_cons_of_ne_nil h
  exact ⟨rfl, s, s, below, hs, hs, .refl s⟩

theorem trans (h₁ : Reads m a b) (h₂ : Reads n b c) : Reads (m + n) a c := by
  obtain ⟨s, s', below, ha, hb, hs⟩ := h₁.files
  obtain ⟨t, t', below', hb', hc, ht⟩ := h₂.files
  rw [hb] at hb'
  cases hb'
  exact ⟨h₂.root.trans h₁.root, s, t', below, ha, hc, hs.trans ht⟩

theorem mono (h : Reads n a b) (hmn : m ≤ n) : Reads m a b := by
  obtain ⟨s, s', below, ha, hb, hs⟩ := h.files
  exact ⟨h.root, s, s', below, ha, hb, hs.mono hmn⟩

theorem congr (h : Reads n a b) (hroot : c.root = b.root) (hfiles : c.files = b.files) :
    Reads n a c :=
  ⟨hroot.trans h.root, hfiles ▸ h.files⟩

theorem ne_nil (h : Reads n a b) : b.files ≠ [] := by
  obtain ⟨s, s', below, -, hb, -⟩ := h.files
  simp [hb]

theorem ne_nil_left (h : Reads n a b) : a.files ≠ [] := by
  obtain ⟨s, s', below, ha, -, -⟩ := h.files
  simp [ha]

end Reads

@[simp]
theorem root_note (ctx : Context) (findings : List Finding) : (ctx.note findings).root = ctx.root :=
  rfl

@[simp]
theorem files_note (ctx : Context) (findings : List Finding) :
    (ctx.note findings).files = ctx.files :=
  rfl

@[simp]
theorem root_setSymbol (ctx : Context) (e : Entry) : (ctx.setSymbol e).root = ctx.root := by
  unfold setSymbol
  split <;> rfl

@[simp]
theorem files_setSymbol (ctx : Context) (e : Entry) : (ctx.setSymbol e).files = ctx.files := by
  unfold setSymbol
  split <;> rfl

@[simp]
theorem root_define (ctx : Context) (e : Entry) : (ctx.define e).root = ctx.root := by
  unfold define
  split
  · rfl
  · simp

@[simp]
theorem files_define (ctx : Context) (e : Entry) : (ctx.define e).files = ctx.files := by
  unfold define
  split
  · rfl
  · simp

theorem current_eq_ok {ctx : Context} {s : TokenStream} (h : ctx.current = .ok s) :
    ∃ below, ctx.files = s :: below := by
  unfold current at h
  split at h
  · cases h
  · rename_i below hfiles
    cases h
    exact ⟨below, hfiles⟩

theorem reads_setCurrent {ctx : Context} {s s' : TokenStream} {n : Nat}
    (h : ctx.current = .ok s) (ha : TokenStream.After n s s') :
    Reads n ctx (ctx.setCurrent s') := by
  obtain ⟨below, hfiles⟩ := current_eq_ok h
  exact ⟨rfl, s, s', below, hfiles, by simp [setCurrent, hfiles], ha⟩

/-- The number of tokens that the delivery of a token takes away. -/
def cost (token : Token) : Nat :=
  if token.lexeme = .fileEnd then 0 else 1

theorem next_reads {ctx ctx' : Context} {token : Token} (h : ctx.next = .ok (token, ctx')) :
    Reads (cost token) ctx ctx' := by
  obtain ⟨s, hs, h⟩ := bind_eq_ok.1 h
  obtain ⟨⟨token', s'⟩, hnext, h⟩ := bind_eq_ok.1 h
  cases pure_eq_ok.1 h
  exact reads_setCurrent hs (TokenStream.next_after hnext).1

theorem next_pushBack_reads {ctx ctx' ctx'' : Context} {token : Token}
    (h : ctx.next = .ok (token, ctx')) (hp : ctx'.pushBack = .ok ctx'') : Reads 0 ctx ctx'' := by
  obtain ⟨s, hs, h⟩ := bind_eq_ok.1 h
  obtain ⟨⟨token', s'⟩, hnext, h⟩ := bind_eq_ok.1 h
  cases pure_eq_ok.1 h
  obtain ⟨ha, hc, -⟩ := TokenStream.next_after hnext
  obtain ⟨t, ht, hp⟩ := bind_eq_ok.1 hp
  obtain ⟨t', hpush, hp⟩ := bind_eq_ok.1 hp
  cases pure_eq_ok.1 hp
  obtain ⟨below, hbelow⟩ := current_eq_ok hs
  simp only [setCurrent, hbelow, List.tail_cons, current] at ht
  cases ht
  obtain ⟨hfile, hsize⟩ := TokenStream.pushBack_after hpush hc
  refine ⟨rfl, s, t', below, hbelow, by simp [setCurrent, hbelow], hfile.trans ha.1, ?_⟩
  have := ha.2
  omega

/-- Reading part of the present line loads it and reads from the tokens that can be delivered. -/
theorem readLine_eq_ok {α : Type} {ctx ctx' : Context}
    {read : List Token → Except ReadFailure (Reading α)} {r : Reading α} :
    ctx.readLine read = .ok (r, ctx') ↔ ∃ s s', ctx.current = .ok s ∧ s.load = .ok s' ∧
      readDeliverable read s'.upcoming = .ok r ∧ ctx' = ctx.setCurrent (s'.stopAt r.stop) := by
  unfold readLine
  rw [bind_eq_ok]
  constructor
  · rintro ⟨s, hs, h⟩
    obtain ⟨s', hload, h⟩ := bind_eq_ok.1 h
    split at h
    · cases h
    · rename_i r' hr
      cases h
      exact ⟨s, s', hs, mapError_eq_ok.1 hload, hr, rfl⟩
  · rintro ⟨s, s', hs, hload, hr, rfl⟩
    refine ⟨s, hs, bind_eq_ok.2 ⟨s', mapError_eq_ok.2 hload, ?_⟩⟩
    rw [hr]

theorem readLine_reads {α : Type} {ctx ctx' : Context}
    {read : List Token → Except ReadFailure (Reading α)} {r : Reading α}
    (hread : ∀ tokens, LeavesSuffix (read tokens) tokens)
    (h : ctx.readLine read = .ok (r, ctx')) : Reads 0 ctx ctx' := by
  obtain ⟨s, s', hs, hload, hr, rfl⟩ := readLine_eq_ok.1 h
  obtain ⟨hfile, hsize⟩ := (TokenStream.load_after hload).1
  refine reads_setCurrent hs ⟨hfile, ?_⟩
  have hw := weight_le_of_suffix (readDeliverable_leaves hread _ _ hr)
  rw [TokenStream.size_stopAt]
  simp only [TokenStream.size] at hsize ⊢
  omega

theorem readHelp_after {s s' : TokenStream} {text : Option String}
    (h : Directive.readHelp s = .ok (text, s')) : TokenStream.After 0 s s' := by
  obtain ⟨s₁, h₁, h⟩ := bind_eq_ok.1 h
  have a₁ := TokenStream.discardLine_after h₁
  obtain ⟨⟨blanks, first, s₂⟩, h₂, h⟩ := bind_eq_ok.1 h
  have a₂ := a₁.trans (TokenStream.takeLines_after h₂)
  dsimp only at h
  split at h
  · cases pure_eq_ok.1 h
    exact a₂
  · split at h
    · cases pure_eq_ok.1 h
      exact a₂
    · obtain ⟨⟨lines, stop, s₃⟩, h₃, h⟩ := bind_eq_ok.1 h
      cases pure_eq_ok.1 h
      exact a₂.trans (TokenStream.takeLines_after h₃)

theorem readExtra_reads {ctx ctx' : Context}
    {read : List Token → Except ReadFailure (Reading Directive)} {e e' : Entry}
    (hread : ∀ tokens, LeavesSuffix (read tokens) tokens)
    (h : ctx.readExtra read e = .ok (e', ctx')) : Reads 0 ctx ctx' := by
  obtain ⟨start, -, h⟩ := bind_eq_ok.1 h
  obtain ⟨⟨r, ctx₁⟩, hline, h⟩ := bind_eq_ok.1 h
  obtain ⟨location, -, h⟩ := bind_eq_ok.1 h
  cases pure_eq_ok.1 h
  exact (readLine_reads hread hline).congr rfl rfl

theorem readDirective_reads {ctx ctx' : Context} {kind : DirectiveKind} {keyword : String}
    {e e' : Entry} (hne : ctx.files ≠ [])
    (h : ctx.readDirective kind keyword e = .ok (e', ctx')) : Reads 0 ctx ctx' := by
  unfold readDirective at h
  split at h
  · obtain ⟨location, -, h⟩ := bind_eq_ok.1 h
    cases h
  · split at h
    · cases h
      exact .refl hne
    · obtain ⟨start, -, h⟩ := bind_eq_ok.1 h
      obtain ⟨s, hs, h⟩ := bind_eq_ok.1 h
      obtain ⟨⟨text, s'⟩, hhelp, h⟩ := bind_eq_ok.1 h
      cases pure_eq_ok.1 h
      exact (reads_setCurrent hs (readHelp_after hhelp)).congr rfl rfl
    · exact readExtra_reads (Directive.read_leaves _ _) h

theorem skipLine_reads {ctx ctx' : Context} {text : String}
    (h : ctx.skipLine = .ok (text, ctx')) : Reads 0 ctx ctx' := by
  obtain ⟨⟨r, ctx₁⟩, hline, h⟩ := bind_eq_ok.1 h
  cases pure_eq_ok.1 h
  exact readLine_reads (readRest_leaves _) hline

theorem unrecognized_reads {ctx ctx' : Context} {kind : EntryKind} {first : String}
    (h : ctx.unrecognized kind first = .ok ctx') : Reads 0 ctx ctx' := by
  obtain ⟨⟨text, ctx₁⟩, hskip, h⟩ := bind_eq_ok.1 h
  dsimp only at h
  split at h
  · cases h
  · obtain ⟨location, -, h⟩ := bind_eq_ok.1 h
    cases pure_eq_ok.1 h
    exact (skipLine_reads hskip).congr rfl rfl

theorem readNoting_reads {α : Type} {ctx ctx' : Context}
    {read : List Token → Except ReadFailure (Reading α)} {a : α}
    (hread : ∀ tokens, LeavesSuffix (read tokens) tokens)
    (h : ctx.readNoting read = .ok (a, ctx')) : Reads 0 ctx ctx' := by
  obtain ⟨start, -, h⟩ := bind_eq_ok.1 h
  obtain ⟨⟨r, ctx₁⟩, hline, h⟩ := bind_eq_ok.1 h
  obtain ⟨location, -, h⟩ := bind_eq_ok.1 h
  cases pure_eq_ok.1 h
  exact (readLine_reads hread hline).congr rfl rfl

theorem readIf_reads {ctx ctx' : Context} (h : ctx.readIf = .ok ctx') : Reads 0 ctx ctx' := by
  obtain ⟨⟨condition, ctx₁⟩, hread, h⟩ := bind_eq_ok.1 h
  cases pure_eq_ok.1 h
  exact (readNoting_reads Condition.read_leaves hread).congr rfl rfl

theorem readEndif_reads {ctx ctx' : Context} (hne : ctx.files ≠ [])
    (h : ctx.readEndif = .ok ctx') : Reads 0 ctx ctx' := by
  unfold readEndif at h
  split at h
  · cases h
  · cases h
    exact (Reads.refl hne).congr rfl rfl

/-- The context `b` arises from `a` when a file that is not open is opened. -/
structure Opens (fs : FileSystem) (a b : Context) : Prop where
  root : b.root = a.root
  files : ∃ name bytes, fs.look (Path.join a.root name) = .file bytes ∧ a.isOpen name = false ∧
    b.files = { lines := LineReader.ofBytes name bytes } :: a.files

/-- What an inclusion directive does when its path has been read: the file is missing, and that is
noted, or it is not open, and is opened. -/
inductive Includes (fs : FileSystem) (kind : SourceKind) (start : Location) (a : Context) :
    Context → Prop where
  | missing (name path : Text.Loose) :
    Includes fs kind start a (a.note [kind.missing start name path])
  | opened (name : String) (bytes : List UInt8)
    (hlook : fs.look (Path.join a.root name) = .file bytes) (hopen : a.isOpen name = false) :
    Includes fs kind start a { a with
      files := { lines := LineReader.ofBytes name bytes } :: a.files
      visited := a.visited ++ [name] }

theorem includes_of_openTarget {fs : FileSystem} {ctx ctx' : Context} {kind : SourceKind}
    {start : Location} {target : Text.Loose} (h : ctx.openTarget fs kind start target = .ok ctx') :
    Includes fs kind start ctx ctx' := by
  unfold openTarget at h
  split at h
  · unfold openSource at h
    split at h
    · cases h
    · split at h
      · cases h
      · rename_i hopen
        split at h
        · cases h
          exact .missing _ _
        · simp only [openFile] at h
          split at h
          · rename_i bytes hlook
            cases h
            exact .opened _ bytes hlook (by simpa using hopen)
          all_goals cases h
  · unfold openLoose at h
    dsimp only at h
    split at h
    · cases h
    · split at h
      · cases h
      · split at h
        · cases h
        · split at h
          · cases h
            exact .missing _ _
          · cases h
            exact .missing _ _
          · cases h

theorem includes_of_readSource {fs : FileSystem} {ctx ctx' : Context} {kind : SourceKind}
    (h : ctx.readSource fs kind = .ok ctx') :
    ∃ start r mid, ctx.readLine kind.readPath = .ok (r, mid) ∧
      Includes fs kind start (mid.note (kind.extraFindings start r.value.2)) ctx' := by
  obtain ⟨start, -, h⟩ := bind_eq_ok.1 h
  obtain ⟨⟨r, mid⟩, hline, h⟩ := bind_eq_ok.1 h
  dsimp only at h
  obtain ⟨path, -, h⟩ := bind_eq_ok.1 h
  split at h
  · cases h
  · obtain ⟨s, -, h⟩ := bind_eq_ok.1 h
    exact ⟨start, r, mid, hline, includes_of_openTarget h⟩

/-- An inclusion directive takes tokens, and may open a file after that. -/
theorem readSource_reads {fs : FileSystem} {ctx ctx' : Context} {kind : SourceKind}
    (h : ctx.readSource fs kind = .ok ctx') :
    Reads 0 ctx ctx' ∨ ∃ mid, Reads 0 ctx mid ∧ Opens fs mid ctx' := by
  obtain ⟨start, r, mid, hline, hincludes⟩ := includes_of_readSource h
  have hreads := readLine_reads kind.readPath_leaves hline
  cases hincludes with
  | missing => exact .inl (hreads.congr rfl rfl)
  | opened name bytes hlook hopen =>
    exact .inr ⟨_, hreads.congr rfl rfl, rfl, name, bytes, hlook, hopen, rfl⟩

end Context

end Kconfig
