import Kconfig.Proofs.Effect
import Kconfig.Proofs.Outline
import Kconfig.Proofs.References
import Kconfig.Proofs.Requests

/-!
# Located faults

A request of the parser fails for one of these reasons: the text is wrong, and then the fault names
a line of the file that is read; a file cannot be opened or is no text; or a name in a path has a
value that is no text, which only the environment can bring in. The other faults do not occur. -/

namespace Kconfig

namespace Entry

def env? (e : Entry) : Option Json :=
  e.value?.bind (·.env)

/-- An entry has its value from the environment, if it has one. -/
def EnvFrom (environment : Environment) (e : Entry) : Prop :=
  ∀ value, e.env? = some value → ∃ name, environment.lookup name = some value

variable {environment : Environment} {a b : Entry}

lemma EnvFrom.congr (ha : a.EnvFrom environment) (h : b.env? = a.env?) : b.EnvFrom environment := by
  intro value hvalue
  rw [h] at hvalue
  exact ha value hvalue

lemma EnvFrom.of_none (h : a.env? = none) : a.EnvFrom environment := by
  intro value hvalue
  rw [h] at hvalue
  cases hvalue

lemma env?_setHead (head : Heading) (e : Entry) : (e.setHead head).env? = e.env? := by
  cases e <;> rfl

lemma env?_addChild (parent child : Entry) : (parent.addChild child).env? = parent.env? := by
  cases parent with
  | choice c => cases child <;> rfl
  | _ => rfl

lemma env?_finish (e : Entry) (scope : List Condition) : (e.finish scope).env? = e.env? := by
  rw [finish_eq]
  generalize e.outerConditions scope = conditions
  induction conditions generalizing e with
  | nil => rfl
  | cons condition conditions ih =>
    rw [List.foldl_cons, ih]
    exact env?_setHead _ e

end Entry

namespace Directive

lemma env?_apply {environment : Environment} (site : Site) (slips : List Slip) {d : Directive}
    (hd : ∀ name, d ≠ .env name) (e : Entry) :
    (apply environment site slips d e).1.env? = e.env? := by
  cases d with
  | env name => exact absurd rfl (hd name)
  | type t p => cases p <;> cases e <;> rfl
  | default t value => cases t <;> cases e <;> rfl
  | help text => cases text <;> cases e <;> rfl
  | _ => cases e <;> rfl

lemma envFrom_apply {environment : Environment} (site : Site) (slips : List Slip) (d : Directive)
    {e : Entry} (he : e.EnvFrom environment) :
    (apply environment site slips d e).1.EnvFrom environment := by
  by_cases hd : ∀ name, d ≠ .env name
  · exact he.congr (env?_apply site slips hd e)
  · simp only [not_forall, not_not] at hd
    obtain ⟨name, rfl⟩ := hd
    unfold apply
    dsimp only
    cases hlookup : environment.lookup name with
    | none => exact he
    | some value =>
      intro v hv
      cases e with
      | config c =>
        cases value <;> cases hv <;> exact ⟨name, hlookup⟩
      | choice c =>
        cases value <;> cases hv <;> exact ⟨name, hlookup⟩
      | comment c => cases hv
      | menu head visibleIf children => cases hv

end Directive

lemma mem_of_mem_setValue {key : String} {e : Entry} {symbols : List (String × Entry)}
    {p : String × Entry} (h : p ∈ setValue key e symbols) : p = (key, e) ∨ p ∈ symbols := by
  induction symbols with
  | nil => exact .inl (List.mem_singleton.1 h)
  | cons q symbols ih =>
    rw [setValue] at h
    split at h
    · rcases List.mem_cons.1 h with h | h
      · exact .inl h
      · exact .inr (List.mem_cons_of_mem _ h)
    · rcases List.mem_cons.1 h with h | h
      · exact .inr (h ▸ List.mem_cons_self)
      · rcases ih h with h | h
        · exact .inl h
        · exact .inr (List.mem_cons_of_mem _ h)

def TokenStream.Belongs (fs : FileSystem) (root : String) (s : TokenStream) : Prop :=
  ∃ bytes, fs.look (Path.join root s.file) = .file bytes ∧ s.Within (lineCount bytes)

namespace Context

def fileNames (ctx : Context) : List String :=
  ctx.files.map (·.file)

/-- Each open file is at one of its lines, the one that is read possibly in front of the first. -/
structure Sound (fs : FileSystem) (ctx : Context) : Prop where
  files : ∀ s ∈ ctx.files, s.Belongs fs ctx.root
  below : ∀ s ∈ ctx.files.tail, 0 < s.linenr
  nonempty : ctx.files ≠ []
  symbols : ∀ p ∈ ctx.symbols, p.2.EnvFrom ctx.environment

/-- Each open file is at one of its lines. -/
structure Ready (fs : FileSystem) (ctx : Context) : Prop extends Sound fs ctx where
  started : ∀ s ∈ ctx.files, 0 < s.linenr

/-- The context `b` is that of `a` after some reading in the same file. -/
structure Steady (fs : FileSystem) (a b : Context) : Prop where
  root : b.root = a.root
  environment : b.environment = a.environment
  names : b.fileNames = a.fileNames
  ready : b.Ready fs

/-- The faults that a request can have. Text that is wrong stands in a line of the file that is
read. -/
def Regular (fs : FileSystem) (ctx : Context) : Fault → Prop
  | .malformed (some location) _ => ctx.fileNames.head? = some location.file ∧ ∃ bytes,
      fs.look (Path.join ctx.root location.file) = .file bytes ∧
        1 ≤ location.linenr ∧ location.linenr ≤ lineCount bytes
  | .malformed none _ => False
  | .misuse _ => False
  | .missingFile _ _ => False
  | .missingRootFile _ _ => False
  | .notText => ¬∀ name value, ctx.environment.lookup name = some value → ∃ text, value = .str text
  | .isDirectory _ => False
  | .undecodable _ => True
  | .tooManyDigits digits => digitLimit < digits
  | .notDirectory _ => True
  | .invalidPath => True
  | .unencodable _ => True

variable {fs : FileSystem} {a b c ctx : Context}

lemma Ready.steady (h : a.Ready fs) : Steady fs a a :=
  ⟨rfl, rfl, rfl, h⟩

lemma Steady.trans (h₁ : Steady fs a b) (h₂ : Steady fs b c) : Steady fs a c :=
  ⟨h₂.root.trans h₁.root, h₂.environment.trans h₁.environment, h₂.names.trans h₁.names, h₂.ready⟩

lemma Steady.congr (h : Steady fs a b) (hroot : c.root = b.root)
    (henvironment : c.environment = b.environment) (hfiles : c.files = b.files)
    (hsymbols : c.symbols = b.symbols) : Steady fs a c := by
  refine ⟨hroot.trans h.root, henvironment.trans h.environment, ?_, ⟨⟨?_, ?_, ?_, ?_⟩, ?_⟩⟩
  · rw [fileNames, hfiles]
    exact h.names
  · rw [hfiles, hroot]
    exact h.ready.files
  · rw [hfiles]
    exact h.ready.below
  · rw [hfiles]
    exact h.ready.nonempty
  · rw [hsymbols, henvironment]
    exact h.ready.symbols
  · rw [hfiles]
    exact h.ready.started

lemma depth_eq_length (ctx : Context) : ctx.depth = ctx.fileNames.length := by
  rw [depth, fileNames, List.length_map]

lemma Steady.depth (h : Steady fs a b) : b.depth = a.depth := by
  rw [depth_eq_length, depth_eq_length, h.names]

lemma Regular.of_steady {fault : Fault} (h : Steady fs a b) (hf : Regular fs b fault) :
    Regular fs a fault := by
  unfold Regular at hf ⊢
  rw [h.root, h.names, h.environment] at hf
  exact hf

lemma Regular.of_unreadable {fault : Fault} (h : fault.Unreadable) : Regular fs a fault := by
  cases h with
  | undecodable error => exact True.intro
  | tooManyDigits h => exact h

lemma Ready.regular_malformed (h : a.Ready fs) (problem : Problem) :
    Regular fs a (a.malformed problem) := by
  obtain ⟨s, below, hfiles⟩ := List.exists_cons_of_ne_nil h.nonempty
  have hmem : s ∈ a.files := by
    rw [hfiles]
    exact List.mem_cons_self
  obtain ⟨bytes, hlook, hwithin⟩ := h.files s hmem
  have hlocation : a.location? = some s.location := by
    rw [location?, hfiles]
    rfl
  rw [malformed, hlocation]
  refine ⟨?_, bytes, hlook, h.started s hmem, hwithin.linenr_le⟩
  rw [fileNames, hfiles]
  rfl

lemma Sound.current (h : a.Sound fs) :
    ∃ s below bytes, a.files = s :: below ∧ a.current = .ok s ∧
      fs.look (Path.join a.root s.file) = .file bytes ∧ s.Within (lineCount bytes) := by
  obtain ⟨s, below, hfiles⟩ := List.exists_cons_of_ne_nil h.nonempty
  obtain ⟨bytes, hlook, hwithin⟩ := h.files s (by rw [hfiles]; exact List.mem_cons_self)
  refine ⟨s, below, bytes, hfiles, ?_, hlook, hwithin⟩
  rw [Context.current, hfiles]

lemma Sound.location (h : a.Sound fs) : ∃ location, a.location = .ok location := by
  obtain ⟨s, -, -, -, hcurrent, -⟩ := h.current
  exact ⟨s.location, by rw [Context.location, hcurrent]; rfl⟩

lemma Sound.setCurrent {s s' : TokenStream} {below : List TokenStream} {bytes : List UInt8}
    (h : a.Sound fs) (hfiles : a.files = s :: below)
    (hlook : fs.look (Path.join a.root s.file) = .file bytes)
    (hmoves : TokenStream.Moves (lineCount bytes) s s') :
    (a.setCurrent s').Sound fs ∧ (a.setCurrent s').fileNames = a.fileNames := by
  have hfiles' : (a.setCurrent s').files = s' :: below := by
    rw [Context.setCurrent, hfiles]
    rfl
  constructor
  · refine ⟨?_, ?_, ?_, h.symbols⟩
    · rw [hfiles']
      intro t ht
      rcases List.mem_cons.1 ht with rfl | ht
      · exact ⟨bytes, by rw [hmoves.file]; exact hlook, hmoves.within⟩
      · exact h.files t (by rw [hfiles]; exact List.mem_cons_of_mem _ ht)
    · have hbelow := h.below
      rw [hfiles] at hbelow
      rw [hfiles']
      exact hbelow
    · rw [hfiles']
      exact List.cons_ne_nil _ _
  · rw [fileNames, fileNames, hfiles', hfiles, List.map_cons, List.map_cons, hmoves.file]

lemma Sound.ready {s : TokenStream} {below : List TokenStream} (h : a.Sound fs)
    (hfiles : a.files = s :: below) (hs : 0 < s.linenr) : a.Ready fs := by
  refine ⟨h, ?_⟩
  intro t ht
  have hbelow := h.below
  rw [hfiles] at ht hbelow
  rcases List.mem_cons.1 ht with rfl | ht
  · exact hs
  · exact hbelow t ht

lemma Ready.steady_setCurrent {s s' : TokenStream} {below : List TokenStream} {bytes : List UInt8}
    (h : a.Ready fs) (hfiles : a.files = s :: below)
    (hlook : fs.look (Path.join a.root s.file) = .file bytes)
    (hmoves : TokenStream.Moves (lineCount bytes) s s') : Steady fs a (a.setCurrent s') := by
  obtain ⟨hsound, hnames⟩ := h.toSound.setCurrent hfiles hlook hmoves
  have hs : 0 < s.linenr := h.started s (by rw [hfiles]; exact List.mem_cons_self)
  exact ⟨rfl, rfl, hnames, hsound.ready rfl (hmoves.started hs)⟩

/-- A token has been delivered, and it can be put back. -/
structure Delivers (fs : FileSystem) (a : Context) (token : Token) (b : Context) : Prop where
  quiet : Quiet a b
  sound : b.Sound fs
  names : b.fileNames = a.fileNames
  ready : a.Ready fs ∨ token.lexeme ≠ .fileEnd → b.Ready fs
  back : ∃ c, b.pushBack = .ok c ∧ Quiet a c ∧ c.Sound fs ∧ c.fileNames = a.fileNames ∧
    (a.Ready fs → c.Ready fs)

lemma Delivers.steady {token : Token} (h : Delivers fs a token b) (hready : b.Ready fs) :
    Steady fs a b :=
  ⟨h.quiet.root, h.quiet.environment, h.names, hready⟩

lemma next_delivers (h : a.Sound fs) :
    Ensures Fault.Unreadable (fun r => Delivers fs a r.1 r.2) a.next := by
  obtain ⟨s, below, bytes, hfiles, hcurrent, hlook, hwithin⟩ := h.current
  refine Ensures.ok_bind hcurrent ((TokenStream.next_ensures hwithin).bind ?_)
  rintro ⟨token, t⟩ - ⟨hmoves, htoken, hpushed, hstarted, hcomplete⟩
  obtain ⟨hsound, hnames⟩ := h.setCurrent hfiles hlook hmoves
  have hready : a.Ready fs → 0 < s.linenr := by
    intro hready
    exact hready.started s (by rw [hfiles]; exact List.mem_cons_self)
  -- The context after the token has it as its current one, and so the push-back is not refused.
  obtain ⟨u, hpush, hback⟩ :=
    TokenStream.pushBack_ensures hmoves.within htoken hpushed hstarted hcomplete
  have hlook' : fs.look (Path.join a.root t.file) = .file bytes := by
    rw [hmoves.file]
    exact hlook
  obtain ⟨hsound', hnames'⟩ := hsound.setCurrent rfl hlook' hback
  refine ⟨.setCurrent a t, hsound, hnames, ?_, _, ?_, .setCurrent a u, hsound',
    hnames'.trans hnames, ?_⟩
  · rintro (hr | hend)
    · exact hsound.ready rfl (hmoves.started (hready hr))
    · exact hsound.ready rfl (hstarted hend)
  · change (t.pushBack >>= fun v => pure ((a.setCurrent t).setCurrent v)) = _
    rw [hpush]
    rfl
  · intro hr
    exact hsound'.ready rfl (hback.started (hmoves.started (hready hr)))

/-- A reader of lines: it takes tokens from the front of a line, and does not run out of them. -/
structure ReadsLines {α : Type} (read : List Token → Except ReadFailure (Reading α)) : Prop where
  leaves : ∀ tokens, LeavesSuffix (read tokens) tokens
  finishes : Finishes read

lemma readLine_steady {α : Type} {read : List Token → Except ReadFailure (Reading α)}
    (hread : ReadsLines read) (h : a.Ready fs) :
    Ensures (Regular fs a) (fun r => Steady fs a r.2) (a.readLine read) := by
  obtain ⟨s, below, bytes, hfiles, hcurrent, hlook, hwithin⟩ := h.toSound.current
  refine Ensures.ok_bind hcurrent
    (((TokenStream.load_ensures hwithin).mapError fun _ _ => True.intro).bind ?_)
  rintro t - ⟨hmoves, hne⟩
  have hsteady := h.steady_setCurrent hfiles hlook hmoves
  have hfinishes := readDeliverable_finishes hread.finishes (hmoves.within.complete hne)
  cases hr : readDeliverable read t.upcoming with
  | error failure =>
    rw [hr] at hfinishes
    cases failure with
    | problem problem => exact .of_steady hsteady (hsteady.ready.regular_malformed problem)
    | usedUp =>
      obtain ⟨digits, hdigits⟩ := hfinishes rfl
      obtain ⟨token, -, htoken⟩ := List.exists_of_findSome?_eq_some hdigits
      change digitLimit < (t.upcoming.findSome? (·.lexeme.excessDigits?)).getD 0
      rw [hdigits]
      exact Lexeme.lt_of_excessDigits? htoken
  | ok reading =>
    -- What the reader leaves is part of the line, so the number of the line stays.
    have hstop :=
      TokenStream.moves_stopAt hmoves.within (readDeliverable_leaves hread.leaves _ _ hr)
    exact h.steady_setCurrent hfiles hlook (hmoves.trans hstop)

lemma readExtra_steady {read : List Token → Except ReadFailure (Reading Directive)} {e : Entry}
    (hread : ReadsLines read) (h : a.Ready fs) :
    Ensures (Regular fs a) (fun r => Steady fs a r.2) (a.readExtra read e) := by
  obtain ⟨start, hstart⟩ := h.toSound.location
  refine Ensures.ok_bind hstart ((readLine_steady hread h).bind ?_)
  rintro ⟨r, b⟩ - hsteady
  obtain ⟨location, hlocation⟩ := hsteady.ready.toSound.location
  refine Ensures.ok_bind hlocation ?_
  exact hsteady.congr rfl rfl rfl rfl

lemma readDirective_steady {kind : DirectiveKind} {keyword : String} {e : Entry}
    (hfor : kind.isFor e.kind = true) (h : a.Ready fs) :
    Ensures (Regular fs a) (fun r => Steady fs a r.2) (a.readDirective kind keyword e) := by
  obtain ⟨start, hstart⟩ := h.toSound.location
  unfold readDirective
  rw [hfor, Bool.not_true, if_neg Bool.false_ne_true]
  split
  · exact h.steady
  · obtain ⟨s, below, bytes, hfiles, hcurrent, hlook, hwithin⟩ := h.toSound.current
    refine Ensures.ok_bind hstart (Ensures.ok_bind hcurrent
      (((TokenStream.readHelp_ensures hwithin).mono ?_ fun _ => id).bind ?_))
    · exact fun _ => .of_unreadable
    · rintro ⟨text, t⟩ - hmoves
      exact (h.steady_setCurrent hfiles hlook hmoves).congr rfl rfl rfl rfl
  · exact readExtra_steady ⟨Directive.read_leaves _ _, Directive.read_finishes _ _⟩ h

lemma unrecognized_steady (kind : EntryKind) (first : String) (h : a.Ready fs) :
    Ensures (Regular fs a) (Steady fs a) (a.unrecognized kind first) := by
  have hskip : Ensures (Regular fs a) (fun r => Steady fs a r.2) a.skipLine := by
    refine (readLine_steady ?_ h).bind fun _ _ hsteady => hsteady
    exact ⟨readRest_leaves _, readRest_finishes _⟩
  refine hskip.bind ?_
  rintro ⟨rest, b⟩ - hsteady
  obtain ⟨location, hlocation⟩ := hsteady.ready.toSound.location
  dsimp only
  split
  · exact .of_steady hsteady (hsteady.ready.regular_malformed _)
  · refine Ensures.ok_bind hlocation ?_
    exact hsteady.congr rfl rfl rfl rfl

lemma readNoting_steady {α : Type} {read : List Token → Except ReadFailure (Reading α)}
    (hread : ReadsLines read) (h : a.Ready fs) :
    Ensures (Regular fs a) (fun r => Steady fs a r.2) (a.readNoting read) := by
  obtain ⟨start, hstart⟩ := h.toSound.location
  refine Ensures.ok_bind hstart ((readLine_steady hread h).bind ?_)
  rintro ⟨r, b⟩ - hsteady
  obtain ⟨location, hlocation⟩ := hsteady.ready.toSound.location
  refine Ensures.ok_bind hlocation ?_
  exact hsteady.congr rfl rfl rfl rfl

lemma readIf_steady (h : a.Ready fs) : Ensures (Regular fs a) (Steady fs a) a.readIf := by
  refine (readNoting_steady ⟨Condition.read_leaves, Condition.read_finishes⟩ h).bind ?_
  rintro ⟨condition, b⟩ - hsteady
  exact hsteady.congr rfl rfl rfl rfl

lemma readEndif_steady (h : a.Ready fs) : Ensures (Regular fs a) (Steady fs a) a.readEndif := by
  unfold readEndif
  split
  · exact h.regular_malformed _
  · exact h.steady.congr rfl rfl rfl rfl

lemma checkBlockEnd_ensures (e : Entry) (keyword : String) (depth : Nat) (scope : List Condition)
    (h : a.Ready fs) :
    Ensures (Regular fs a) (fun _ => True) (a.checkBlockEnd e keyword depth scope) := by
  unfold checkBlockEnd
  split
  · exact h.regular_malformed _
  · split
    · exact h.regular_malformed _
    · split
      · exact h.regular_malformed _
      · exact True.intro

lemma Sound.setSymbol {e : Entry} (h : a.Sound fs) (he : e.EnvFrom a.environment) :
    (a.setSymbol e).Sound fs := by
  unfold Context.setSymbol
  split
  · exact h
  · refine ⟨h.files, h.below, h.nonempty, ?_⟩
    intro p hp
    rcases mem_of_mem_setValue hp with rfl | hp
    · exact he
    · exact h.symbols p hp

lemma Sound.define {e : Entry} (h : a.Sound fs) (he : e.EnvFrom a.environment) :
    (a.define e).Sound fs := by
  unfold Context.define
  split
  · exact h
  · exact Sound.setSymbol ⟨h.files, h.below, h.nonempty, h.symbols⟩ he

lemma Sound.symbolValue (h : a.Sound fs) {name : String} {value : Json}
    (hvalue : a.symbolValue name = some value) :
    ∃ key, a.environment.lookup key = some value := by
  unfold Context.symbolValue at hvalue
  split at hvalue
  · rename_i found hfound
    cases hvalue
    obtain ⟨henv, -⟩ := Option.filter_eq_some_iff.1 hfound
    obtain ⟨v, hv, henv⟩ := Option.bind_eq_some_iff.1 henv
    obtain ⟨e, he, hv⟩ := Option.bind_eq_some_iff.1 hv
    obtain ⟨before, after, hsymbols, -⟩ := List.lookup_eq_some_iff.1 he
    have hmem : (name, e) ∈ a.symbols := by
      rw [hsymbols]
      exact List.mem_append_right _ List.mem_cons_self
    refine h.symbols _ hmem value ?_
    rw [Entry.env?, hv]
    exact henv
  · exact ⟨name, hvalue⟩

lemma Sound.substitute (h : a.Sound fs) (text : String) :
    Ensures (Regular fs a) (fun _ => True) (a.substitute text) := by
  unfold Context.substitute
  split
  · exact True.intro
  · rename_i hnone
    intro htexts
    obtain ⟨name, value, -, hvalue, -, hfill⟩ := Reference.exists_of_substitute?_eq_none hnone
    obtain ⟨key, hkey⟩ := h.symbolValue hvalue
    obtain ⟨written, rfl⟩ := htexts key value hkey
    exact hfill written rfl

/-- The context `b` is that of `a` with one more file open, of which nothing has been read. -/
structure Enters (fs : FileSystem) (a b : Context) : Prop where
  root : b.root = a.root
  environment : b.environment = a.environment
  names : ∃ name, b.fileNames = name :: a.fileNames
  sound : b.Sound fs

lemma openFile_enters {name : String} {bytes : List UInt8}
    (hlook : fs.look (Path.join a.root name) = .file bytes) (h : a.Ready fs) :
    Ensures (Regular fs a) (Enters fs a) (a.openFile fs name) := by
  rw [openFile, hlook]
  refine ⟨rfl, rfl, ⟨name, rfl⟩, ⟨?_, h.started, List.cons_ne_nil _ _, h.symbols⟩⟩
  intro s hs
  rcases List.mem_cons.1 hs with rfl | hs
  · exact ⟨bytes, hlook, TokenStream.within_ofBytes name bytes⟩
  · exact h.files s hs

/-- A file that does not exist is passed over, so it does not end the run. -/
lemma openSource_ensures (kind : SourceKind) (start : Location) (target : String)
    (h : a.Ready fs) :
    Ensures (Regular fs a) (fun b => Steady fs a b ∨ Enters fs a b)
      (a.openSource fs kind start target) := by
  unfold openSource
  by_cases hdirectory : fs.isDirectory (Path.join a.root target) = true
  · rw [if_pos hdirectory]
    exact h.regular_malformed _
  · rw [if_neg hdirectory]
    split
    · exact h.regular_malformed _
    · cases hlook : fs.look (Path.join a.root target) with
      | file bytes =>
        have henters := openFile_enters hlook h
        rw [openFile, hlook] at henters ⊢
        exact .inr henters
      | missing =>
        rw [openFile, hlook]
        exact .inl (h.steady.congr rfl rfl rfl rfl)
      | directory =>
        rw [FileSystem.isDirectory, hlook] at hdirectory
        exact absurd rfl hdirectory
      | blocked =>
        rw [openFile, hlook]
        exact True.intro
      | invalid =>
        rw [openFile, hlook]
        exact True.intro

lemma openLoose_ensures (kind : SourceKind) (start : Location) (target : Text.Loose)
    (h : a.Ready fs) :
    Ensures (Regular fs a) (Steady fs a) (a.openLoose fs kind start target) := by
  unfold openLoose
  dsimp only
  split
  · exact h.regular_malformed _
  · split
    · exact True.intro
    · split
      · exact True.intro
      · split
        · exact h.steady.congr rfl rfl rfl rfl
        · exact h.steady.congr rfl rfl rfl rfl
        · exact True.intro

lemma Enters.of_steady (h₁ : Steady fs a b) (h₂ : Enters fs b c) : Enters fs a c := by
  obtain ⟨name, hnames⟩ := h₂.names
  refine ⟨h₂.root.trans h₁.root, h₂.environment.trans h₁.environment, ⟨name, ?_⟩, h₂.sound⟩
  rw [hnames, h₁.names]

/-- Reading goes on in the same file or at the beginning of another. -/
theorem readSource_ensures (kind : SourceKind) (h : a.Ready fs) :
    Ensures (Regular fs a) (fun b => Steady fs a b ∨ Enters fs a b) (a.readSource fs kind) := by
  obtain ⟨start, hstart⟩ := h.toSound.location
  refine Ensures.ok_bind hstart
    ((readLine_steady ⟨kind.readPath_leaves, kind.readPath_finishes⟩ h).bind ?_)
  rintro ⟨r, b⟩ - hsteady
  have hnoted : Steady fs a (b.note (kind.extraFindings start r.value.2)) :=
    hsteady.congr rfl rfl rfl rfl
  refine (((hnoted.ready.toSound).substitute r.value.1).mono ?_ fun _ => id).bind ?_
  · exact fun _ hfault => .of_steady hnoted hfault
  · rintro path - -
    split
    · exact .of_steady hnoted (hnoted.ready.regular_malformed _)
    · obtain ⟨s, -, -, -, hcurrent, -⟩ := hnoted.ready.toSound.current
      refine Ensures.ok_bind hcurrent ?_
      unfold openTarget
      split
      · refine (openSource_ensures kind start _ hnoted.ready).mono
          (fun _ hfault => .of_steady hnoted hfault) ?_
        rintro c (hc | hc)
        · exact .inl (hnoted.trans hc)
        · exact .inr (.of_steady hnoted hc)
      · exact (openLoose_ensures kind start _ hnoted.ready).mono
          (fun _ hfault => .of_steady hnoted hfault) fun _ hc => .inl (hnoted.trans hc)

end Context

end Kconfig
