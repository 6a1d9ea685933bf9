import Kconfig.Proofs.Alongside
import Kconfig.Proofs.Motion
import Kconfig.Proofs.Unlocated

/-!
# Requests of twin contexts

Two runs that read files alongside each other do the same, apart from locations and findings. This
is shown here for each request that reads in the file on top of the stack.
-/

namespace Kconfig

open Context

/-- The files that are read have related views; those below them are given. -/
def Over (R : View → View → Prop) (low low' : List TokenStream)
    (files files' : List TokenStream) : Prop :=
  ∃ s t, files = s :: low ∧ files' = t :: low' ∧ R s.view t.view

/-- The same file has been opened in both runs, over files that are related. -/
def Entered (R : View → View → Prop) (low low' : List TokenStream)
    (files files' : List TokenStream) : Prop :=
  ∃ name bytes below below', files = { lines := LineReader.ofBytes name bytes } :: below ∧
    files' = { lines := LineReader.ofBytes name bytes } :: below' ∧ Over R low low' below below'

/-- Two file systems that differ in the contents of files alone. -/
def FileSystem.Alike (fs fs' : FileSystem) : Prop :=
  ∀ path, fs'.look path = fs.look path ∨
    ∃ bytes bytes', fs.look path = .file bytes ∧ fs'.look path = .file bytes'

namespace FileSystem.Alike

variable {fs fs' : FileSystem}

lemma look (h : fs.Alike fs') {path : String} {target : Target} (htarget : fs.look path = target)
    (hfile : ∀ bytes, target ≠ .file bytes) : fs'.look path = target := by
  rcases h path with h | ⟨bytes, bytes', h, -⟩
  · exact h.trans htarget
  · exact absurd (htarget.symm.trans h) (hfile bytes)

lemma isDirectory (h : fs.Alike fs') (path : String) :
    fs'.isDirectory path = fs.isDirectory path := by
  unfold FileSystem.isDirectory
  rcases h path with h | ⟨bytes, bytes', h, h'⟩
  · rw [h]
  · rw [h, h']
    rfl

end FileSystem.Alike

/-- The contexts are equal apart from locations, findings and the open files, which are related. -/
structure Context.Twins (F : List TokenStream → List TokenStream → Prop) (a b : Context) :
    Prop where
  root : b.root = a.root
  environment : b.environment = a.environment
  strict : b.strict = a.strict
  scope : b.scope = a.scope
  symbols : unlocatedSymbols b.symbols = unlocatedSymbols a.symbols
  files : F a.files b.files

namespace Context.Twins

variable {F G : List TokenStream → List TokenStream → Prop} {R P : View → View → Prop}
  {low low' : List TokenStream} {a b a' a'' : Context} {g : Fork} {token : Token} {e e' : Entry}

lemma mono (h : Twins F a b) (hFG : F a.files b.files → G a.files b.files) : Twins G a b :=
  { h with files := hFG h.files }

lemma over_mono (h : Twins (Over R low low') a b) (hRP : ∀ v w, R v w → P v w) :
    Twins (Over P low low') a b :=
  h.mono fun ⟨s, t, hs, ht, hst⟩ => ⟨s, t, hs, ht, hRP _ _ hst⟩

lemma note (h : Twins F a b) (findings findings' : List Finding) :
    Twins F (a.note findings) (b.note findings') :=
  ⟨h.root, h.environment, h.strict, h.scope, h.symbols, h.files⟩

lemma setSymbol (h : Twins F a b) (he : e'.unlocated = e.unlocated) :
    Twins F (a.setSymbol e) (b.setSymbol e') := by
  unfold Context.setSymbol
  rw [Entry.symbol_of_unlocated he]
  split
  · exact h
  · refine { h with symbols := ?_ }
    rw [unlocatedSymbols_setValue, unlocatedSymbols_setValue, h.symbols, he]

lemma define (h : Twins F a b) (he : e'.unlocated = e.unlocated) :
    Twins F (a.define e) (b.define e') := by
  unfold Context.define
  rw [Entry.symbol_of_unlocated he]
  split
  · exact h
  · refine setSymbol (note ?_ _ _) he
    exact ⟨h.root, h.environment, h.strict, h.scope, h.symbols, h.files⟩

lemma current (h : Twins (Over R low low') a b) : ∃ s t, a.files = s :: low ∧
    a.current = .ok s ∧ b.current = .ok t ∧ R s.view t.view := by
  obtain ⟨s, t, hs, ht, hst⟩ := h.files
  refine ⟨s, t, hs, ?_, ?_, hst⟩
  · rw [Context.current, hs]
  · rw [Context.current, ht]

lemma setCurrent (h : Twins (Over R low low') a b) {s t : TokenStream} (hst : P s.view t.view) :
    Twins (Over P low low') (a.setCurrent s) (b.setCurrent t) := by
  obtain ⟨s₀, t₀, hs, ht, -⟩ := h.files
  refine { h with files := ⟨s, t, ?_, ?_, hst⟩ }
  · rw [Context.setCurrent, hs, List.tail_cons]
  · rw [Context.setCurrent, ht, List.tail_cons]

lemma location (h : Twins (Over R low low') a b) : ∃ location, b.location = .ok location := by
  obtain ⟨s, t, -, -, ht, -⟩ := h.current
  exact ⟨t.location, by rw [Context.location, ht]; rfl⟩

lemma depth (h : Twins (Over R low low') a b) :
    a.depth = low.length + 1 ∧ b.depth = low'.length + 1 := by
  obtain ⟨s, t, hs, ht, -⟩ := h.files
  rw [Context.depth, Context.depth, hs, ht]
  exact ⟨List.length_cons, List.length_cons⟩

lemma register (h : Twins F a b) : e'.unlocated = e.unlocated →
    Twins F
      (match e with
        | .config _ => a.setSymbol e
        | .choice _ => a.define e
        | _ => a)
      (match e' with
        | .config _ => b.setSymbol e'
        | .choice _ => b.define e'
        | _ => b) := by
  intro he
  cases e with
  | config c =>
    cases e' with
    | config c' => exact h.setSymbol he
    | _ => cases he
  | choice c =>
    cases e' with
    | choice c' => exact h.define he
    | _ => cases he
  | comment c =>
    cases e' with
    | comment c' => exact h
    | _ => cases he
  | menu head visibleIf children =>
    cases e' with
    | menu head' visibleIf' children' => exact h
    | _ => cases he

lemma next (h : Twins (Over R low low') a b)
    (hR : ∀ v w v', R v w → v.load = some v' → ∃ w', w.load = some w' ∧ P v' w')
    (hP : ∀ v w, P v w → (∀ lexeme ∈ v.lexemes.head?, lexeme.excessDigits? = none) →
      ∀ lexeme ∈ w.lexemes.head?, lexeme.excessDigits? = none)
    (hnext : a.next = .ok (token, a')) :
    ∃ token' b', b.next = .ok (token', b') ∧
      Twins (Over (fun v w => P (v.push token.lexeme) (w.push token'.lexeme)) low low') a' b' ∧
        ∀ a'', a'.pushBack = .ok a'' →
          ∃ b'', b'.pushBack = .ok b'' ∧ Twins (Over P low low') a'' b'' := by
  obtain ⟨s, t, hs, -, ht, hst⟩ := h.current
  obtain ⟨s₀, s', below, hfiles, hnext, -, rfl⟩ := Context.next_eq_ok hnext
  rw [hs] at hfiles
  cases hfiles
  obtain ⟨w', hload, hvw⟩ := hR _ _ _ hst (TokenStream.view_of_next hnext)
  have hdigits : ∀ lexeme ∈ (s'.view.push token.lexeme).lexemes.head?,
      lexeme.excessDigits? = none := by
    obtain ⟨t₀, rest, -, -, hdigits, -⟩ := TokenStream.next_eq_ok.1 hnext
    rintro lexeme ⟨⟩
    exact hdigits
  obtain ⟨token', t', hnext', rfl⟩ := TokenStream.exists_next hload (hP _ _ hvw hdigits)
  have htwins : Twins (Over (fun v w => P (v.push token.lexeme) (w.push token'.lexeme)) low low')
      (a.setCurrent s') (b.setCurrent t') := h.setCurrent hvw
  refine ⟨token', b.setCurrent t', ?_, htwins, ?_⟩
  · exact bind_eq_ok.2 ⟨t, ht, bind_eq_ok.2 ⟨_, hnext', rfl⟩⟩
  · intro a'' hback
    obtain ⟨s'', hs'', hview⟩ := TokenStream.pushBack_of_next hnext
    obtain ⟨t'', ht'', hview'⟩ := TokenStream.pushBack_of_next hnext'
    rw [Context.pushBack] at hback
    obtain ⟨s₁, hcurrent, hback⟩ := bind_eq_ok.1 hback
    cases hcurrent
    rw [hs''] at hback
    cases hback
    refine ⟨(b.setCurrent t').setCurrent t'', ?_, ?_⟩
    · exact bind_eq_ok.2 ⟨t', rfl, bind_eq_ok.2 ⟨t'', ht'', rfl⟩⟩
    · exact htwins.setCurrent (by rw [hview, hview']; exact hvw)

lemma next_inside (h : Twins (Over g.Inside low low') a b) (hnext : a.next = .ok (token, a')) :
    ∃ token' b', b.next = .ok (token', b') ∧ token'.lexeme = token.lexeme ∧
      Twins (Over g.Along low low') a' b' ∧
        (token.lexeme.isEnd = false → Twins (Over g.Inside low low') a' b') ∧
          ∀ a'', a'.pushBack = .ok a'' →
            ∃ b'', b'.pushBack = .ok b'' ∧ Twins (Over g.Inside low low') a'' b'' := by
  obtain ⟨token', b', hnext', htwins, hback⟩ := h.next (P := g.Inside) (fun v w v' hvw hload => by
    rw [View.load_of_ne_nil hvw.nonempty] at hload
    cases hload
    exact ⟨w, View.load_of_ne_nil (hvw.lexemes ▸ hvw.nonempty), hvw⟩)
    (fun v w hvw hdigits => by rwa [hvw.lexemes]) hnext
  obtain ⟨s, t, -, -, -, hst⟩ := htwins.current
  have hlexeme : token'.lexeme = token.lexeme := (List.cons.inj hst.lexemes).1
  rw [hlexeme] at htwins
  refine ⟨token', b', hnext', hlexeme, ?_, ?_, hback⟩
  · exact htwins.over_mono fun v w hvw => hvw.of_push.1
  · exact fun hend => htwins.over_mono fun v w hvw => hvw.of_push.2.2 hend

section Lines

variable {α : Type} {read : List Token → Except ReadFailure (Reading α)} {r : Reading α}
  {kind : DirectiveKind} {keyword : String} {result : Entry × Context}

lemma readLine (h : Twins (Over g.Inside low low') a b) (hread : Blind read)
    (hleaves : ∀ tokens, LeavesSuffix (read tokens) tokens)
    (hline : a.readLine read = .ok (r, a')) :
    ∃ r' b', b.readLine read = .ok (r', b') ∧ r'.value = r.value ∧
      Twins (Over g.Along low low') a' b' := by
  obtain ⟨s, t, -, hs, ht, hst⟩ := h.current
  have hload := TokenStream.load_of_view hst.nonempty
  have hload' := TokenStream.load_of_view (s := t) (hst.lexemes ▸ hst.nonempty)
  obtain ⟨s₀, s₁, hs₀, hs₁, hr, rfl⟩ := readLine_eq_ok.1 hline
  cases hs.symm.trans hs₀
  cases hload.symm.trans hs₁
  obtain ⟨r', hr', hvalue, halong⟩ := TokenStream.stopAt_along hread hleaves hst.toAlong hr
  exact ⟨r', b.setCurrent (t.stopAt r'.stop), readLine_eq_ok.2 ⟨t, t, ht, hload', hr', rfl⟩, hvalue,
    h.setCurrent halong⟩

lemma apply_unlocated (environment : Environment) (site site' : Directive.Site)
    (slips slips' : List Slip) (d : Directive) (he : e'.unlocated = e.unlocated) :
    (Directive.apply environment site' slips' d e').1.unlocated =
      (Directive.apply environment site slips d e).1.unlocated := by
  rw [Directive.unlocated_apply environment site' site slips' slips d e', he,
    ← Directive.unlocated_apply environment site site slips slips d e]

lemma readExtra {read : List Token → Except ReadFailure (Reading Directive)} (hg : g.Proper)
    (h : Twins (Over g.Inside low low') a b) (he : e'.unlocated = e.unlocated)
    (hblind : Blind read) (hleaves : ∀ tokens, LeavesSuffix (read tokens) tokens)
    (hread : a.readExtra read e = .ok result) :
    ∃ result', b.readExtra read e' = .ok result' ∧
      result'.1.unlocated = result.1.unlocated ∧
        Twins (Over g.Meets low low') result.2 result'.2 := by
  obtain ⟨start', hstart'⟩ := h.location
  obtain ⟨start, -, hread⟩ := bind_eq_ok.1 hread
  obtain ⟨⟨r, a₁⟩, hline, hread⟩ := bind_eq_ok.1 hread
  obtain ⟨place, -, hread⟩ := bind_eq_ok.1 hread
  cases pure_eq_ok.1 hread
  obtain ⟨r', b₁, hline', hvalue, hline⟩ := h.readLine hblind hleaves hline
  obtain ⟨place', hplace'⟩ := hline.location
  refine ⟨_, bind_eq_ok.2 ⟨start', hstart', bind_eq_ok.2 ⟨_, hline',
    bind_eq_ok.2 ⟨place', hplace', rfl⟩⟩⟩, ?_, ?_⟩
  · rw [hvalue, hline.environment]
    exact apply_unlocated _ _ _ _ _ _ he
  · exact (hline.over_mono fun v w hvw => hvw.meets hg).note _ _

lemma readDirective (hg : g.Proper) (h : Twins (Over g.Inside low low') a b)
    (he : e'.unlocated = e.unlocated) (hread : a.readDirective kind keyword e = .ok result) :
    ∃ result', b.readDirective kind keyword e' = .ok result' ∧
      result'.1.unlocated = result.1.unlocated ∧
        Twins (Over g.Meets low low') result.2 result'.2 := by
  obtain ⟨start', hstart'⟩ := h.location
  have hmeets := h.over_mono fun v w hvw => (Fork.Loaded.meets (.inl hvw) : g.Meets v w)
  unfold Context.readDirective at hread ⊢
  rw [Entry.kind_of_unlocated he, h.environment]
  by_cases hfor : kind.isFor e.kind = true
  · have hvalid : ¬(!kind.isFor e.kind) = true := by simp [hfor]
    rw [if_neg hvalid] at hread ⊢
    split at hread
    · cases hread
      exact ⟨_, rfl, apply_unlocated _ _ _ _ _ _ he, hmeets⟩
    · obtain ⟨start, -, hread⟩ := bind_eq_ok.1 hread
      obtain ⟨s₀, hs₀, hread⟩ := bind_eq_ok.1 hread
      obtain ⟨⟨text, s'⟩, hhelp, hread⟩ := bind_eq_ok.1 hread
      cases pure_eq_ok.1 hread
      obtain ⟨s, t, -, hs, ht, hst⟩ := h.current
      rw [hs] at hs₀
      cases hs₀
      obtain ⟨t', hhelp', hst'⟩ := TokenStream.readHelp_along hg hst hhelp
      refine ⟨_, bind_eq_ok.2 ⟨start', hstart', bind_eq_ok.2 ⟨t, ht,
        bind_eq_ok.2 ⟨_, hhelp', rfl⟩⟩⟩, apply_unlocated _ _ _ _ _ _ he, ?_⟩
      exact (h.setCurrent hst').note _ _
    · exact h.readExtra hg he (Directive.read_blind _ _) (Directive.read_leaves _ _) hread
  · have hinvalid : (!kind.isFor e.kind) = true := by simp [hfor]
    rw [if_pos hinvalid] at hread
    obtain ⟨place, -, hread⟩ := bind_eq_ok.1 hread
    cases hread

lemma unrecognized {kind : EntryKind} {first : String} (h : Twins (Over g.Inside low low') a b)
    (hskip : a.unrecognized kind first = .ok a') :
    ∃ b', b.unrecognized kind first = .ok b' ∧ Twins (Over g.Along low low') a' b' := by
  obtain ⟨⟨text, a₁⟩, hline, hskip⟩ := bind_eq_ok.1 hskip
  obtain ⟨⟨r, a₂⟩, hline, hvalue⟩ := bind_eq_ok.1 hline
  cases pure_eq_ok.1 hvalue
  obtain ⟨r', b₁, hline', hvalue, hline⟩ :=
    h.readLine (readRest_blind _) (readRest_leaves _) hline
  obtain ⟨place', hplace'⟩ := hline.location
  dsimp only at hskip
  split at hskip
  · cases hskip
  · rename_i hstrict
    obtain ⟨place, -, hskip⟩ := bind_eq_ok.1 hskip
    cases pure_eq_ok.1 hskip
    refine ⟨b₁.note [.textSkipped place' (first ++ " " ++ r'.value).trimBlanks],
      bind_eq_ok.2 ⟨(r'.value, b₁), bind_eq_ok.2 ⟨_, hline', rfl⟩, ?_⟩, hline.note _ _⟩
    dsimp only
    rw [hline.strict, if_neg hstrict]
    exact bind_eq_ok.2 ⟨place', hplace', rfl⟩

lemma readIf (h : Twins (Over g.Inside low low') a b) (hif : a.readIf = .ok a') :
    ∃ b', b.readIf = .ok b' ∧ Twins (Over g.Along low low') a' b' := by
  obtain ⟨start', hstart'⟩ := h.location
  obtain ⟨⟨condition, a₁⟩, hread, hscope⟩ := bind_eq_ok.1 hif
  cases pure_eq_ok.1 hscope
  obtain ⟨start, -, hstart⟩ := bind_eq_ok.1 hread
  obtain ⟨⟨r, a₂⟩, hline, hplace⟩ := bind_eq_ok.1 hstart
  obtain ⟨place, -, hnoted⟩ := bind_eq_ok.1 hplace
  cases pure_eq_ok.1 hnoted
  obtain ⟨r', b₁, hline', hvalue, hline⟩ :=
    h.readLine Condition.read_blind Condition.read_leaves hline
  obtain ⟨place', hplace'⟩ := hline.location
  have hnoted := hline.note
    (Directive.slipFindings ⟨start, place⟩ r.slips)
    (Directive.slipFindings ⟨start', place'⟩ r'.slips)
  refine ⟨_, bind_eq_ok.2 ⟨_, bind_eq_ok.2 ⟨start', hstart', bind_eq_ok.2 ⟨_, hline',
    bind_eq_ok.2 ⟨place', hplace', rfl⟩⟩⟩, rfl⟩, { hnoted with scope := ?_ }⟩
  dsimp only
  rw [hnoted.scope, hvalue]

lemma readEndif (h : Twins F a b) (hread : a.readEndif = .ok a') :
    ∃ b', b.readEndif = .ok b' ∧ Twins F a' b' := by
  unfold Context.readEndif at hread ⊢
  rw [h.scope]
  split at hread
  · cases hread
  · cases hread
    exact ⟨_, rfl, { h with scope := rfl }⟩

end Lines

end Context.Twins

end Kconfig
