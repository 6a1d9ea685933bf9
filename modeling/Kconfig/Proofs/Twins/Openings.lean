import Kconfig.Proofs.Twins.Requests

/-!
# Openings of twin contexts

Two runs that read files alongside each other open the same files, and frames that are equal apart
from locations. The second run may have fewer files open than the first one.
-/

namespace Kconfig

open Context

namespace Context.Twins

variable {F : List TokenStream → List TokenStream → Prop} {low low' : List TokenStream}
  {a b a' : Context} {g : Fork}

section Source

variable {fs fs' : FileSystem} {kind : SourceKind} {start start' : Location} {target : Text.Loose}

lemma symbolValue (h : Twins F a b) : b.symbolValue = a.symbolValue := by
  funext name
  have hlookup : ((b.symbols.lookup name).bind (·.value?)) =
      ((a.symbols.lookup name).bind (·.value?)) := by
    have hsame := congrArg (fun symbols => (symbols.lookup name).bind Entry.value?) h.symbols
    rw [lookup_unlocatedSymbols, lookup_unlocatedSymbols, Option.bind_map, Option.bind_map] at hsame
    simpa only [Function.comp_def, Entry.value?_unlocated] using hsame
  rw [Context.symbolValue, Context.symbolValue, hlookup, h.environment]

lemma substitute (h : Twins F a b) (text : String) : b.substitute text = a.substitute text := by
  rw [Context.substitute, Context.substitute, h.symbolValue]

lemma isOpen (h : Twins (Over g.Along low low') a b)
    (hnames : ∀ file ∈ g.file' :: low'.map TokenStream.file,
      file ∈ g.file :: low.map TokenStream.file)
    {name : String} (hopen : a.isOpen name = false) : b.isOpen name = false := by
  obtain ⟨s, t, hs, ht, hst⟩ := h.files
  have hfile : s.file = g.file := hst.file
  have hfile' : t.file = g.file' := hst.file'
  have hany : ∀ ctx : Context, ctx.isOpen name = (ctx.files.map (·.file)).any fun file =>
      Path.normalize file == Path.normalize name := by
    intro ctx
    rw [List.any_map]
    rfl
  rw [hany, List.any_eq_false] at hopen ⊢
  rw [hs, List.map_cons, hfile] at hopen
  rw [ht, List.map_cons, hfile']
  exact fun file hmem => hopen file (hnames file hmem)

lemma openSource {target : String} (h : Twins (Over g.Along low low') a b) (hfs : fs.Alike fs')
    (hnames : ∀ file ∈ g.file' :: low'.map TokenStream.file,
      file ∈ g.file :: low.map TokenStream.file)
    (hnew : ∀ name, a'.visited = a.visited ++ [name] →
      fs'.look (Path.join a.root name) = fs.look (Path.join a.root name))
    (hopen : a.openSource fs kind start target = .ok a') :
    ∃ b', b.openSource fs' kind start' target = .ok b' ∧
      Twins (fun x y => Over g.Along low low' x y ∨ Entered g.Along low low' x y) a' b' := by
  unfold Context.openSource at hopen ⊢
  rw [hfs.isDirectory, h.root]
  split at hopen
  · cases hopen
  · rename_i hdirectory
    rw [if_neg hdirectory]
    split at hopen
    · cases hopen
    · rename_i hclosed
      rw [h.isOpen hnames (Bool.not_eq_true _ ▸ hclosed), if_neg Bool.false_ne_true]
      unfold Context.openFile at hopen ⊢
      dsimp only at hopen ⊢
      rw [h.root]
      cases hlook : fs.look (Path.join a.root target) with
      | file bytes =>
        rw [hlook] at hopen
        cases hopen
        rw [(hnew target rfl).trans hlook]
        obtain ⟨s, t, hs, ht, hst⟩ := h.files
        refine ⟨_, rfl, ⟨rfl, h.environment, h.strict, h.scope, h.symbols, .inr ?_⟩⟩
        exact ⟨target, bytes, a.files, b.files, rfl, rfl, s, t, hs, ht, hst⟩
      | missing =>
        rw [hlook] at hopen
        cases hopen
        rw [hfs.look hlook fun _ => Target.noConfusion]
        exact ⟨_, rfl, (h.mono .inl).note _ _⟩
      | _ =>
        rw [hlook] at hopen
        cases hopen

lemma openLoose (h : Twins (Over g.Along low low') a b) (hfs : fs.Alike fs')
    (hnames : ∀ file ∈ g.file' :: low'.map TokenStream.file,
      file ∈ g.file :: low.map TokenStream.file)
    (hopen : a.openLoose fs kind start target = .ok a') :
    ∃ b', b.openLoose fs' kind start' target = .ok b' ∧ Twins (Over g.Along low low') a' b' := by
  unfold Context.openLoose at hopen ⊢
  dsimp only at hopen ⊢
  rw [h.root]
  split at hopen
  · cases hopen
  · rename_i hclosed
    rw [h.isOpen hnames (Bool.not_eq_true _ ▸ hclosed), if_neg Bool.false_ne_true]
    split at hopen
    · cases hopen
    · rename_i hencodable
      rw [if_neg hencodable]
      split at hopen
      · cases hopen
      · rename_i hnull
        rw [if_neg hnull]
        cases hlook : fs.look (Path.stem (Path.joinLoose a.root target)) with
        | directory =>
          rw [hlook] at hopen
          cases hopen
          rw [hfs.look hlook fun _ => Target.noConfusion]
          exact ⟨_, rfl, h.note _ _⟩
        | missing =>
          rw [hlook] at hopen
          cases hopen
          rw [hfs.look hlook fun _ => Target.noConfusion]
          exact ⟨_, rfl, h.note _ _⟩
        | _ =>
          rw [hlook] at hopen
          cases hopen

theorem readSource (h : Twins (Over g.Inside low low') a b) (hfs : fs.Alike fs')
    (hdirectory : Path.directory g.file' = Path.directory g.file)
    (hnames : ∀ file ∈ g.file' :: low'.map TokenStream.file,
      file ∈ g.file :: low.map TokenStream.file)
    (hnew : ∀ name, a'.visited = a.visited ++ [name] →
      fs'.look (Path.join a.root name) = fs.look (Path.join a.root name))
    (hsource : a.readSource fs kind = .ok a') :
    ∃ b', b.readSource fs' kind = .ok b' ∧
      Twins (fun x y => Over g.Along low low' x y ∨ Entered g.Along low low' x y) a' b' := by
  obtain ⟨start', hstart'⟩ := h.location
  obtain ⟨start, -, hsource⟩ := bind_eq_ok.1 hsource
  obtain ⟨⟨r, a₁⟩, hline, hsource⟩ := bind_eq_ok.1 hsource
  have hvisited := visited_readLine hline
  have hroot := (readLine_reads kind.readPath_leaves hline).root
  obtain ⟨r', b₁, hline', hvalue, hline⟩ :=
    h.readLine kind.readPath_blind kind.readPath_leaves hline
  have hnoted := hline.note (kind.extraFindings start r.value.2)
    (kind.extraFindings start' r'.value.2)
  obtain ⟨path, hpath, hsource⟩ := bind_eq_ok.1 hsource
  have hpath' := hnoted.substitute r.value.1
  rw [hpath, ← hvalue] at hpath'
  split at hsource
  · cases hsource
  · rename_i hblank
    obtain ⟨s, hs, hsource⟩ := bind_eq_ok.1 hsource
    obtain ⟨s₁, t, -, hs₁, ht, hst⟩ := hnoted.current
    rw [hs₁] at hs
    cases hs
    have htarget : kind.target t.file path = kind.target s.file path := by
      rw [SourceKind.target, SourceKind.target, show t.file = g.file' from hst.file',
        show s.file = g.file from hst.file, hdirectory]
    have hopens : ∃ b', Context.openTarget fs' (b₁.note (kind.extraFindings start' r'.value.2)) kind
        start' (kind.target t.file path) = .ok b' ∧
          Twins (fun x y => Over g.Along low low' x y ∨ Entered g.Along low low' x y) a' b' := by
      rw [htarget]
      unfold Context.openTarget at hsource ⊢
      split at hsource
      · refine hnoted.openSource hfs hnames ?_ hsource
        intro name hname
        rw [root_note, hroot]
        exact hnew name (hname.trans (congrArg (· ++ [name]) hvisited))
      · obtain ⟨b', hopen, htwins⟩ := hnoted.openLoose hfs hnames hsource
        exact ⟨b', hopen, htwins.mono .inl⟩
    obtain ⟨b', hopen, htwins⟩ := hopens
    refine ⟨b', bind_eq_ok.2 ⟨start', hstart', bind_eq_ok.2 ⟨_, hline', bind_eq_ok.2 ⟨path,
      hpath', ?_⟩⟩⟩, htwins⟩
    rw [if_neg hblank]
    exact bind_eq_ok.2 ⟨t, ht, hopen⟩

end Source

end Context.Twins

/-- The second run has no other files open than the first one, `k` less, and the files that are read
are in one directory. -/
structure Abreast (fs fs' : FileSystem) (g : Fork) (k : Nat) (low low' : List TokenStream) :
    Prop where
  proper : g.Proper
  alike : fs.Alike fs'
  directory : Path.directory g.file' = Path.directory g.file
  names : ∀ file ∈ g.file' :: low'.map TokenStream.file, file ∈ g.file :: low.map TokenStream.file
  length : low.length = low'.length + k

/-- The frames are equal apart from locations. Where the first run has `k` files more open, a frame
has begun with so many files less in the second run, but in one at least. -/
structure Frame.Twins (k : Nat) (f f' : Frame) : Prop where
  entry : f'.entry.unlocated = f.entry.unlocated
  scope : f'.scope = f.scope
  isTop : f'.isTop = f.isTop
  depth : f'.depth = max 1 (f.depth - k)

namespace Context

variable {R : View → View → Prop} {low low' : List TokenStream} {a b : Context} {g : Fork}
  {e e' : Entry} {k : Nat}

lemma checkBlockEnd_of_eq {keyword : String} {depth : Nat} {scope : List Condition}
    (hdepth : a.depth = depth) (hscope : a.scope = scope) :
    a.checkBlockEnd e keyword depth scope = .ok () := by
  rw [checkBlockEnd, if_neg (not_not.2 hdepth), if_neg (by rw [hscope]; exact Nat.lt_irrefl _),
    if_neg (not_not.2 hscope)]

namespace Twins

lemma frame (h : Twins (Over R low low') a b) (hlow : low.length = low'.length + k)
    (he : e'.unlocated = e.unlocated) (isTop : Bool) :
    Frame.Twins k ⟨e, a.scope, a.depth, isTop⟩ ⟨e', b.scope, b.depth, isTop⟩ := by
  obtain ⟨ha, hb⟩ := h.depth
  refine ⟨he, h.scope, rfl, ?_⟩
  dsimp only
  omega

lemma openConfig {isMenu : Bool} {opened : Frame × Context} (hg : g.Proper)
    (h : Twins (Over g.Inside low low') a b) (hlow : low.length = low'.length + k)
    (hopen : a.openFrame (.config isMenu) = .ok opened) :
    ∃ opened', b.openFrame (.config isMenu) = .ok opened' ∧ Frame.Twins k opened.1 opened'.1 ∧
      Twins (Over g.Meets low low') opened.2 opened'.2 := by
  obtain ⟨place', hplace'⟩ := h.location
  obtain ⟨place, -, hopen⟩ := bind_eq_ok.1 hopen
  obtain ⟨⟨token, a₁⟩, hnext, hopen⟩ := bind_eq_ok.1 hopen
  obtain ⟨token', b₁, hnext', hlexeme, hnext, -⟩ := h.next_inside hnext
  dsimp only at hopen
  split at hopen
  · cases hopen
  · rename_i symbol hsymbol
    cases pure_eq_ok.1 hopen
    have he : (Entry.config { head := ⟨place', some symbol, none, []⟩, isMenu }).unlocated =
        (Entry.config { head := ⟨place, some symbol, none, []⟩, isMenu }).unlocated := rfl
    refine ⟨(⟨_, b₁.scope, b₁.depth, false⟩, b₁.define _), bind_eq_ok.2 ⟨place', hplace',
      bind_eq_ok.2 ⟨_, hnext', ?_⟩⟩, hnext.frame hlow he false,
      (hnext.over_mono fun v w hvw => hvw.meets hg).define he⟩
    dsimp only
    rw [hlexeme, hsymbol]
    rfl

lemma openChoice {opened : Frame × Context} (hg : g.Proper)
    (h : Twins (Over g.Inside low low') a b) (hlow : low.length = low'.length + k)
    (hopen : a.openFrame .choice = .ok opened) :
    ∃ opened', b.openFrame .choice = .ok opened' ∧ Frame.Twins k opened.1 opened'.1 ∧
      Twins (Over g.Meets low low') opened.2 opened'.2 := by
  obtain ⟨place', hplace'⟩ := h.location
  obtain ⟨place, -, hopen⟩ := bind_eq_ok.1 hopen
  obtain ⟨⟨token, a₁⟩, hnext, hopen⟩ := bind_eq_ok.1 hopen
  obtain ⟨token', b₁, hnext', hlexeme, hnext, -, hback⟩ := h.next_inside hnext
  have he : (Entry.choice { head := ⟨place', token.lexeme.wordText?, none, []⟩ }).unlocated =
      (Entry.choice { head := ⟨place, token.lexeme.wordText?, none, []⟩ }).unlocated := rfl
  dsimp only at hopen
  split at hopen
  · rename_i hnone
    obtain ⟨a₂, hpush, hopen⟩ := bind_eq_ok.1 hopen
    cases pure_eq_ok.1 hopen
    obtain ⟨b₂, hpush', hback⟩ := hback a₂ hpush
    refine ⟨(⟨_, b₂.scope, b₂.depth, false⟩, b₂), bind_eq_ok.2 ⟨place', hplace',
      bind_eq_ok.2 ⟨_, hnext', ?_⟩⟩, hback.frame hlow he false,
      hback.over_mono fun v w hvw => Fork.Loaded.meets (.inl hvw)⟩
    dsimp only
    rw [hlexeme, if_pos hnone]
    exact bind_eq_ok.2 ⟨b₂, hpush', rfl⟩
  · rename_i hsome
    obtain ⟨a₂, hpure, hopen⟩ := bind_eq_ok.1 hopen
    cases pure_eq_ok.1 hpure
    cases pure_eq_ok.1 hopen
    refine ⟨(⟨_, b₁.scope, b₁.depth, false⟩, b₁), bind_eq_ok.2 ⟨place', hplace',
      bind_eq_ok.2 ⟨_, hnext', ?_⟩⟩, hnext.frame hlow he false,
      hnext.over_mono fun v w hvw => hvw.meets hg⟩
    dsimp only
    rw [hlexeme, if_neg hsome]
    rfl

theorem openFrame {opening : Opening} {opened : Frame × Context} (hg : g.Proper)
    (h : Twins (Over g.Inside low low') a b) (hlow : low.length = low'.length + k)
    (hopen : a.openFrame opening = .ok opened) :
    ∃ opened', b.openFrame opening = .ok opened' ∧ Frame.Twins k opened.1 opened'.1 ∧
      Twins (Over g.Meets low low') opened.2 opened'.2 := by
  obtain ⟨place', hplace'⟩ := h.location
  cases opening with
  | config isMenu => exact h.openConfig hg hlow hopen
  | choice => exact h.openChoice hg hlow hopen
  | comment =>
    obtain ⟨place, -, hopen⟩ := bind_eq_ok.1 hopen
    obtain ⟨result, hread, hopen⟩ := bind_eq_ok.1 hopen
    cases pure_eq_ok.1 hopen
    have he : (Entry.comment { head := { location := place' } }).unlocated =
        (Entry.comment { head := { location := place } }).unlocated := rfl
    obtain ⟨result', hread', he, hctx⟩ := h.readDirective hg he hread
    exact ⟨_, bind_eq_ok.2 ⟨place', hplace', bind_eq_ok.2 ⟨_, hread', rfl⟩⟩,
      hctx.frame hlow he false, hctx⟩
  | menu =>
    obtain ⟨place, -, hopen⟩ := bind_eq_ok.1 hopen
    obtain ⟨result, hread, hopen⟩ := bind_eq_ok.1 hopen
    cases pure_eq_ok.1 hopen
    have he : (Entry.menu { location := place' } none []).unlocated =
        (Entry.menu { location := place } none []).unlocated := rfl
    obtain ⟨result', hread', he, hctx⟩ := h.readDirective hg he hread
    exact ⟨_, bind_eq_ok.2 ⟨place', hplace', bind_eq_ok.2 ⟨_, hread', rfl⟩⟩,
      hctx.frame hlow he false, hctx⟩
  | top =>
    obtain ⟨s, t, -, -, ht, -⟩ := h.current
    obtain ⟨stream, -, hopen⟩ := bind_eq_ok.1 hopen
    cases pure_eq_ok.1 hopen
    have he : (Entry.menu { location := ⟨t.file, 1⟩ } none []).unlocated =
        (Entry.menu { location := ⟨stream.file, 1⟩ } none []).unlocated := rfl
    exact ⟨(⟨_, b.scope, b.depth, true⟩, b), bind_eq_ok.2 ⟨t, ht, rfl⟩, h.frame hlow he true,
      h.over_mono fun v w hvw => Fork.Loaded.meets (.inl hvw)⟩

end Twins

end Context

end Kconfig
