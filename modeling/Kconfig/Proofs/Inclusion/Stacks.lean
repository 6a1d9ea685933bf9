import Kconfig.Proofs.References
import Kconfig.Proofs.Restoration
import Kconfig.Proofs.Snapshots
import Kconfig.Proofs.Twins

/-!
# The files of an inclusion

Where the lines of a file have been put in the place of the line that includes it, the top-level
files of the two runs part three times: the one includes what the other has in front of it, the one
ends the included file where the other goes on, and both go on with what follows. A directive that
opens another file puts it on the stacks of both.
-/

namespace Kconfig

open Context

def sourceLine (name : String) : List Char :=
  "source".toList ++ ' ' :: ('"' :: name.toList ++ ['"'])

lemma scan_sourceLine {name : String} (hquote : '"' ∉ name.toList) :
    Lexeme.scan (sourceLine name) = [.word "source", .quoted '"' name, .lineEnd] := by
  have hletters : ∀ c ∈ "source".toList, isWordLetter c = true := by decide
  have hends : EndsWord (' ' :: ('"' :: name.toList ++ ['"'])) := by
    intro c hc
    cases hc
    decide
  unfold sourceLine
  rw [Lexeme.scan_word (by decide) hletters hends, Lexeme.scan_separator (by decide),
    Lexeme.scan_closed (by decide) hquote, Lexeme.scan_nil, String.ofList_toList]
  rfl

lemma leads_sourceLine (name : String) : Line.Leads (sourceLine name) := by
  refine ⟨"source", _, rfl, ?_, by decide⟩
  intro c hc
  cases hc
  decide

lemma Line.plain_of_tight {line : List Char} {c : Char} (hhash : '#' ∉ line ++ [c])
    (hc : Text.isBlank c = false) : Plain (line ++ [c]) := by
  have hbefore : beforeComment (line ++ [c]) = line ++ [c] := by
    refine List.takeWhile_eq_self_iff.2 fun d hd => decide_eq_true ?_
    rintro rfl
    exact hhash hd
  refine .inl ?_
  rw [raw, hbefore, Text.trimRight, List.reverse_concat, List.dropWhile_cons_of_neg (by simp [hc]),
    List.reverse_cons, List.reverse_reverse]

lemma plain_sourceLine {name : String} (hhash : '#' ∉ name.toList) :
    Line.Plain (sourceLine name) := by
  have hword : '#' ∉ "source".toList := by decide
  have hline : sourceLine name = ("source".toList ++ ' ' :: '"' :: name.toList) ++ ['"'] :=
    (List.append_assoc _ (' ' :: '"' :: name.toList) _).symm
  rw [hline]
  refine Line.plain_of_tight ?_ (by decide)
  simp only [List.mem_append, List.mem_cons, hword, hhash]
  decide

lemma Context.openFile_of_file {fs : FileSystem} (ctx : Context) {name : String}
    {bytes : List UInt8} (h : fs.look (Path.join ctx.root name) = .file bytes) :
    ctx.openFile fs name = .ok { ctx with
      files := { lines := LineReader.ofBytes name bytes } :: ctx.files
      visited := ctx.visited ++ [name] } := by
  rw [openFile, h]

lemma Context.readSource_opens {fs : FileSystem} {ctx ctx' : Context} {s : TokenStream}
    {low : List TokenStream} {name : String} {bytes : List UInt8} (hfiles : ctx.files = s :: low)
    (hlexemes : s.view.lexemes = [.quoted '"' name, .lineEnd]) (hdollar : '$' ∉ name.toList)
    (hlook : fs.look (Path.join ctx.root name) = .file bytes)
    (h : ctx.readSource fs {} = .ok ctx') :
    ∃ report u, ctx' = { ctx with
        report
        files := { lines := LineReader.ofBytes name bytes } :: u :: low
        visited := ctx.visited ++ [name] } ∧
      u.view = { s.view with lexemes := [.lineEnd] } := by
  have hcurrent : ctx.current = .ok s := by rw [current, hfiles]
  have hload : s.load = .ok s := TokenStream.load_of_view (hlexemes ▸ List.cons_ne_nil _ _)
  obtain ⟨n, m, hupcoming⟩ : ∃ n m, s.upcoming = [⟨.quoted '"' name, n⟩, ⟨.lineEnd, m⟩] := by
    obtain ⟨⟨quoted, n⟩, rest, hupcoming, rfl, hrest⟩ := List.map_eq_cons_iff.1 hlexemes
    obtain ⟨⟨lexeme, m⟩, rfl, rfl⟩ := List.map_eq_singleton_iff.1 hrest
    exact ⟨n, m, hupcoming⟩
  obtain ⟨start, -, h⟩ := bind_eq_ok.1 h
  obtain ⟨⟨r, ctx₁⟩, hline, h⟩ := bind_eq_ok.1 h
  obtain ⟨s₀, hs₀, hline⟩ := bind_eq_ok.1 hline
  obtain ⟨s₁, hs₁, hline⟩ := bind_eq_ok.1 hline
  rw [hcurrent] at hs₀
  cases hs₀
  rw [mapError_eq_ok, hload] at hs₁
  cases hs₁
  rw [hupcoming] at hline
  cases hline
  obtain ⟨path, hpath, h⟩ := bind_eq_ok.1 h
  rw [substitute, Reference.substitute?_of_not_mem hdollar] at hpath
  cases hpath
  split at h
  · cases h
  · obtain ⟨s₂, -, h⟩ := bind_eq_ok.1 h
    rw [SourceKind.target, if_neg Bool.false_ne_true, openTarget, Text.Loose.whole?_ofString] at h
    dsimp only at h
    unfold openSource at h
    split at h
    · cases h
    · split at h
      · cases h
      · rw [openFile_of_file ((ctx.setCurrent _).note _) hlook] at h
        cases h
        refine ⟨(ctx.note (SourceKind.extraFindings {} start [])).report,
          s.stopAt { token := ⟨.lineEnd, m⟩, rest := [] }, ?_, TokenStream.view_stopAt _ _⟩
        rw [note, setCurrent, hfiles, List.tail_cons]
        rfl

/-- The texts of the lines of a file. -/
def lineTexts (bytes : List UInt8) : List (List Char) :=
  (Line.ofBytes bytes).1.map (·.text)

/-- The second file system differs from the first one in the top-level file alone: a line that
includes a file has been replaced there by the lines of that file. -/
structure Inlining (fs fs' : FileSystem) (settings : Settings) where
  /-- The name of the included file. -/
  name : String
  /-- The lines in front of the one that includes the file. -/
  before : List (List Char)
  /-- The first line of the included file, and the others. -/
  first : List Char
  rest : List (List Char)
  /-- The lines behind the one that includes the file. -/
  after : List (List Char)
  outer : List UInt8
  inner : List UInt8
  inlined : List UInt8
  look_outer : fs.look (Path.join settings.root settings.file) = .file outer
  look_inner : fs.look (Path.join settings.root name) = .file inner
  look_inlined : fs'.look (Path.join settings.root settings.file) = .file inlined
  look : ∀ path, fs'.look path = fs.look path ∨
    (fs.look path = .file outer ∧ fs'.look path = .file inlined)
  texts_outer : lineTexts outer = before ++ sourceLine name :: after
  texts_inner : lineTexts inner = first :: rest
  texts_inlined : lineTexts inlined = before ++ (first :: rest) ++ after
  whole : (Line.ofBytes inlined).2 = none
  directory : Path.directory name = Path.directory settings.file
  plain_name : ∀ c ∈ name.toList, isQuote c = false ∧ c ≠ '#' ∧ c ≠ '$'
  first_leads : Line.Leads first
  after_leads : ∀ line ∈ after.head?, Line.Leads line

namespace Inlining

variable {fs fs' : FileSystem} {settings : Settings} (i : Inlining fs fs' settings)

/-- The lines in front of which a help text may end have the tokens of their raw forms. -/
structure Plain : Prop where
  first : Line.Plain i.first
  after : ∀ line ∈ i.after.head?, Line.Plain line

def damage : Option Damage :=
  (Line.ofBytes i.outer).2

/-- The top-level files, which part where the inclusion stands. -/
def opening : Fork where
  file := settings.file
  file' := settings.file
  left := sourceLine i.name :: i.after
  right := (i.first :: i.rest) ++ i.after
  damage := i.damage
  damage' := none

/-- The included file, and the top-level file that has its lines. -/
def inside : Fork where
  file := i.name
  file' := settings.file
  left := []
  right := i.after
  damage := (Line.ofBytes i.inner).2
  damage' := none

/-- The top-level files behind the inclusion. -/
def behind : Fork where
  file := settings.file
  file' := settings.file
  left := []
  right := []
  damage := i.damage
  damage' := none

/-- A file that is the same in both runs. -/
def same (file : String) (damage : Option Damage) : Fork where
  file := file
  file' := file
  left := []
  right := []
  damage := damage
  damage' := damage

/-- The top-level file of the first run after the file has been included. -/
def resumed : View where
  file := settings.file
  lexemes := [.lineEnd]
  texts := i.after
  damage := i.damage

/-- The open files of the two runs. The first one has `k` files more open. -/
inductive Stacks : Nat → List TokenStream → List TokenStream → Prop where
  | opening {s t : TokenStream} (h : i.opening.Meets s.view t.view) : Stacks 0 [s] [t]
  | inside {s u t : TokenStream} (h : i.inside.Meets s.view t.view) (hu : u.view = i.resumed) :
    Stacks 1 [s, u] [t]
  | between {u t : TokenStream} (hu : u.view = i.resumed)
    (ht : t.view.load = some ⟨settings.file, firstLexemes i.after, i.after.tail, none⟩) :
    Stacks 0 [u] [t]
  | behind {s t : TokenStream} (h : i.behind.Meets s.view t.view) : Stacks 0 [s] [t]
  | above {k : Nat} {s t : TokenStream} {low low' : List TokenStream} {file : String}
    {damage : Option Damage} (h : (same file damage).Meets s.view t.view)
    (below : Stacks k low low') : Stacks k (s :: low) (t :: low')

variable {i} {k : Nat} {s s' t : TokenStream} {files files' low low' : List TokenStream}

lemma Plain.opening_proper (hplain : i.Plain) : i.opening.Proper where
  left := by
    intro line hline
    cases hline
    exact ⟨leads_sourceLine _, plain_sourceLine fun hmem => (i.plain_name _ hmem).2.1 rfl⟩
  right := by
    intro line hline
    cases hline
    exact ⟨i.first_leads, hplain.first⟩
  longer := fun h => nomatch h
  damage := fun _ => rfl

lemma Plain.inside_proper (hplain : i.Plain) : i.inside.Proper where
  left := fun _ hline => nomatch hline
  right := fun line hline => ⟨i.after_leads line hline, hplain.after line hline⟩
  longer := fun _ => rfl
  damage := fun _ => rfl

lemma behind_proper : i.behind.Proper where
  left := fun _ hline => nomatch hline
  right := fun _ hline => nomatch hline
  longer := fun _ => rfl
  damage := fun _ => rfl

lemma same_proper (file : String) (damage : Option Damage) : (same file damage).Proper where
  left := fun _ hline => nomatch hline
  right := fun _ hline => nomatch hline
  longer := fun _ => rfl
  damage := id

lemma view_opened (file : String) (bytes : List UInt8) :
    TokenStream.view { lines := LineReader.ofBytes file bytes } =
      ⟨file, [], lineTexts bytes, (Line.ofBytes bytes).2⟩ :=
  rfl

lemma meets_opened (file : String) (bytes : List UInt8) :
    (same file (Line.ofBytes bytes).2).Meets
      (TokenStream.view { lines := LineReader.ofBytes file bytes })
      (TokenStream.view { lines := LineReader.ofBytes file bytes }) := by
  refine Fork.Along.meets (same_proper _ _) ⟨⟨rfl, rfl, rfl, rfl⟩, rfl, .inl rfl, ?_⟩
  exact ⟨lineTexts bytes, (List.append_nil _).symm, (List.append_nil _).symm⟩

namespace Stacks

lemma length (h : i.Stacks k files files') : files.length = files'.length + k := by
  induction h with
  | above h below ih =>
    rw [List.length_cons, List.length_cons, ih]
    omega
  | _ => rfl

lemma ne_nil (h : i.Stacks k files files') : files' ≠ [] := by
  cases h <;> exact List.cons_ne_nil _ _

lemma names (h : i.Stacks k files files') :
    ∀ file ∈ files'.map TokenStream.file, file ∈ files.map TokenStream.file := by
  induction h with
  | @opening s t h =>
    have hs : s.file = settings.file := h.file
    have ht : t.file = settings.file := h.file'
    simp [hs, ht]
  | @inside s u t h hu =>
    have hu : u.file = settings.file := congrArg View.file hu
    have ht : t.file = settings.file := h.file'
    simp [hu, ht]
  | @between u t hu ht =>
    have hu : u.file = settings.file := congrArg View.file hu
    have ht : settings.file = t.file := View.file_of_load ht
    simp [hu, ← ht]
  | @behind s t h =>
    have hs : s.file = settings.file := h.file
    have ht : t.file = settings.file := h.file'
    simp [hs, ht]
  | @above k s t low low' file damage h below ih =>
    have hs : s.file = file := h.file
    have ht : t.file = file := h.file'
    simp only [List.map_cons, hs, ht, List.forall_mem_cons]
    exact ⟨List.mem_cons_self, fun name hname => List.mem_cons_of_mem _ (ih name hname)⟩

lemma of_ahead {g : Fork} (h : ∀ {s t : TokenStream}, g.Meets s.view t.view →
      i.Stacks k (s :: low) (t :: low')) (hahead : Ahead g low low' files files') :
    i.Stacks k files files' := by
  rcases hahead with ⟨s, t, rfl, rfl, hst⟩ |
    ⟨name, bytes, below, below', rfl, rfl, s, t, rfl, rfl, hst⟩
  · exact h hst
  · exact .above (meets_opened name bytes) (h hst)

end Stacks

lemma alike (i : Inlining fs fs' settings) : fs.Alike fs' := by
  intro path
  rcases i.look path with h | ⟨h, h'⟩
  · exact .inl h
  · exact .inr ⟨_, _, h, h'⟩

lemma Plain.abreast_opening (hplain : i.Plain) : Abreast fs fs' i.opening 0 [] [] where
  proper := hplain.opening_proper
  alike := i.alike
  directory := rfl
  names := fun _ => id
  length := rfl

lemma Plain.abreast_inside {u : TokenStream} (hplain : i.Plain) (hu : u.view = i.resumed) :
    Abreast fs fs' i.inside 1 [u] [] where
  proper := hplain.inside_proper
  alike := i.alike
  directory := i.directory.symm
  names := by
    have hu : u.file = settings.file := congrArg View.file hu
    intro file hfile
    simp [hu, List.mem_singleton.1 hfile, inside]
  length := rfl

lemma abreast_behind (i : Inlining fs fs' settings) : Abreast fs fs' i.behind 0 [] [] where
  proper := behind_proper
  alike := i.alike
  directory := rfl
  names := fun _ => id
  length := rfl

lemma abreast_over (h : i.Stacks k low low') (file : String) (damage : Option Damage) :
    Abreast fs fs' (same file damage) k low low' where
  proper := same_proper file damage
  alike := i.alike
  directory := rfl
  names := by
    refine List.forall_mem_cons.2 ⟨List.mem_cons_self, fun name hname => ?_⟩
    exact List.mem_cons_of_mem _ (h.names name hname)
  length := h.length

end Inlining

end Kconfig
