import Kconfig.Proofs.Agreement.Streams
import Kconfig.Proofs.Steps

/-!
# Requests of runs that agree

Two runs over similar lines do the same, request by request. `Leeway` says what the runs may differ
in all the same: their reports, the files they have opened, and what the second one does where the
first one fails. How they open further files is left to those who compare them.
-/

namespace Kconfig

/-- What two runs with the same root may differ in. -/
structure Leeway where
  root : String
  /-- Nothing is asked of the second run where the first one fails. -/
  lax : Prop
  report : Report → Report → Prop
  visited : List String → List String → Prop
  add : ∀ {a b : Report} (finding : Finding), report a b → report (a.add finding) (b.add finding)

/-- The runs may not differ in anything. -/
def Leeway.none (root : String) : Leeway where
  root
  lax := False
  report := Eq
  visited := Eq
  add := fun _ h => congrArg (Report.add · _) h

namespace Context

/-- Two contexts are equal up to a leeway and read similar lines. -/
structure Agrees (w : Leeway) (a b : Context) : Prop where
  root : a.root = w.root
  root' : b.root = w.root
  environment : b.environment = a.environment
  strict : b.strict = a.strict
  report : w.report a.report b.report
  files : List.Forall₂ TokenStream.Similar a.files b.files
  visited : w.visited a.visited b.visited
  scope : b.scope = a.scope
  symbols : b.symbols = a.symbols
  definitions : b.definitions = a.definitions

/-- Equal values with contexts that agree. -/
def AgreesWith {α : Type} (w : Leeway) (x y : α × Context) : Prop :=
  y.1 = x.1 ∧ x.2.Agrees w y.2

end Context

lemma Agree.bind_with {α β γ : Type} {lax : Prop} {w : Leeway} {S : β → γ → Prop}
    {x y : Except Fault (α × Context)} {f : α × Context → Except Fault β}
    {g : α × Context → Except Fault γ} (h : Agree lax (Context.AgreesWith w) x y)
    (hfg : ∀ v a b, a.Agrees w b → Agree lax S (f (v, a)) (g (v, b))) :
    Agree lax S (x >>= f) (y >>= g) := by
  refine h.bind ?_
  rintro ⟨_, a⟩ ⟨v, b⟩ ⟨rfl, hab⟩
  exact hfg v a b hab

namespace Context.Agrees

variable {w : Leeway} {a b : Context}

lemma depth (h : a.Agrees w b) : b.depth = a.depth :=
  h.files.length_eq.symm

lemma location? (h : a.Agrees w b) : b.location? = a.location? := by
  have hfiles := h.files
  unfold Context.location?
  generalize a.files = files, b.files = files' at hfiles
  cases hfiles with
  | nil => rfl
  | cons hst => exact congrArg some hst.location

lemma malformed (h : a.Agrees w b) (problem : Problem) :
    b.malformed problem = a.malformed problem := by
  rw [Context.malformed, Context.malformed, h.location?]

lemma fail {α β : Type} {R : α → β → Prop} (h : a.Agrees w b) (problem : Problem) :
    Agree w.lax R (.error (a.malformed problem)) (.error (b.malformed problem)) := by
  rw [h.malformed]
  exact .fail _

lemma failed (h : a.Agrees w b) (tokens : List Token) (failure : ReadFailure) :
    b.failed tokens failure = a.failed tokens failure := by
  cases failure with
  | problem problem => exact h.malformed problem
  | usedUp => rfl

lemma tail_files (h : a.Agrees w b) :
    List.Forall₂ TokenStream.Similar a.files.tail b.files.tail := by
  rw [← List.drop_one, ← List.drop_one]
  exact List.forall₂_drop 1 h.files

lemma map_files {α : Type} {f : TokenStream → α} (h : a.Agrees w b)
    (hf : ∀ {s t : TokenStream}, s.Similar t → f t = f s) : b.files.map f = a.files.map f := by
  have hfiles := h.files
  generalize a.files = files, b.files = files' at hfiles
  induction hfiles with
  | nil => rfl
  | cons hst _ ih => rw [List.map_cons, List.map_cons, hf hst, ih]

lemma isOpen (h : a.Agrees w b) (name : String) : b.isOpen name = a.isOpen name := by
  have hany : ∀ ctx : Context, ctx.isOpen name = (ctx.files.map TokenStream.file).any fun file =>
      Path.normalize file == Path.normalize name := by
    intro ctx
    rw [List.any_map]
    rfl
  rw [hany, hany, h.map_files TokenStream.Similar.file]

lemma includePath (h : a.Agrees w b) : b.includePath = a.includePath := by
  have hlocation : ∀ {s t : TokenStream}, s.Similar t → t.location.text = s.location.text :=
    fun hst => congrArg Location.text hst.location
  rw [Context.includePath, Context.includePath, List.map_reverse, List.map_reverse,
    h.map_files hlocation]

lemma setCurrent (h : a.Agrees w b) {s t : TokenStream} (hst : s.Similar t) :
    (a.setCurrent s).Agrees w (b.setCurrent t) :=
  { h with files := .cons hst h.tail_files }

lemma note (h : a.Agrees w b) (findings : List Finding) :
    (a.note findings).Agrees w (b.note findings) := by
  refine { h with report := ?_ }
  have hreport := h.report
  unfold Context.note
  dsimp only
  generalize a.report = r, b.report = r' at hreport
  induction findings generalizing r r' with
  | nil => exact hreport
  | cons finding findings ih => exact ih _ _ (w.add finding hreport)

lemma closeFile (h : a.Agrees w b) : a.closeFile.Agrees w b.closeFile :=
  { h with files := h.tail_files }

lemma setSymbol (h : a.Agrees w b) (e : Entry) : (a.setSymbol e).Agrees w (b.setSymbol e) := by
  unfold Context.setSymbol
  split
  · exact h
  · refine { h with symbols := ?_ }
    dsimp only
    rw [h.symbols]

lemma define (h : a.Agrees w b) (e : Entry) : (a.define e).Agrees w (b.define e) := by
  unfold Context.define
  rw [h.definitions]
  split
  · exact h
  · refine setSymbol (note ?_ _) e
    exact { h with definitions := rfl }

lemma register (h : a.Agrees w b) (e : Entry) :
    Agrees w
      (match e with
        | .config _ => a.setSymbol e
        | .choice _ => a.define e
        | _ => a)
      (match e with
        | .config _ => b.setSymbol e
        | .choice _ => b.define e
        | _ => b) := by
  cases e with
  | config config => exact h.setSymbol _
  | choice choice => exact h.define _
  | comment comment => exact h
  | menu head visibleIf children => exact h

lemma current (h : a.Agrees w b) : Agree w.lax TokenStream.Similar a.current b.current := by
  have hfiles := h.files
  unfold Context.current
  generalize a.files = files, b.files = files' at hfiles
  cases hfiles with
  | nil => exact .fail _
  | cons hst => exact hst

lemma location (h : a.Agrees w b) : Agree w.lax Eq a.location b.location :=
  h.current.bind fun _ _ hst => hst.location.symm

lemma next (h : a.Agrees w b) : Agree w.lax (AgreesWith w) a.next b.next := by
  refine h.current.bind fun s t hst => ?_
  refine hst.next.bind ?_
  rintro ⟨_, s'⟩ ⟨token, t'⟩ ⟨rfl, hst'⟩
  exact ⟨rfl, h.setCurrent hst'⟩

lemma pushBack (h : a.Agrees w b) : Agree w.lax (Agrees w) a.pushBack b.pushBack := by
  refine h.current.bind fun s t hst => ?_
  exact hst.pushBack.bind fun s' t' hst' => h.setCurrent hst'

section Lines

variable {α : Type}

lemma readLine (h : a.Agrees w b) (read : List Token → Except ReadFailure (Reading α)) :
    Agree w.lax (AgreesWith w) (a.readLine read) (b.readLine read) := by
  refine h.current.bind fun s t hst => ?_
  refine (hst.load.mapError _).bind fun s' t' hst' => ?_
  rw [hst'.upcoming]
  split
  · rw [(h.setCurrent hst').failed]
    exact .fail _
  · exact ⟨rfl, h.setCurrent (hst'.stopAt _)⟩

lemma readNoting (h : a.Agrees w b) (read : List Token → Except ReadFailure (Reading α)) :
    Agree w.lax (AgreesWith w) (a.readNoting read) (b.readNoting read) := by
  refine h.location.bind_eq fun start => ?_
  refine (h.readLine read).bind_with fun r a' b' hab => ?_
  refine hab.location.bind_eq fun place => ?_
  exact ⟨rfl, hab.note _⟩

lemma apply (h : a.Agrees w b) (site : Directive.Site) (slips : List Slip) (d : Directive)
    (e : Entry) :
    AgreesWith w
      ((Directive.apply a.environment site slips d e).1,
        a.note (Directive.apply a.environment site slips d e).2)
      ((Directive.apply b.environment site slips d e).1,
        b.note (Directive.apply b.environment site slips d e).2) := by
  rw [h.environment]
  exact ⟨rfl, h.note _⟩

lemma readExtra (h : a.Agrees w b) (read : List Token → Except ReadFailure (Reading Directive))
    (e : Entry) : Agree w.lax (AgreesWith w) (a.readExtra read e) (b.readExtra read e) := by
  refine h.location.bind_eq fun start => ?_
  refine (h.readLine read).bind_with fun r a' b' hab => ?_
  refine hab.location.bind_eq fun place => ?_
  exact hab.apply _ _ _ _

lemma readDirective (h : a.Agrees w b) (kind : DirectiveKind) (keyword : String) (e : Entry) :
    Agree w.lax (AgreesWith w) (a.readDirective kind keyword e)
      (b.readDirective kind keyword e) := by
  unfold Context.readDirective
  split
  · exact h.location.bind_eq fun place => .fail _
  · split
    · exact ⟨(h.apply _ _ _ _).1, h⟩
    · refine h.location.bind_eq fun start => ?_
      refine h.current.bind fun s t hst => ?_
      refine hst.readHelp.bind ?_
      rintro ⟨_, s'⟩ ⟨text, t'⟩ ⟨rfl, hst'⟩
      exact (h.setCurrent hst').apply _ _ _ _
    · exact h.readExtra _ e

lemma skipLine (h : a.Agrees w b) : Agree w.lax (AgreesWith w) a.skipLine b.skipLine :=
  (h.readLine _).bind_with fun _ _ _ hab => ⟨rfl, hab⟩

lemma unrecognized (h : a.Agrees w b) (kind : EntryKind) (first : String) :
    Agree w.lax (Agrees w) (a.unrecognized kind first) (b.unrecognized kind first) := by
  refine h.skipLine.bind_with fun text a' b' hab => ?_
  dsimp only
  rw [hab.strict]
  split
  · exact hab.fail _
  · exact hab.location.bind_eq fun place => hab.note _

end Lines

lemma readIf (h : a.Agrees w b) : Agree w.lax (Agrees w) a.readIf b.readIf := by
  refine (h.readNoting _).bind_with fun condition a' b' hab => ?_
  refine { hab with scope := ?_ }
  dsimp only
  rw [hab.scope]

lemma readEndif (h : a.Agrees w b) : Agree w.lax (Agrees w) a.readEndif b.readEndif := by
  unfold Context.readEndif
  rw [h.scope]
  split
  · exact h.fail _
  · exact { h with scope := rfl }

lemma checkBlockEnd (h : a.Agrees w b) (e : Entry) (keyword : String) (depth : Nat)
    (scope : List Condition) :
    Agree w.lax Eq (a.checkBlockEnd e keyword depth scope)
      (b.checkBlockEnd e keyword depth scope) := by
  unfold Context.checkBlockEnd
  rw [h.depth, h.scope]
  split
  · exact h.fail _
  · split
    · exact h.fail _
    · split
      · exact h.fail _
      · exact rfl

lemma substitute (h : a.Agrees w b) (text : String) :
    Agree w.lax Eq (a.substitute text) (b.substitute text) := by
  have hvalue : b.symbolValue = a.symbolValue := by
    funext name
    rw [Context.symbolValue, Context.symbolValue, h.symbols, h.environment]
  rw [Context.substitute, Context.substitute, hvalue]
  exact .refl _

section Opening

variable {fs fs' : FileSystem} {kind : SourceKind} {target : String}

lemma openFile (h : a.Agrees w b)
    (hlook : (fs.look (Path.join w.root target)).Similar (fs'.look (Path.join w.root target)))
    (hvisited : ∀ bytes, fs.look (Path.join w.root target) = .file bytes →
      w.visited (a.visited ++ [target]) (b.visited ++ [target])) :
    Agree False (Agrees w) (a.openFile fs target) (b.openFile fs' target) := by
  unfold Context.openFile
  dsimp only
  rw [h.root, h.root']
  generalize fs.look (Path.join w.root target) = found,
    fs'.look (Path.join w.root target) = found' at hlook hvisited
  cases hlook with
  | file hlines =>
    exact { h with
      root := rfl
      root' := rfl
      files := .cons ⟨_, hlines target, rfl⟩ h.files
      visited := hvisited _ rfl }
  | same =>
    cases found with
    | file bytes =>
      exact { h with
        root := rfl
        root' := rfl
        files := .cons (.refl _) h.files
        visited := hvisited _ rfl }
    | _ => exact .fail _

lemma openSource (h : a.Agrees w b) (start : Location)
    (hlook : (fs.look (Path.join w.root target)).Similar (fs'.look (Path.join w.root target)))
    (hvisited : ∀ bytes, fs.look (Path.join w.root target) = .file bytes →
      w.visited (a.visited ++ [target]) (b.visited ++ [target])) :
    Agree w.lax (Agrees w) (a.openSource fs kind start target)
      (b.openSource fs' kind start target) := by
  have hdirectory : fs'.isDirectory (Path.join w.root target) =
      fs.isDirectory (Path.join w.root target) := by
    unfold FileSystem.isDirectory
    generalize fs.look (Path.join w.root target) = found,
      fs'.look (Path.join w.root target) = found' at hlook
    cases hlook <;> rfl
  unfold Context.openSource
  rw [h.root, h.root', h.isOpen, h.includePath, hdirectory]
  split
  · exact h.fail _
  · split
    · exact h.fail _
    · rcases (h.openFile hlook hvisited).split with
        ⟨fault, ha, hlax | hb⟩ | ⟨a', b', ha, hb, hab⟩
      · exact hlax.elim
      · rw [ha, hb]
        cases fault with
        | missingFile name path => exact h.note _
        | _ => exact .fail _
      · rw [ha, hb]
        exact hab

lemma openLoose {target : Text.Loose} (h : a.Agrees w b) (start : Location)
    (hlook : (fs.look (Path.stem (Path.joinLoose w.root target))).Similar
      (fs'.look (Path.stem (Path.joinLoose w.root target)))) :
    Agree w.lax (Agrees w) (a.openLoose fs kind start target)
      (b.openLoose fs' kind start target) := by
  unfold Context.openLoose
  dsimp only
  rw [h.root, h.root', h.isOpen, h.includePath]
  split
  · exact h.fail _
  · split
    · exact .fail _
    · split
      · exact .fail _
      · generalize fs.look (Path.stem (Path.joinLoose w.root target)) = found,
          fs'.look (Path.stem (Path.joinLoose w.root target)) = found' at hlook
        cases hlook with
        | file => exact .fail _
        | same =>
          cases found with
          | directory => exact h.note _
          | missing => exact h.note _
          | _ => exact .fail _

end Opening

lemma readSource {fs fs' : FileSystem} {S : Context → Context → Prop} {kind : SourceKind}
    (h : a.Agrees w b)
    (hopen : ∀ {a b : Context} (start : Location) (target : Text.Loose), a.Agrees w b →
      Agree w.lax S (a.openTarget fs kind start target) (b.openTarget fs' kind start target)) :
    Agree w.lax S (a.readSource fs kind) (b.readSource fs' kind) := by
  refine h.location.bind_eq fun start => ?_
  refine (h.readLine _).bind_with fun r a' b' hab => ?_
  have hnoted := hab.note (kind.extraFindings start r.value.2)
  refine (hnoted.substitute _).bind_eq fun path => ?_
  split
  · exact hnoted.fail _
  · refine hnoted.current.bind fun s t hst => ?_
    rw [hst.file]
    exact hopen start _ hnoted

lemma opened (h : a.Agrees w b) (entry : Entry) :
    AgreesWith w (({ entry, scope := a.scope, depth := a.depth } : Frame), a)
      ({ entry, scope := b.scope, depth := b.depth }, b) := by
  refine ⟨?_, h⟩
  rw [h.scope, h.depth]

lemma openConfig (h : a.Agrees w b) (isMenu : Bool) (keyword : String) :
    Agree w.lax (AgreesWith w) (Frame.openConfig a isMenu keyword)
      (Frame.openConfig b isMenu keyword) := by
  refine h.location.bind_eq fun place => ?_
  refine h.next.bind_with fun token a' b' hab => ?_
  dsimp only
  split
  · exact hab.fail _
  · exact ⟨(hab.opened _).1, hab.define _⟩

lemma openPrompted (h : a.Agrees w b) (keyword : String) (declared : Location → Entry) :
    Agree w.lax (AgreesWith w)
      (do
        let location ← a.location
        let (entry, ctx) ← a.readDirective .prompt keyword (declared location)
        return (({ entry, scope := ctx.scope, depth := ctx.depth } : Frame), ctx))
      (do
        let location ← b.location
        let (entry, ctx) ← b.readDirective .prompt keyword (declared location)
        return (({ entry, scope := ctx.scope, depth := ctx.depth } : Frame), ctx)) := by
  refine h.location.bind_eq fun place => ?_
  refine (h.readDirective _ _ _).bind_with fun entry a' b' hab => ?_
  exact hab.opened entry

lemma openChoice (h : a.Agrees w b) :
    Agree w.lax (AgreesWith w) (Frame.openChoice a) (Frame.openChoice b) := by
  refine h.location.bind_eq fun place => ?_
  refine h.next.bind_with fun token a' b' hab => ?_
  dsimp only
  split
  · exact hab.pushBack.bind fun a'' b'' hab => hab.opened _
  · exact hab.opened _

end Context.Agrees

end Kconfig
