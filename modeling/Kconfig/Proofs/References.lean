import Kconfig.Context
import Kconfig.Proofs.Scanning

/-!
# References are replaced in one pass

Two texts have the same pieces together as alone, unless a reference goes on from the one into the
other. So they are replaced one by one. What is put in the place of a reference is not looked at
again: it takes in nothing of the text around it, and what it refers to itself stays as it is.
-/

namespace Kconfig

namespace Reference

/-- The name of a reference: ASCII letters and underscores, at least one. -/
structure IsName (name : List Char) : Prop where
  ne_nil : name ≠ []
  letters : ∀ c ∈ name, isNameLetter c = true

/-- A text does not go on a name in front of it. -/
def EndsName (text : List Char) : Prop :=
  ∀ c ∈ text.head?, isNameLetter c = false

instance (text : List Char) : Decidable (EndsName text) :=
  Option.decidableForallMem text.head?

/-- A text ends in a dollar sign, or in one with nothing behind it but characters of names. -/
def EndsOpen (text : List Char) : Prop :=
  ∃ front name, text = front ++ '$' :: name ∧ ∀ c ∈ name, isNameLetter c = true

/-- No reference goes on from the one text into the other. -/
def Apart (a b : List Char) : Prop :=
  EndsName b ∨ ¬EndsOpen a

/-- A text refers to a name: somewhere in it the name stands behind a dollar sign and is not gone on
with. -/
def RefersTo (text name : List Char) : Prop :=
  ∃ front back, text = front ++ '$' :: name ++ back ∧ IsName name ∧ EndsName back

variable {a b rest name : List Char} {c : Char}

lemma takeWhile_eq_nil_iff {text : List Char} :
    text.takeWhile isNameLetter = [] ↔ EndsName text := by
  cases text with
  | nil => simp [EndsName]
  | cons c cs => simp [EndsName, List.takeWhile_cons]

lemma isName_takeWhile {text : List Char} (h : ¬EndsName text) :
    IsName (text.takeWhile isNameLetter) :=
  ⟨mt takeWhile_eq_nil_iff.1 h, fun _ => List.mem_takeWhile_imp⟩

lemma endsName_dropWhile (text : List Char) : EndsName (text.dropWhile isNameLetter) := by
  intro c hc
  have hnot := List.head?_dropWhile_not isNameLetter text
  rw [hc] at hnot
  exact hnot

lemma endsName_dollar (text : String) : EndsName ("$" ++ text).toList := by
  rw [String.toList_append]
  rintro c ⟨⟩
  rfl

lemma IsName.append {run : List Char} (hrun : IsName run)
    (hname : ∀ c ∈ name, isNameLetter c = true) : IsName (name ++ run) :=
  ⟨by simp [hrun.ne_nil], List.forall_mem_append.2 ⟨hname, hrun.letters⟩⟩

lemma pieces_char (h : c = '$' → EndsName rest) : pieces (c :: rest) = .char c :: pieces rest := by
  rw [pieces, if_neg]
  rintro ⟨hc, hname⟩
  exact hname (takeWhile_eq_nil_iff.2 (h hc))

lemma pieces_reference (hname : IsName name) (hrest : EndsName rest) :
    pieces ('$' :: name ++ rest) = .reference name :: pieces rest := by
  rw [List.cons_append, pieces, takeWhile_append hname.letters hrest,
    dropWhile_append hname.letters hrest, if_pos ⟨rfl, hname.ne_nil⟩]

/-- Induction on a text from its end, piece by piece. -/
@[elab_as_elim]
theorem piece_induction {motive : List Char → Prop} (nil : motive [])
    (char : ∀ c rest, (c = '$' → EndsName rest) → motive rest → motive (c :: rest))
    (reference : ∀ name rest, IsName name → EndsName rest → motive rest →
      motive ('$' :: name ++ rest)) (text : List Char) : motive text := by
  fun_induction pieces text with
  | case1 => exact nil
  | case2 c cs h ih =>
    obtain ⟨rfl, hname⟩ := h
    have hmotive := reference _ _ (isName_takeWhile (mt takeWhile_eq_nil_iff.2 hname))
      (endsName_dropWhile cs) ih
    rwa [List.cons_append, List.takeWhile_append_dropWhile] at hmotive
  | case3 c cs h ih =>
    refine char c cs (fun hc => ?_) ih
    by_contra hgoes
    exact h ⟨hc, mt takeWhile_eq_nil_iff.1 hgoes⟩

lemma Apart.endsName (front name : List Char) (h : Apart (front ++ '$' :: name ++ rest) b)
    (hname : ∀ c ∈ name, isNameLetter c = true) (hrest : EndsName rest) :
    EndsName (rest ++ b) := by
  cases rest with
  | nil =>
    rcases h with hb | ha
    · exact hb
    · exact absurd ⟨front, name, by simp, hname⟩ ha
  | cons c rest => exact hrest

lemma Apart.of_append (front : List Char) (h : Apart (front ++ a) b) : Apart a b := by
  refine h.imp_right fun hfront => ?_
  rintro ⟨before, name, rfl, hname⟩
  exact hfront ⟨front ++ before, name, by simp, hname⟩

lemma pieces_append (h : Apart a b) : pieces (a ++ b) = pieces a ++ pieces b := by
  -- The border matters only to the last piece of `a`, which has nothing but `b` behind it.
  induction a using piece_induction with
  | nil => simp [pieces]
  | char c rest hrest ih =>
    have hboth : c = '$' → EndsName (rest ++ b) := by
      rintro rfl
      exact Apart.endsName [] [] h (List.forall_mem_nil _) (hrest rfl)
    rw [List.cons_append, pieces_char hboth, pieces_char hrest, ih (Apart.of_append [c] h),
      List.cons_append]
  | reference name rest hname hrest ih =>
    have hboth : EndsName (rest ++ b) := Apart.endsName [] name h hname.letters hrest
    rw [List.append_assoc, pieces_reference hname hboth, pieces_reference hname hrest,
      ih (Apart.of_append _ h), List.cons_append]

lemma pieces_of_not_mem {cs : List Char} (h : '$' ∉ cs) : pieces cs = cs.map .char := by
  induction cs with
  | nil => simp [pieces]
  | cons c cs ih =>
    obtain ⟨hc, hcs⟩ := List.ne_and_not_mem_of_not_mem_cons h
    rw [pieces_char fun hd => absurd hd.symm hc, ih hcs, List.map_cons]

lemma refersTo_of_mem {text : List Char} (h : .reference name ∈ pieces text) :
    RefersTo text name := by
  induction text using piece_induction with
  | nil => simp [pieces] at h
  | char c rest hrest ih =>
    rw [pieces_char hrest] at h
    obtain ⟨front, back, rfl, hback⟩ := ih (by simpa using h)
    exact ⟨c :: front, back, rfl, hback⟩
  | reference first rest hfirst hrest ih =>
    rw [pieces_reference hfirst hrest] at h
    rcases List.mem_cons.1 h with hname | hmem
    · cases hname
      exact ⟨[], rest, rfl, hfirst, hrest⟩
    · obtain ⟨front, back, rfl, hback⟩ := ih hmem
      exact ⟨'$' :: first ++ front, back, by simp, hback⟩

variable {lookup : String → Option Json}

/-- What stands in the place of pieces that follow one another. -/
def fillAll? (lookup : String → Option Json) (parts : List Piece) : Option Text.Loose :=
  (parts.mapM (Piece.fill? lookup)).map fun parts => ⟨parts.flatMap (·.points)⟩

lemma substitute?_eq (text : String) :
    substitute? lookup text = fillAll? lookup (pieces text.toList) :=
  rfl

lemma fillAll?_append (ps qs : List Piece) :
    fillAll? lookup (ps ++ qs) = do
      let s ← fillAll? lookup ps
      let t ← fillAll? lookup qs
      return s ++ t := by
  unfold fillAll?
  rw [List.mapM_append]
  cases ps.mapM (Piece.fill? lookup) with
  | none => rfl
  | some parts =>
    cases qs.mapM (Piece.fill? lookup) with
    | none => rfl
    | some more => exact congrArg (fun points => some (Text.Loose.mk points)) List.flatMap_append

lemma fillAll?_singleton (p : Piece) : fillAll? lookup [p] = p.fill? lookup := by
  unfold fillAll?
  cases h : p.fill? lookup <;> simp [h]

lemma fillAll?_cons (p : Piece) (ps : List Piece) :
    fillAll? lookup (p :: ps) = do
      let s ← p.fill? lookup
      let t ← fillAll? lookup ps
      return s ++ t := by
  rw [← List.singleton_append, fillAll?_append, fillAll?_singleton]

lemma fillAll?_char (cs : List Char) : fillAll? lookup (cs.map .char) = some (.ofChars cs) := by
  induction cs with
  | nil => rfl
  | cons c cs ih =>
    rw [List.map_cons, fillAll?_cons, ih]
    rfl

lemma fillAll?_congr {other : String → Option Json} {parts : List Piece}
    (h : ∀ name, .reference name ∈ parts → other (.ofList name) = lookup (.ofList name)) :
    fillAll? other parts = fillAll? lookup parts := by
  induction parts with
  | nil => rfl
  | cons part parts ih =>
    have hpart : part.fill? other = part.fill? lookup := by
      cases part with
      | char c => rfl
      | reference name => rw [Piece.fill?, Piece.fill?, h name List.mem_cons_self]
    rw [fillAll?_cons, fillAll?_cons, hpart, ih fun n hn => h n (List.mem_cons_of_mem _ hn)]

lemma substitute?_of_not_mem {text : String} (h : '$' ∉ text.toList)
    (lookup : String → Option Json) :
    substitute? lookup text = some (Text.Loose.ofString text) := by
  rw [substitute?_eq, pieces_of_not_mem h, fillAll?_char]
  rfl

lemma substitute?_append {a b : String} (h : Apart a.toList b.toList) :
    substitute? lookup (a ++ b) = do
      let s ← substitute? lookup a
      let t ← substitute? lookup b
      return s ++ t := by
  rw [substitute?_eq, String.toList_append, pieces_append h, fillAll?_append]
  rfl

lemma exists_of_fillAll?_eq_none {parts : List Piece} (h : fillAll? lookup parts = none) :
    ∃ part ∈ parts, part.fill? lookup = none := by
  induction parts with
  | nil => cases h
  | cons part parts ih =>
    cases hfill : part.fill? lookup with
    | none => exact ⟨part, List.mem_cons_self, hfill⟩
    | some written =>
      cases hparts : fillAll? lookup parts with
      | none =>
        obtain ⟨other, hmem, hother⟩ := ih hparts
        exact ⟨other, List.mem_cons_of_mem _ hmem, hother⟩
      | some more => simp [fillAll?_cons, hfill, hparts] at h

lemma exists_of_substitute?_eq_none {text : String} (h : substitute? lookup text = none) :
    ∃ name value, RefersTo text.toList name.toList ∧ lookup name = some value ∧
      value.isVoid = false ∧ ∀ written, value ≠ .str written := by
  obtain ⟨part, hpart, hnone⟩ := exists_of_fillAll?_eq_none h
  cases part with
  | char c => cases hnone
  | reference name =>
    unfold Piece.fill? at hnone
    dsimp only at hnone
    split at hnone
    · cases hnone
    · cases hnone
    · rename_i value htext hvalue
      obtain ⟨hlookup, hvoid⟩ := Option.filter_eq_some_iff.1 hvalue
      refine ⟨.ofList name, value, ?_, hlookup, by simpa using hvoid, fun _ hw => htext _ hw⟩
      rw [String.toList_ofList]
      exact refersTo_of_mem hpart

lemma isSome_substitute? {text : String}
    (htexts : ∀ name value, RefersTo text.toList name.toList → lookup name = some value →
      value.isVoid = true ∨ ∃ written, value = .str written) :
    (substitute? lookup text).isSome = true := by
  rw [← Option.ne_none_iff_isSome]
  intro hnone
  obtain ⟨name, value, hrefers, hlookup, hvoid, hno⟩ := exists_of_substitute?_eq_none hnone
  rcases htexts name value hrefers hlookup with hyes | ⟨written, hwritten⟩
  · simp [hvoid] at hyes
  · exact hno written hwritten

section Values

variable {name : String} (hname : IsName name.toList)

include hname

lemma substitute?_reference :
    substitute? lookup ("$" ++ name) = (Piece.reference name.toList).fill? lookup := by
  have hpieces : pieces ("$" ++ name).toList = [.reference name.toList] := by
    rw [String.toList_append, ← List.append_nil name.toList]
    exact (pieces_reference hname (by decide)).trans (by simp [pieces])
  rw [substitute?_eq, hpieces, fillAll?_singleton]

lemma substitute?_of_text {value : Text.Loose} (hlookup : lookup name = some (.str value))
    (hvalue : value.points ≠ []) : substitute? lookup ("$" ++ name) = some value := by
  rw [substitute?_reference hname, Piece.fill?, String.ofList_toList, hlookup]
  simp [Option.filter, Json.isVoid, hvalue]

lemma substitute?_of_void (hvoid : ∀ value, lookup name = some value → value.isVoid = true) :
    substitute? lookup ("$" ++ name) = some (.ofString ("$" ++ name)) := by
  have hfilter : (lookup name).filter (!·.isVoid) = none := by
    rw [Option.filter_eq_none_iff]
    intro value hvalue
    simp [hvoid value hvalue]
  rw [substitute?_reference hname, Piece.fill?, String.ofList_toList, hfilter]
  simp [Text.Loose.ofString]

lemma substitute?_inside {value : Text.Loose} (a : String) {b : String} (hb : EndsName b.toList)
    (hlookup : lookup name = some (.str value)) (hvalue : value.points ≠ []) :
    substitute? lookup (a ++ ("$" ++ name) ++ b) = do
      let s ← substitute? lookup a
      let t ← substitute? lookup b
      return s ++ value ++ t := by
  rw [substitute?_append (.inl hb), substitute?_append (.inl (endsName_dollar name)),
    substitute?_of_text hname hlookup hvalue]
  cases substitute? lookup a <;> rfl

end Values

/-- How references are replaced in texts if `lookup` gives their values. -/
structure SinglePass (lookup : String → Option Json) : Prop where
  /-- Texts that no reference crosses are replaced one by one. -/
  append : ∀ a b : String, Apart a.toList b.toList →
    substitute? lookup (a ++ b) = do
      let s ← substitute? lookup a
      let t ← substitute? lookup b
      return s ++ t
  plain : ∀ text : String, '$' ∉ text.toList → substitute? lookup text = some (.ofString text)
  valued : ∀ (name : String) (value : Text.Loose), IsName name.toList →
    lookup name = some (.str value) → value.points ≠ [] →
    substitute? lookup ("$" ++ name) = some value
  unvalued : ∀ name : String, IsName name.toList →
    (∀ value, lookup name = some value → value.isVoid = true) →
    substitute? lookup ("$" ++ name) = some (.ofString ("$" ++ name))
  /-- A value stands as it is between what is put for the texts around it. -/
  inside : ∀ (a name b : String) (value : Text.Loose), IsName name.toList → EndsName b.toList →
    lookup name = some (.str value) → value.points ≠ [] →
    substitute? lookup (a ++ ("$" ++ name) ++ b) = do
      let s ← substitute? lookup a
      let t ← substitute? lookup b
      return s ++ value ++ t
  /-- The values of names to which the text itself does not refer make no difference. -/
  names : ∀ (text : String) (other : String → Option Json),
    (∀ name : String, RefersTo text.toList name.toList → other name = lookup name) →
    substitute? other text = substitute? lookup text
  /-- Nothing but a value that is no text prevents the replacement. -/
  total : ∀ text : String,
    (∀ name value, RefersTo text.toList name.toList → lookup name = some value →
      value.isVoid = true ∨ ∃ written, value = .str written) →
    (substitute? lookup text).isSome = true

/-- References are replaced in a single pass, whatever their values are. -/
theorem singlePass (lookup : String → Option Json) : SinglePass lookup where
  append _ _ h := substitute?_append h
  plain _ h := substitute?_of_not_mem h lookup
  valued _ _ hname hlookup hvalue := substitute?_of_text hname hlookup hvalue
  unvalued _ hname hvoid := substitute?_of_void hname hvoid
  inside a _ _ _ hname hb hlookup hvalue := substitute?_inside hname a hb hlookup hvalue
  names text other hagree := by
    refine fillAll?_congr fun name hname => hagree _ ?_
    rw [String.toList_ofList]
    exact refersTo_of_mem hname
  total _ htexts := isSome_substitute? htexts

/-- The value of `A` refers to `B`, which has a value as well. -/
theorem singlePass_nested :
    substitute? (fun name => if name = "A" then some (.str "$B") else some (.str "x"))
      ("a/" ++ ("$" ++ "A") ++ "/b") = some (.ofString "a/$B/b") := by
  have h := singlePass fun name => if name = "A" then some (.str "$B") else some (.str "x")
  have hname : IsName "A".toList := ⟨by decide, by decide⟩
  rw [h.inside "a/" "A" "/b" "$B" hname (by decide) (by simp) (by decide),
    h.plain "a/" (by decide), h.plain "/b" (by decide)]
  rfl

lemma exists_crossing {a b : String} (h : ¬Apart a.toList b.toList) :
    ∃ front name run rest : String, a = front ++ ("$" ++ name) ∧ b = run ++ rest ∧
      (∀ c ∈ name.toList, isNameLetter c = true) ∧ IsName run.toList ∧ EndsName rest.toList := by
  obtain ⟨hgoes, front, name, ha, hname⟩ : ¬EndsName b.toList ∧ EndsOpen a.toList := by
    simpa [Apart] using h
  refine ⟨.ofList front, .ofList name, .ofList (b.toList.takeWhile isNameLetter),
    .ofList (b.toList.dropWhile isNameLetter), ?_, ?_, ?_, ?_, ?_⟩
  · simp [← String.toList_inj, ha]
  · simp [← String.toList_inj]
  · simpa using hname
  · simpa using isName_takeWhile hgoes
  · simpa using endsName_dropWhile b.toList

lemma substitute?_of_open {name : String} (hname : ∀ c ∈ name.toList, isNameLetter c = true)
    (hlookup : lookup name = none) :
    substitute? lookup ("$" ++ name) = some (.ofString ("$" ++ name)) := by
  by_cases hempty : name = ""
  · subst hempty
    have hpieces : pieces ("$" ++ "").toList = [.char '$'] := by simp [pieces]
    rw [substitute?_eq, hpieces]
    rfl
  · refine substitute?_of_void ⟨by simpa using hempty, hname⟩ ?_
    simp [hlookup]

lemma exists_substitute?_ne (front : String) {name run rest : String}
    (hname : ∀ c ∈ name.toList, isNameLetter c = true) (hrun : IsName run.toList)
    (hrest : EndsName rest.toList) :
    ∃ lookup, substitute? lookup (front ++ ("$" ++ name) ++ (run ++ rest)) ≠ do
      let s ← substitute? lookup (front ++ ("$" ++ name))
      let t ← substitute? lookup (run ++ rest)
      return s ++ t := by
  -- Only the whole name has a value, which is shorter than the reference.
  let lookup : String → Option Json := fun n => if n = name ++ run then some (.str "x") else none
  have hfilled : ∀ text, ∃ written, substitute? lookup text = some written := by
    intro text
    refine Option.isSome_iff_exists.1 (isSome_substitute? fun n value _ hvalue => .inr ?_)
    simp only [lookup] at hvalue
    split at hvalue <;> cases hvalue
    exact ⟨_, rfl⟩
  obtain ⟨s, hs⟩ := hfilled front
  obtain ⟨t, ht⟩ := hfilled rest
  have htogether : substitute? lookup (front ++ ("$" ++ name) ++ (run ++ rest)) =
      some (s ++ Text.Loose.ofString "x" ++ t) := by
    have hwhole : IsName (name ++ run).toList := by
      rw [String.toList_append]
      exact hrun.append hname
    have htext : front ++ ("$" ++ name) ++ (run ++ rest) =
        front ++ ("$" ++ (name ++ run)) ++ rest := by
      simp only [String.append_assoc]
    rw [htext, substitute?_inside hwhole front hrest (if_pos rfl) (by decide), hs, ht]
    rfl
  have hpart : name ≠ name ++ run := by
    intro heq
    exact hrun.ne_nil (by simpa using congrArg String.toList heq)
  have hplain : '$' ∉ run.toList := fun hmem => absurd (hrun.letters _ hmem) (by decide)
  refine ⟨lookup, fun halone => ?_⟩
  rw [htogether, substitute?_append (.inl (endsName_dollar name)),
    substitute?_append (.inl hrest), hs, ht, substitute?_of_not_mem hplain,
    substitute?_of_open hname (if_neg hpart)] at halone
  have hlength : t.points.length = name.toList.length + (run.toList.length + t.points.length) := by
    simpa [Text.Loose.ofString, Text.Loose.ofChars] using
      congrArg (fun text => (text.map (·.points.length)).getD 0) halone
  exact hrun.ne_nil (List.length_eq_zero_iff.1 (by omega))

/-- Two texts are replaced one by one for all values only if no reference crosses them. -/
theorem substitute?_append_iff {a b : String} :
    (∀ lookup, substitute? lookup (a ++ b) = do
      let s ← substitute? lookup a
      let t ← substitute? lookup b
      return s ++ t) ↔ Apart a.toList b.toList := by
  refine ⟨fun h => ?_, fun h lookup => substitute?_append h⟩
  by_contra hcross
  obtain ⟨front, name, run, rest, rfl, rfl, hname, hrun, hrest⟩ := exists_crossing hcross
  obtain ⟨lookup, hne⟩ := exists_substitute?_ne front hname hrun hrest
  exact hne (h lookup)

end Reference

/-- The references in a file name are replaced like those in its parts. -/
theorem Context.substitute_append (ctx : Context) {a b : String}
    (h : Reference.Apart a.toList b.toList) :
    ctx.substitute (a ++ b) = do
      let s ← ctx.substitute a
      let t ← ctx.substitute b
      return s ++ t := by
  unfold Context.substitute
  rw [Reference.substitute?_append h]
  cases Reference.substitute? ctx.symbolValue a with
  | none => rfl
  | some s => cases Reference.substitute? ctx.symbolValue b <;> rfl

end Kconfig
