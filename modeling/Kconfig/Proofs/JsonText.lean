import Kconfig.Json.Reader
import Mathlib.Data.List.Nodup
import Mathlib.Tactic.Lemma

/-!
# JSON text

Values without numbers are read back from their written form, whatever texts are in them: a text is
written in ASCII alone, unit by unit of its UTF-16 form, and joined again from these. Only halves of
surrogate pairs that stand side by side would be read as one character.
-/

namespace Kconfig

open Text

namespace Text

/-- The UTF-16 units of a character or half. -/
def CodePoint.units : CodePoint → List Nat
  | .char c => utf16Units c
  | .half n => [n]

/-- The halves of a text are surrogates, and none that begins a pair stands in front of one that
ends a pair. -/
structure Loose.Joined (text : Loose) : Prop where
  halves : ∀ n, .half n ∈ text.points → (isHighSurrogate n || isLowSurrogate n) = true
  apart : ∀ high low before after, text.points = before ++ .half high :: .half low :: after →
    (isHighSurrogate high && isLowSurrogate low) = false

lemma Loose.joined_ofString (text : String) : (Loose.ofString text).Joined where
  halves := by
    intro n hmem
    obtain ⟨c, -, hc⟩ := List.mem_map.1 hmem
    cases hc
  apart := by
    intro high low before after heq
    have hmem : CodePoint.half high ∈ (Loose.ofString text).points := by
      rw [heq]
      exact List.mem_append_right _ List.mem_cons_self
    obtain ⟨c, -, hc⟩ := List.mem_map.1 hmem
    cases hc

lemma not_surrogate (c : Char) : (isHighSurrogate c.toNat || isLowSurrogate c.toNat) = false := by
  have hvalid := c.valid
  simp only [UInt32.isValidChar, Nat.isValidChar] at hvalid
  simp only [isHighSurrogate, isLowSurrogate, Bool.or_eq_false_iff, Bool.and_eq_false_iff,
    decide_eq_false_iff_not]
  have hnat : c.val.toNat = c.toNat := rfl
  omega

lemma toNat_lt (c : Char) : c.toNat < 0x110000 := by
  have hvalid := c.valid
  simp only [UInt32.isValidChar, Nat.isValidChar] at hvalid
  have hnat : c.val.toNat = c.toNat := rfl
  omega

namespace CodePoint

lemma ofUnit_toNat (c : Char) : ofUnit c.toNat = .char c := by
  rw [ofUnit, not_surrogate, if_neg Bool.false_ne_true, Char.ofNat_toNat]

lemma ofUnits_cons {n : Nat} {units : List Nat}
    (h : ∀ m ∈ units.head?, (isHighSurrogate n && isLowSurrogate m) = false) :
    ofUnits (n :: units) = ofUnit n :: ofUnits units := by
  cases units with
  | nil => rfl
  | cons m units => rw [ofUnits, h m rfl, if_neg Bool.false_ne_true]

lemma ofUnits_pair {c : Char} (hc : ¬c.toNat < 0x10000) (units : List Nat) :
    ofUnits (utf16Units c ++ units) = .char c :: ofUnits units := by
  have hlt := toNat_lt c
  have hhigh : isHighSurrogate (0xD800 + (c.toNat - 0x10000) / 0x400) = true := by
    simp only [isHighSurrogate, Bool.and_eq_true, decide_eq_true_eq]
    omega
  have hlow : isLowSurrogate (0xDC00 + (c.toNat - 0x10000) % 0x400) = true := by
    simp only [isLowSurrogate, Bool.and_eq_true, decide_eq_true_eq]
    omega
  have hpair : charOfPair (0xD800 + (c.toNat - 0x10000) / 0x400)
      (0xDC00 + (c.toNat - 0x10000) % 0x400) = c := by
    have hnat : 0x10000 + (0xD800 + (c.toNat - 0x10000) / 0x400 - 0xD800) * 0x400 +
        (0xDC00 + (c.toNat - 0x10000) % 0x400 - 0xDC00) = c.toNat := by omega
    rw [charOfPair, hnat, Char.ofNat_toNat]
  rw [utf16Units, if_neg hc, List.cons_append, List.cons_append, List.nil_append, ofUnits, hhigh,
    hlow, hpair]
  rfl

lemma head_units {c : Char} {m : Nat} (h : m ∈ (utf16Units c).head?) :
    isLowSurrogate m = false := by
  have hlt := toNat_lt c
  unfold utf16Units at h
  split at h
  · cases h
    exact (Bool.or_eq_false_iff.1 (not_surrogate c)).2
  · cases h
    simp only [isLowSurrogate, Bool.and_eq_false_iff, decide_eq_false_iff_not]
    omega

lemma units_ne_nil (p : CodePoint) : p.units ≠ [] := by
  cases p with
  | char c =>
    rw [units, utf16Units]
    split <;> exact List.cons_ne_nil _ _
  | half n => exact List.cons_ne_nil _ _

end CodePoint

namespace Loose.Joined

lemma tail {p : CodePoint} {points : List CodePoint} (h : Loose.Joined ⟨p :: points⟩) :
    Loose.Joined ⟨points⟩ where
  halves := fun n hmem => h.halves n (List.mem_cons_of_mem p hmem)
  apart := fun high low before after heq =>
    h.apart high low (p :: before) after (by rw [List.cons_append, ← heq])

/-- The units of a text stand for the text. -/
theorem ofUnits_units {points : List CodePoint} (h : Loose.Joined ⟨points⟩) :
    CodePoint.ofUnits (points.flatMap CodePoint.units) = points := by
  induction points with
  | nil => rfl
  | cons p points ih =>
    have hrest := ih h.tail
    rw [List.flatMap_cons]
    cases p with
    | char c =>
      rw [CodePoint.units]
      by_cases hc : c.toNat < 0x10000
      · have hhigh := (Bool.or_eq_false_iff.1 (not_surrogate c)).1
        rw [utf16Units, if_pos hc, List.singleton_append, CodePoint.ofUnits_cons, hrest,
          CodePoint.ofUnit_toNat]
        intro m _
        rw [hhigh, Bool.false_and]
      · rw [CodePoint.ofUnits_pair hc, hrest]
    | half n =>
      rw [CodePoint.units, List.singleton_append, CodePoint.ofUnits_cons, hrest, CodePoint.ofUnit,
        h.halves n List.mem_cons_self, if_pos rfl]
      intro m hm
      cases points with
      | nil => cases hm
      | cons q points =>
        rw [List.flatMap_cons, List.head?_append_of_ne_nil _ (CodePoint.units_ne_nil q)] at hm
        cases q with
        | char c => rw [CodePoint.head_units hm, Bool.and_false]
        | half low =>
          obtain rfl : low = m := Option.some.inj hm
          exact h.apart n low [] points rfl

end Loose.Joined

end Text

namespace Json

lemma hexDigit_eq : ∀ k < 16, isHexDigit (hexDigit k) = true ∧ hexDigitValue (hexDigit k) = k ∧
    (hexDigit k).toNat < 128 := by
  decide

lemma readQuoted_escapeUnit {n : Nat} (h : n < 0x10000) (rest : List Char) :
    readQuoted (escapeUnit n ++ rest) =
      (readQuoted rest).map fun (units, rest) => (n :: units, rest) := by
  obtain ⟨ha, hva, -⟩ := hexDigit_eq (n / 4096 % 16) (by omega)
  obtain ⟨hb, hvb, -⟩ := hexDigit_eq (n / 256 % 16) (by omega)
  obtain ⟨hc, hvc, -⟩ := hexDigit_eq (n / 16 % 16) (by omega)
  obtain ⟨hd, hvd, -⟩ := hexDigit_eq (n % 16) (by omega)
  have hvalue : digitsValue 16 [hexDigit (n / 4096 % 16), hexDigit (n / 256 % 16),
      hexDigit (n / 16 % 16), hexDigit (n % 16)] = n := by
    rw [digitsValue, List.foldl_cons, List.foldl_cons, List.foldl_cons, List.foldl_cons,
      List.foldl_nil, hva, hvb, hvc, hvd]
    omega
  have hall : [hexDigit (n / 4096 % 16), hexDigit (n / 256 % 16), hexDigit (n / 16 % 16),
      hexDigit (n % 16)].all isHexDigit = true := by
    rw [List.all_cons, List.all_cons, List.all_cons, List.all_cons, List.all_nil, ha, hb, hc, hd]
    rfl
  rw [escapeUnit, List.cons_append, List.cons_append, List.cons_append, List.cons_append,
    List.cons_append, List.cons_append, List.nil_append, readQuoted, if_pos hall, hvalue]

lemma readQuoted_utf16 (c : Char) (rest : List Char) :
    readQuoted ((utf16Units c).flatMap escapeUnit ++ rest) =
      (readQuoted rest).map fun (units, rest) => (utf16Units c ++ units, rest) := by
  have hlt := toNat_lt c
  unfold utf16Units
  split
  · rename_i hc
    rw [List.flatMap_singleton, readQuoted_escapeUnit hc]
    rfl
  · rw [List.flatMap_cons, List.flatMap_singleton, List.append_assoc,
      readQuoted_escapeUnit (by omega), readQuoted_escapeUnit (by omega), Option.map_map]
    rfl

/-- The characters with an escape of a single letter. -/
def lettered : List Char :=
  ['"', '\\', '\n', '\r', '\t', '\x0c', '\x08']

lemma escapeChar_of_not_lettered {c : Char} (h : c ∉ lettered) :
    escapeChar c = if ' ' ≤ c ∧ c ≤ '~' then [c] else (utf16Units c).flatMap escapeUnit := by
  simp only [lettered, List.mem_cons, List.not_mem_nil, or_false, not_or] at h
  obtain ⟨h₁, h₂, h₃, h₄, h₅, h₆, h₇⟩ := h
  rw [escapeChar, if_neg h₁, if_neg h₂, if_neg h₃, if_neg h₄, if_neg h₅, if_neg h₆, if_neg h₇]

lemma readQuoted_plain {c : Char} (hquote : c ≠ '"') (hslash : c ≠ '\\') (hc : ' ' ≤ c)
    (rest : List Char) :
    readQuoted (c :: rest) =
      (readQuoted rest).map fun (units, rest) => (utf16Units c ++ units, rest) := by
  rw [readQuoted.eq_def]
  split
  · rename_i heq
    cases heq
  · rename_i heq
    exact absurd (List.cons.inj heq).1 hquote
  · rename_i heq
    exact absurd (List.cons.inj heq).1 hslash
  · rename_i heq
    exact absurd (List.cons.inj heq).1 hslash
  · rename_i heq
    cases heq
    exact if_neg (Char.not_lt.2 hc)

lemma readQuoted_escapeChar (c : Char) (rest : List Char) :
    readQuoted (escapeChar c ++ rest) =
      (readQuoted rest).map fun (units, rest) => (utf16Units c ++ units, rest) := by
  by_cases h : c ∈ lettered
  · simp only [lettered, List.mem_cons, List.not_mem_nil, or_false] at h
    rcases h with rfl | rfl | rfl | rfl | rfl | rfl | rfl <;> rfl
  · rw [escapeChar_of_not_lettered h]
    split
    · rename_i hc
      refine readQuoted_plain ?_ ?_ hc.1 rest
      · rintro rfl
        exact h (by decide)
      · rintro rfl
        exact h (by decide)
    · exact readQuoted_utf16 c rest

lemma readQuoted_escapePoint {p : CodePoint}
    (h : ∀ n, p = .half n → (isHighSurrogate n || isLowSurrogate n) = true) (rest : List Char) :
    readQuoted (escapePoint p ++ rest) =
      (readQuoted rest).map fun (units, rest) => (p.units ++ units, rest) := by
  cases p with
  | char c => exact readQuoted_escapeChar c rest
  | half n =>
    have hn := h n rfl
    simp only [isHighSurrogate, isLowSurrogate, Bool.or_eq_true, Bool.and_eq_true,
      decide_eq_true_eq] at hn
    exact readQuoted_escapeUnit (by omega) rest

lemma readQuoted_points {points : List CodePoint}
    (h : ∀ n, .half n ∈ points → (isHighSurrogate n || isLowSurrogate n) = true)
    (rest : List Char) :
    readQuoted (points.flatMap escapePoint ++ '"' :: rest) =
      some (points.flatMap CodePoint.units, rest) := by
  induction points with
  | nil => rfl
  | cons p points ih =>
    rw [List.flatMap_cons, List.append_assoc, readQuoted_escapePoint, ih, List.flatMap_cons]
    · rfl
    · exact fun n hmem => h n (List.mem_cons_of_mem p hmem)
    · rintro n rfl
      exact h n List.mem_cons_self

theorem first?_quote {text : Loose} (h : text.Joined) (rest : List Char) :
    Element.first? (quote text ++ rest) = some (.atom (.str text), rest) := by
  have hunits : Loose.ofUnits (text.points.flatMap CodePoint.units) = text :=
    congrArg Loose.mk h.ofUnits_units
  rw [quote, List.cons_append, List.cons_append, List.append_assoc, List.singleton_append]
  change (readQuoted _).map _ = _
  rw [readQuoted_points h.halves, Option.map_some]
  dsimp only
  rw [hunits]

/-- The value has no numbers in it; its texts are joined, and the keys of each object differ. -/
inductive Textual : Json → Prop where
  | null : Textual .null
  | bool (value : Bool) : Textual (.bool value)
  | str {text : Loose} (htext : text.Joined) : Textual (.str text)
  | arr {items : List Json} (hitems : ∀ item ∈ items, Textual item) : Textual (.arr items)
  | obj {members : Members} (hnodup : (members.map Prod.fst).Nodup)
    (hkeys : ∀ m ∈ members, m.1.Joined) (hvalues : ∀ m ∈ members, Textual m.2) :
    Textual (.obj members)

namespace Reader

variable {r r₁ r₂ : Reader} {text text₁ text₂ : List Char} {element : Element} {c : Char}

/-- Reading the text, whatever follows it, leads from one state of the reader to another. -/
def Reads (r : Reader) (text : List Char) (r' : Reader) : Prop :=
  ∀ rest, (Element.scan (text ++ rest)).bind r.run = (Element.scan rest).bind r'.run

namespace Reads

lemma refl (r : Reader) : r.Reads [] r :=
  fun _ => rfl

lemma append (h₁ : r.Reads text₁ r₁) (h₂ : r₁.Reads text₂ r₂) : r.Reads (text₁ ++ text₂) r₂ := by
  intro rest
  rw [List.append_assoc, h₁, h₂]

lemma blank (hc : isBlank c = true) (r : Reader) : r.Reads [c] r := by
  intro rest
  rw [List.singleton_append, Element.scan, if_pos hc]

lemma newLine (level : Nat) (r : Reader) : r.Reads (newLine level) r := by
  have hblanks : ∀ n, r.Reads (List.replicate n ' ') r := by
    intro n
    induction n with
    | zero => exact refl r
    | succ n ih => exact append (blank rfl r) ih
  exact append (blank rfl r) (hblanks _)

lemma step (hne : ∀ c ∈ text.head?, isBlank c = false) (htext : text ≠ [])
    (hfirst : ∀ rest, Element.first? (text ++ rest) = some (element, rest))
    (hstep : r.step element = some r₁) : r.Reads text r₁ := by
  intro rest
  obtain ⟨c, text, rfl⟩ := List.exists_cons_of_ne_nil htext
  have hscan : Element.scan (c :: text ++ rest) = (Element.scan rest).map (element :: ·) := by
    rw [List.cons_append, Element.scan, hne c rfl, if_neg Bool.false_ne_true]
    split
    · rename_i found rest' hfound
      rw [← List.cons_append, hfirst] at hfound
      cases hfound
      rfl
    · rename_i hfound
      rw [← List.cons_append, hfirst] at hfound
      cases hfound
  rw [hscan]
  cases Element.scan rest with
  | none => rfl
  | some elements =>
    rw [Option.map_some, Option.bind_some, Option.bind_some, run, hstep]

lemma quote {text : Loose} (h : text.Joined) (hstep : r.step (.atom (.str text)) = some r₁) :
    r.Reads (quote text) r₁ := by
  refine step ?_ (List.cons_ne_nil _ _) (first?_quote h) hstep
  rintro c ⟨⟩
  rfl

lemma mark (c : Char) (hc : c ∈ ['[', ']', '\x7b', '\x7d', ',', ':'])
    (hfirst : ∀ rest, Element.first? (c :: rest) = some (element, rest))
    (hstep : r.step element = some r₁) : r.Reads [c] r₁ := by
  refine step ?_ (List.cons_ne_nil _ _) hfirst hstep
  rintro _ ⟨⟩
  simp only [List.mem_cons, List.not_mem_nil, or_false] at hc
  rcases hc with rfl | rfl | rfl | rfl | rfl | rfl <;> rfl

lemma word {value : Json} (hword : (text, value) ∈ [("null".toList, Json.null),
    ("true".toList, .bool true), ("false".toList, .bool false)])
    (hstep : r.step (.atom value) = some r₁) : r.Reads text r₁ := by
  simp only [List.mem_cons, List.not_mem_nil, or_false, Prod.mk.injEq] at hword
  rcases hword with ⟨rfl, rfl⟩ | ⟨rfl, rfl⟩ | ⟨rfl, rfl⟩
  all_goals
    refine step ?_ (List.cons_ne_nil _ _) (fun rest => ?_) hstep
    · rintro _ ⟨⟩
      rfl
    · rfl

end Reads

variable {frames : List Frame} {level : Nat} {value : Json}

/-- A reader that waits for a value reads it. -/
def Takes (text : List Char) (value : Json) : Prop :=
  ∀ frames position, position = .value ∨ position = .opened →
    Reads ⟨frames, position⟩ text ⟨frames, .after value⟩

lemma reads_items {items done : List Json}
    (h : ∀ item ∈ items, ∀ level, Takes (writeAt level item) item) :
    Reads ⟨.array done :: frames, .after value⟩
      (writeItems (level + 1) items ++ Json.newLine level ++ [']'])
      ⟨frames, .after (.arr (done.reverse ++ value :: items))⟩ := by
  induction items generalizing done value with
  | nil =>
    rw [writeItems, List.nil_append, ← List.reverse_cons]
    exact (Reads.newLine level _).append (.mark ']' (by decide) (fun _ => rfl) rfl)
  | cons item items ih =>
    obtain ⟨hitem, hitems⟩ := List.forall_mem_cons.1 h
    have hcomma : Reads ⟨.array done :: frames, .after value⟩ [',']
        ⟨.array (value :: done) :: frames, .value⟩ := .mark ',' (by decide) (fun _ => rfl) rfl
    have hrest := ((hcomma.append (.newLine (level + 1) _)).append
      (hitem (level + 1) _ _ (.inl rfl))).append (ih hitems)
    rw [List.reverse_cons, List.append_assoc, List.singleton_append] at hrest
    rw [writeItems]
    simpa only [List.append_assoc, List.cons_append, List.nil_append] using hrest

lemma setValue_eq_concat {key : Loose} {members : Members} (h : key ∉ members.map Prod.fst) :
    setValue key value members = members ++ [(key, value)] := by
  induction members with
  | nil => rfl
  | cons m members ih =>
    rw [List.map_cons, List.mem_cons, not_or] at h
    rw [setValue, if_neg (Ne.symm h.1), ih h.2]
    rfl

lemma not_mem_of_nodup {key : Loose} {members done : Members}
    (h : ((done ++ (key, value) :: members).map Prod.fst).Nodup) : key ∉ done.map Prod.fst := by
  rw [List.map_append, List.map_cons, List.nodup_append] at h
  exact fun hmem => h.2.2 key hmem key List.mem_cons_self rfl

lemma reads_member {key : Loose} {done : Members} (hkey : key.Joined)
    (hvalue : Takes (writeAt level value) value) :
    Reads ⟨frames, .key done⟩ (Json.quote key ++ ": ".toList ++ writeAt level value)
      ⟨.object done key :: frames, .after value⟩ := by
  have hquote : Reads ⟨frames, .key done⟩ (Json.quote key) ⟨frames, .colon done key⟩ := by
    refine .quote hkey ?_
    cases done <;> rfl
  have hcolon : Reads ⟨frames, .colon done key⟩ [':'] ⟨.object done key :: frames, .value⟩ :=
    .mark ':' (by decide) (fun _ => rfl) rfl
  exact (hquote.append (hcolon.append (.blank rfl _))).append (hvalue _ _ (.inl rfl))

lemma reads_members {key : Loose} {members done : Members}
    (hnodup : ((done ++ (key, value) :: members).map Prod.fst).Nodup)
    (hkeys : ∀ m ∈ members, m.1.Joined)
    (h : ∀ m ∈ members, ∀ level, Takes (writeAt level m.2) m.2) :
    Reads ⟨.object done key :: frames, .after value⟩
      (writeMembers (level + 1) members ++ Json.newLine level ++ ['\x7d'])
      ⟨frames, .after (.obj (done ++ (key, value) :: members))⟩ := by
  induction members generalizing done key value with
  | nil =>
    have hclose : Reads ⟨.object done key :: frames, .after value⟩ ['\x7d']
        ⟨frames, .after (.obj (setValue key value done))⟩ :=
      .mark '\x7d' (by decide) (fun _ => rfl) rfl
    rw [setValue_eq_concat (not_mem_of_nodup hnodup)] at hclose
    rw [writeMembers, List.nil_append]
    exact (Reads.newLine level _).append hclose
  | cons m members ih =>
    obtain ⟨hkey, hkeys⟩ := List.forall_mem_cons.1 hkeys
    obtain ⟨hvalue, h⟩ := List.forall_mem_cons.1 h
    have hcomma : Reads ⟨.object done key :: frames, .after value⟩ [',']
        ⟨frames, .key (setValue key value done)⟩ := .mark ',' (by decide) (fun _ => rfl) rfl
    rw [setValue_eq_concat (not_mem_of_nodup hnodup)] at hcomma
    have hrest := ((hcomma.append (.newLine (level + 1) _)).append
      (reads_member hkey (hvalue (level + 1)))).append
        (ih (List.append_cons _ _ _ ▸ hnodup) hkeys h)
    rw [List.append_assoc done, List.singleton_append] at hrest
    rw [writeMembers]
    simpa only [List.append_assoc, List.cons_append, List.nil_append] using hrest

/-- A reader that waits for a value reads the written form of one. -/
theorem takes_of_textual {value : Json} (h : value.Textual) :
    ∀ level, Takes (writeAt level value) value := by
  induction h with
  | null =>
    intro level frames position hposition
    refine .word (.head _) ?_
    rcases hposition with rfl | rfl <;> rfl
  | bool value =>
    intro level frames position hposition
    cases value with
    | true =>
      refine .word (.tail _ (.head _)) ?_
      rcases hposition with rfl | rfl <;> rfl
    | false =>
      refine .word (.tail _ (.tail _ (.head _))) ?_
      rcases hposition with rfl | rfl <;> rfl
  | str htext =>
    intro level frames position hposition
    refine .quote htext ?_
    rcases hposition with rfl | rfl <;> rfl
  | @arr items hitems ih =>
    intro level frames position hposition
    have hopen : Reads ⟨frames, position⟩ ['['] ⟨.array [] :: frames, .opened⟩ :=
      .mark '[' (by decide) (fun _ => rfl) (by rcases hposition with rfl | rfl <;> rfl)
    cases items with
    | nil => exact hopen.append (.mark ']' (by decide) (fun _ => rfl) rfl)
    | cons item items =>
      obtain ⟨hitem, ih⟩ := List.forall_mem_cons.1 ih
      have hrest : Reads ⟨.array [] :: frames, .after item⟩
          (writeItems (level + 1) items ++ Json.newLine level ++ [']'])
          ⟨frames, .after (.arr (item :: items))⟩ := reads_items ih
      have hall := ((hopen.append (.newLine (level + 1) _)).append
        (hitem (level + 1) _ _ (.inr rfl))).append hrest
      rw [writeAt]
      simpa only [List.append_assoc, List.cons_append, List.nil_append, List.reverse_nil] using hall
  | @obj members hnodup hkeys hvalues ih =>
    intro level frames position hposition
    have hopen : Reads ⟨frames, position⟩ ['\x7b'] ⟨frames, .key []⟩ :=
      .mark '\x7b' (by decide) (fun _ => rfl) (by rcases hposition with rfl | rfl <;> rfl)
    cases members with
    | nil => exact hopen.append (.mark '\x7d' (by decide) (fun _ => rfl) rfl)
    | cons m members =>
      obtain ⟨hkey, hkeys⟩ := List.forall_mem_cons.1 hkeys
      obtain ⟨hvalue, ih⟩ := List.forall_mem_cons.1 ih
      have hrest : Reads ⟨.object [] m.1 :: frames, .after m.2⟩
          (writeMembers (level + 1) members ++ Json.newLine level ++ ['\x7d'])
          ⟨frames, .after (.obj (m :: members))⟩ := reads_members hnodup hkeys ih
      have hall := ((hopen.append (.newLine (level + 1) _)).append
        (reads_member hkey (hvalue (level + 1)))).append hrest
      rw [writeAt]
      simpa only [List.append_assoc, List.cons_append, List.nil_append] using hall

end Reader

/-- A value without numbers is read back from its written form, whatever blanks follow it. -/
theorem read?_write {value : Json} (h : value.Textual) {blanks : String}
    (hblanks : ∀ c ∈ blanks.toList, isBlank c = true) :
    read? (value.write ++ blanks) = some value := by
  have hrest : ∀ text : List Char, (∀ c ∈ text, isBlank c = true) →
      Element.scan text = some [] := by
    intro text htext
    induction text with
    | nil => rw [Element.scan]
    | cons c text ih =>
      obtain ⟨hc, htext⟩ := List.forall_mem_cons.1 htext
      rw [Element.scan, if_pos hc, ih htext]
  have hreads := Reader.takes_of_textual h 0 [] .value (.inl rfl) blanks.toList
  rw [hrest _ hblanks] at hreads
  rw [read?, write, String.toList_append, String.toList_ofList, readChars?]
  change (Element.scan (writeAt 0 value ++ blanks.toList)).bind
    (fun elements => (Reader.run {} elements).bind Reader.result?) = _
  rw [← Option.bind_assoc, hreads]
  rfl

/-- The text is in ASCII. -/
def IsAscii (text : List Char) : Prop :=
  ∀ c ∈ text, c.toNat < 128

instance (text : List Char) : Decidable (IsAscii text) :=
  List.decidableBAll (fun c : Char => c.toNat < 128) text

namespace IsAscii

variable {text text₁ text₂ : List Char}

lemma append (h₁ : IsAscii text₁) (h₂ : IsAscii text₂) : IsAscii (text₁ ++ text₂) :=
  List.forall_mem_append.2 ⟨h₁, h₂⟩

lemma newLine (level : Nat) : IsAscii (newLine level) := by
  refine List.forall_mem_cons.2 ⟨by decide, fun c hc => ?_⟩
  rw [List.eq_of_mem_replicate hc]
  decide

lemma escapeUnit (n : Nat) : IsAscii (escapeUnit n) := by
  have hdigit : ∀ k, (hexDigit (k % 16)).toNat < 128 :=
    fun k => (hexDigit_eq (k % 16) (Nat.mod_lt _ (by decide))).2.2
  simp [IsAscii, Text.escapeUnit, hdigit]

lemma escapeChar (c : Char) : IsAscii (escapeChar c) := by
  by_cases h : c ∈ lettered
  · simp only [lettered, List.mem_cons, List.not_mem_nil, or_false] at h
    rcases h with rfl | rfl | rfl | rfl | rfl | rfl | rfl <;> decide
  · rw [escapeChar_of_not_lettered h]
    split
    · rename_i hc
      refine List.forall_mem_singleton.2 (Nat.lt_of_le_of_lt ?_ (show ('~').toNat < 128 by decide))
      exact Char.le_def.1 hc.2
    · intro d hd
      obtain ⟨n, -, hd⟩ := List.mem_flatMap.1 hd
      exact escapeUnit n d hd

lemma quote (text : Loose) : IsAscii (quote text) := by
  have hpoints : IsAscii (text.points.flatMap escapePoint) := by
    intro c hc
    obtain ⟨p, -, hc⟩ := List.mem_flatMap.1 hc
    cases p with
    | char d => exact escapeChar d c hc
    | half n => exact escapeUnit n c hc
  exact List.forall_mem_cons.2 ⟨by decide, hpoints.append (List.forall_mem_singleton.2 (by decide))⟩

variable {level : Nat}

lemma items {items : List Json} (h : ∀ item ∈ items, IsAscii (writeAt level item)) :
    IsAscii (writeItems level items) := by
  induction items with
  | nil => exact List.forall_mem_nil _
  | cons item items ih =>
    obtain ⟨hitem, hitems⟩ := List.forall_mem_cons.1 h
    exact List.forall_mem_cons.2 ⟨by decide, ((newLine level).append hitem).append (ih hitems)⟩

lemma members {members : List (Loose × Json)}
    (h : ∀ m ∈ members, IsAscii (writeAt level m.2)) : IsAscii (writeMembers level members) := by
  induction members with
  | nil => exact List.forall_mem_nil _
  | cons m members ih =>
    obtain ⟨hvalue, hmembers⟩ := List.forall_mem_cons.1 h
    have hcolon : IsAscii ": ".toList := by decide
    exact List.forall_mem_cons.2 ⟨by decide,
      ((((newLine level).append (quote m.1)).append hcolon).append hvalue).append (ih hmembers)⟩

end IsAscii

theorem isAscii_writeAt {value : Json} (h : value.Textual) :
    ∀ level, IsAscii (writeAt level value) := by
  induction h with
  | null => exact fun _ => show IsAscii "null".toList by decide
  | bool value =>
    cases value with
    | true => exact fun _ => show IsAscii "true".toList by decide
    | false => exact fun _ => show IsAscii "false".toList by decide
  | @str text htext => exact fun _ => .quote text
  | @arr items hitems ih =>
    intro level
    cases items with
    | nil => exact show IsAscii "[]".toList by decide
    | cons item items =>
      obtain ⟨hitem, hitems⟩ := List.forall_mem_cons.1 fun item hmem => ih item hmem (level + 1)
      have hopen : IsAscii ['['] := by decide
      have hclose : IsAscii [']'] := by decide
      exact ((((hopen.append (.newLine (level + 1))).append hitem).append (.items hitems)).append
        (.newLine level)).append hclose
  | @obj members hnodup hkeys hvalues ih =>
    intro level
    cases members with
    | nil => exact show IsAscii "\x7b\x7d".toList by decide
    | cons m members =>
      obtain ⟨hvalue, hmembers⟩ := List.forall_mem_cons.1 fun m hmem => ih m hmem (level + 1)
      have hopen : IsAscii ['\x7b'] := by decide
      have hcolon : IsAscii ": ".toList := by decide
      have hclose : IsAscii ['\x7d'] := by decide
      exact ((((((hopen.append (.newLine (level + 1))).append (.quote m.1)).append hcolon).append
        hvalue).append (.members hmembers)).append (.newLine level)).append hclose

end Json

end Kconfig
