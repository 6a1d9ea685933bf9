import Kconfig.LineReader
import Mathlib.Tactic.Lemma

/-!
# Files that are text

The bytes of a file are decoded in chunks, and a character may begin in one chunk and end in the
next. Where all bytes together are text, the chunks give this text.
-/

namespace Kconfig

namespace Text

lemma Decoded.cons_eq_whole {width : Nat} {c : Char} {decoded : Decoded} {text : List Char} :
    decoded.cons width c = .whole text ↔ ∃ rest, decoded = .whole rest ∧ text = c :: rest := by
  cases decoded <;> simp [Decoded.cons, eq_comm]

/-- Bytes can be decoded up to a cut, with what is pending there. -/
def DecodesTo (bytes : List UInt8) (text : List Char) (pending : List UInt8) : Prop :=
  decodeUtf8 bytes = .whole text ∧ pending = [] ∨ decodeUtf8 bytes = .cutOff text pending

/-- What is pending is the begin of a character and nothing else. -/
def Pending (bytes : List UInt8) : Prop :=
  bytes = [] ∨ decodeUtf8 bytes = .cutOff [] bytes

/-- The bytes `front` can be decoded up to a cut, and the bytes after them give the rest of the
text. -/
def SplitsText (front back : List UInt8) (text : List Char) : Prop :=
  ∃ before pending after, DecodesTo front before pending ∧ Pending pending ∧
    decodeUtf8 (pending ++ back) = .whole after ∧ text = before ++ after

lemma SplitsText.of_cutOff {front back : List UInt8} {text : List Char}
    (hcut : decodeUtf8 front = .cutOff [] front) (h : decodeUtf8 (front ++ back) = .whole text) :
    SplitsText front back text :=
  ⟨[], front, text, .inr hcut, .inr hcut, h, rfl⟩

lemma SplitsText.cons (head : List UInt8) (width : Nat) (c : Char) {tail back : List UInt8}
    {text : List Char}
    (hstep : ∀ more, decodeUtf8 (head ++ (tail ++ more)) = (decodeUtf8 (tail ++ more)).cons width c)
    (h : decodeUtf8 (head ++ (tail ++ back)) = .whole text)
    (ih : ∀ {text}, decodeUtf8 (tail ++ back) = .whole text → SplitsText tail back text) :
    SplitsText (head ++ tail) back text := by
  rw [hstep] at h
  obtain ⟨rest, hrest, rfl⟩ := Decoded.cons_eq_whole.1 h
  obtain ⟨before, pending, after, hbefore, hpending, hafter, rfl⟩ := ih hrest
  refine ⟨c :: before, pending, after, ?_, hpending, hafter, rfl⟩
  have hfront : decodeUtf8 (head ++ tail) = (decodeUtf8 tail).cons width c := by
    have hnil := hstep []
    rwa [List.append_nil] at hnil
  rcases hbefore with ⟨hwhole, hnil⟩ | hcut
  · exact .inl ⟨by rw [hfront, hwhole]; rfl, hnil⟩
  · exact .inr (by rw [hfront, hcut]; rfl)

lemma splitsText_of_append {front back : List UInt8} {text : List Char}
    (h : decodeUtf8 (front ++ back) = .whole text) : SplitsText front back text := by
  fun_induction decodeUtf8 front generalizing text with
  | case1 => exact ⟨[], [], text, .inl ⟨rfl, rfl⟩, .inl rfl, h, rfl⟩
  | case2 a as ha ih =>
    refine .cons [a] 1 (Char.ofNat a.toNat) (fun more => ?_) h ih
    change decodeUtf8 (a :: (as ++ more)) = _
    rw [decodeUtf8.eq_def]
    exact if_pos ha
  | case7 a h₁ h₂ h₃ b bs hb ha ih =>
    refine .cons [a, b] 2 (charOfBits (a.toNat % 32) [b]) (fun more => ?_) h ih
    change decodeUtf8 (a :: b :: (bs ++ more)) = _
    rw [decodeUtf8.eq_def]
    simp only [if_neg h₁, if_neg h₂, if_pos h₃, if_neg hb, if_pos ha]
  | case10 a h₁ h₂ h₃ b hb ha c cs hc h₄ ih =>
    refine .cons [a, b, c] 3 (charOfBits (a.toNat % 16) [b, c]) (fun more => ?_) h ih
    change decodeUtf8 (a :: b :: c :: (cs ++ more)) = _
    rw [decodeUtf8.eq_def]
    simp only [if_neg h₁, if_neg h₂, if_pos h₃, if_neg hb, if_neg ha, if_neg hc, if_pos h₄]
  | case13 a h₁ h₂ h₃ b hb ha c hc h₄ d ds hd ih =>
    refine .cons [a, b, c, d] 4 (charOfBits (a.toNat % 8) [b, c, d]) (fun more => ?_) h ih
    change decodeUtf8 (a :: b :: c :: d :: (ds ++ more)) = _
    rw [decodeUtf8.eq_def]
    simp only [if_neg h₁, if_neg h₂, if_pos h₃, if_neg hb, if_neg ha, if_neg hc, if_neg h₄,
      if_neg hd]
  | case4 a h₁ h₂ h₃ =>
    refine .of_cutOff ?_ h
    rw [decodeUtf8.eq_def]
    simp only [if_neg h₁, if_neg h₂, if_pos h₃]
  | case5 a h₁ h₂ h₃ b bs hb hbegins =>
    obtain rfl := List.isEmpty_iff.1 (Bool.and_eq_true_iff.1 hbegins).2
    refine .of_cutOff ?_ h
    rw [decodeUtf8.eq_def]
    simp only [if_neg h₁, if_neg h₂, if_pos h₃, if_pos hb, if_pos hbegins]
  | case8 a h₁ h₂ h₃ b hb ha =>
    refine .of_cutOff ?_ h
    rw [decodeUtf8.eq_def]
    simp only [if_neg h₁, if_neg h₂, if_pos h₃, if_neg hb, if_neg ha]
  | case11 a h₁ h₂ h₃ b hb ha c hc h₄ =>
    refine .of_cutOff ?_ h
    rw [decodeUtf8.eq_def]
    simp only [if_neg h₁, if_neg h₂, if_pos h₃, if_neg hb, if_neg ha, if_neg hc, if_neg h₄]
  -- In all other cases some byte cannot stand where it does, whatever follows.
  | case3 a as h₁ h₂ =>
    rw [List.cons_append, decodeUtf8.eq_def] at h
    simp only [if_neg h₁, if_pos h₂] at h
    cases h
  | case6 a h₁ h₂ h₃ b bs hb hbegins =>
    have hbegins' : ¬(beginsSurrogate a b && (bs ++ back).isEmpty) = true := by
      simp_all
    rw [List.cons_append, List.cons_append, decodeUtf8.eq_def] at h
    simp only [if_neg h₁, if_neg h₂, if_pos h₃, if_pos hb, if_neg hbegins'] at h
    cases h
  | case9 a h₁ h₂ h₃ b hb ha c cs hc =>
    rw [List.cons_append, List.cons_append, List.cons_append, decodeUtf8.eq_def] at h
    simp only [if_neg h₁, if_neg h₂, if_pos h₃, if_neg hb, if_neg ha, if_pos hc] at h
    cases h
  | case12 a h₁ h₂ h₃ b hb ha c hc h₄ d ds hd =>
    rw [List.cons_append, List.cons_append, List.cons_append, List.cons_append,
      decodeUtf8.eq_def] at h
    simp only [if_neg h₁, if_neg h₂, if_pos h₃, if_neg hb, if_neg ha, if_neg hc, if_neg h₄,
      if_pos hd] at h
    cases h
  | case14 a as h₁ h₂ h₃ =>
    rw [List.cons_append, decodeUtf8.eq_def] at h
    simp only [if_neg h₁, if_neg h₂, if_neg h₃] at h
    cases h

lemma decodeChunks_of_whole {pending : List UInt8} {chunks : List (List UInt8)} {text : List Char}
    (hpending : Pending pending) (h : decodeUtf8 (pending ++ chunks.flatten) = .whole text) :
    decodeChunks pending chunks = ({ text, error := none }, []) := by
  induction chunks generalizing pending text with
  | nil =>
    rw [List.flatten_nil, List.append_nil] at h
    rcases hpending with rfl | hcut
    · cases h
      rfl
    · rw [h] at hcut
      cases hcut
  | cons chunk chunks ih =>
    rw [List.flatten_cons, ← List.append_assoc] at h
    obtain ⟨before, left, after, hbefore, hleft, hafter, rfl⟩ := splitsText_of_append h
    have hrest := ih hleft hafter
    rcases hbefore with ⟨hwhole, rfl⟩ | hcut
    · rw [decodeChunks, hwhole]
      dsimp only
      rw [hrest]
      rfl
    · rw [decodeChunks, hcut]
      dsimp only
      rw [hrest]
      rfl

lemma flatten_chunks {count : Nat} {bytes : List UInt8} (h : bytes.length ≤ count) :
    (chunks count bytes).flatten = bytes := by
  induction count generalizing bytes with
  | zero => rw [List.length_eq_zero_iff.1 (Nat.le_zero.1 h)]; rfl
  | succ count ih =>
    rw [chunks]
    split
    · rename_i hnil
      rw [List.isEmpty_iff.1 hnil]
      rfl
    · rename_i hne
      rw [List.flatten_cons, ih, List.take_append_drop]
      rw [List.length_drop, chunkSize]
      omega

theorem passages_of_whole {bytes : List UInt8} {text : List Char}
    (h : decodeUtf8 bytes = .whole text) : passages bytes = ({ text, error := none }, []) := by
  refine decodeChunks_of_whole (.inl rfl) ?_
  rwa [List.nil_append, flatten_chunks (Nat.le_refl _)]

/-- What stands after each passage. -/
def errors (passages : Passage × List Passage) : List (Option DecodeError) :=
  (passages.1 :: passages.2).map (·.error)

lemma eq_nil_of_suffix_errors {pending : List UInt8} {chunks : List (List UInt8)}
    {later : List (Option DecodeError)}
    (h : none :: later <:+ errors (decodeChunks pending chunks)) : later = [] := by
  fun_induction decodeChunks pending chunks with
  | case1 pending =>
    rcases List.suffix_cons_iff.1 h with heq | hnil
    · exact (List.cons.inj heq).2
    · cases List.suffix_nil.1 hnil
  | case2 pending chunk chunks text hdecoded ih => exact ih h
  | case3 pending chunk chunks text left hdecoded ih => exact ih h
  | case4 pending chunk chunks error hdecoded first passages hpassages ih =>
    rcases List.suffix_cons_iff.1 h with heq | hsuffix
    · cases heq
    · rw [hpassages] at ih
      exact ih hsuffix

end Text

namespace Stretch

/-- What stands after each stretch of a file. -/
def errors (bytes : List UInt8) : List (Option Text.DecodeError) :=
  ((ofBytes bytes).1 :: (ofBytes bytes).2).map (·.error)

lemma error_ofText (text : List Char) (error : Option Text.DecodeError) :
    (ofText text error).error = error := by
  cases error <;> rfl

lemma errors_after (text : List Char) (passages : List Text.Passage) :
    (after text passages).map (·.error) = passages.map (·.error) := by
  induction passages generalizing text with
  | nil => rfl
  | cons passage passages ih => rw [after, List.map_cons, List.map_cons, ih, error_ofText]

lemma errors_eq (bytes : List UInt8) : errors bytes = Text.errors (Text.passages bytes) := by
  rw [errors, ofBytes, Text.errors, List.map_cons, List.map_cons, errors_after, error_ofText]

lemma error_damage (s : Stretch) : s.damage.map (·.error) = s.error := by
  rw [damage, Option.map_map]
  exact Option.map_id'

lemma eq_nil_of_suffix_errors {bytes : List UInt8} {later : List (Option Text.DecodeError)}
    (h : none :: later <:+ errors bytes) : later = [] := by
  rw [errors_eq] at h
  exact Text.eq_nil_of_suffix_errors h

end Stretch

namespace LineReader

/-- What stands after each stretch that is left. -/
def errors (r : LineReader) : List (Option Text.DecodeError) :=
  r.damage.map (·.error) :: r.later.map (·.error)

variable {bytes : List UInt8} {r r' : LineReader} {damage : Damage}

lemma errors_ofBytes (file : String) (bytes : List UInt8) :
    (ofBytes file bytes).errors = Stretch.errors bytes :=
  congrArg (· :: _) (Stretch.error_damage _)

lemma later_eq_nil (h : r.errors <:+ Stretch.errors bytes) (hdamage : r.damage = none) :
    r.later = [] := by
  rw [errors, hdamage] at h
  exact List.map_eq_nil_iff.1 (Stretch.eq_nil_of_suffix_errors h)

lemma afterDamage_of_last (hdamage : r.damage = some damage) (hlater : r.later = []) :
    r.afterDamage = { r with
      linenr := r.linenr + damage.torn
      rest := []
      damage := some { damage with torn := 0 } } := by
  unfold afterDamage
  rw [hdamage, hlater]

lemma afterDamage_of_later {next : Stretch} {later : List Stretch}
    (hdamage : r.damage = some damage) (hlater : r.later = next :: later) :
    r.afterDamage = { r with
      linenr := r.linenr + damage.torn
      rest := next.lines
      damage := next.damage
      later } := by
  unfold afterDamage
  rw [hdamage, hlater]

lemma errors_afterDamage (r : LineReader) : r.afterDamage.errors <:+ r.errors := by
  cases hdamage : r.damage with
  | none =>
    have hsame : r.afterDamage = r := by
      unfold afterDamage
      rw [hdamage]
    exact ⟨[], congrArg errors hsame⟩
  | some damage =>
    cases hlater : r.later with
    | nil =>
      rw [afterDamage_of_last hdamage hlater, errors, errors, hdamage]
      exact List.suffix_rfl
    | cons next later =>
      rw [afterDamage_of_later hdamage hlater, errors, errors, hlater]
      dsimp only
      rw [Stretch.error_damage, List.map_cons]
      exact List.suffix_cons _ _

end LineReader

theorem Stretch.ofBytes_of_whole {bytes : List UInt8} {text : List Char}
    (h : Text.decodeUtf8 bytes = .whole text) : Stretch.ofBytes bytes =
      ({ physical := physicalLines (foldLineBreaks text), error := none }, []) := by
  rw [ofBytes, Text.passages_of_whole h]
  rfl

theorem Line.ofBytes_of_whole {bytes : List UInt8} {text : List Char}
    (h : Text.decodeUtf8 bytes = .whole text) : Line.ofBytes bytes = (ofText text, none) := by
  rw [ofBytes, Stretch.ofBytes_of_whole h]
  rfl

theorem LineReader.ofBytes_of_whole (file : String) {bytes : List UInt8} {text : List Char}
    (h : Text.decodeUtf8 bytes = .whole text) :
    LineReader.ofBytes file bytes = { file, rest := Line.ofText text } := by
  rw [ofBytes, Stretch.ofBytes_of_whole h]
  rfl

end Kconfig
