import Kconfig.LineReader
import Kconfig.Proofs.Decoding
import Mathlib.Algebra.GroupWithZero.Nat
import Mathlib.Tactic.Lemma

/-!
# Line numbers

A line reader counts the physical lines of its file. The numbers that it gives never exceed the
number of lines of the file, although a line can be put back and joined lines are counted together.
-/

namespace Kconfig

namespace Line

/-- The physical lines that can be read of a file. -/
def physical (bytes : List UInt8) : List (List Char) :=
  let stretches := Stretch.ofBytes bytes
  (stretches.1 :: stretches.2).flatMap (·.physical)

def totalHeight (lines : List Line) : Nat :=
  (lines.map (·.height)).sum

lemma totalHeight_cons (line : Line) (lines : List Line) :
    totalHeight (line :: lines) = line.height + totalHeight lines :=
  List.sum_cons

lemma totalHeight_joinFrom (cut : Bool) (text : List Char) (height : Nat)
    (lines : List (List Char)) :
    totalHeight (joinFrom cut text height lines) ≤ height + lines.length := by
  fun_induction joinFrom cut text height lines with
  | case1 text height start h hcut => exact Nat.zero_le _
  | case2 text height start h hcut => rw [totalHeight_cons]; exact Nat.le_refl _
  | case3 text height h => rw [totalHeight_cons]; exact Nat.le_refl _
  | case4 text height next lines start h ih =>
    rw [List.length_cons]
    omega
  | case5 text height next lines h ih =>
    rw [totalHeight_cons, List.length_cons]
    dsimp only
    omega

lemma height_joinFrom {cut : Bool} {text : List Char} {height : Nat} {lines : List (List Char)}
    (hheight : 0 < height) {line : Line} (hmem : line ∈ joinFrom cut text height lines) :
    0 < line.height := by
  fun_induction joinFrom cut text height lines with
  | case1 text height start h hcut => cases hmem
  | case2 text height start h hcut =>
    rw [List.mem_singleton.1 hmem]
    exact hheight
  | case3 text height h =>
    rw [List.mem_singleton.1 hmem]
    exact hheight
  | case4 text height next lines start h ih => exact ih (Nat.succ_pos _) hmem
  | case5 text height next lines h ih =>
    rcases List.mem_cons.1 hmem with rfl | hmem
    · exact hheight
    · exact ih Nat.one_pos hmem

lemma totalHeight_ofPhysical (cut : Bool) (lines : List (List Char)) :
    totalHeight (ofPhysical cut lines) ≤ lines.length := by
  cases lines with
  | nil => exact Nat.le_refl _
  | cons line lines =>
    have h := totalHeight_joinFrom cut line 1 lines
    rw [List.length_cons, Nat.add_comm]
    exact h

lemma height_ofPhysical {cut : Bool} {lines : List (List Char)} {line : Line}
    (hmem : line ∈ ofPhysical cut lines) : 0 < line.height := by
  cases lines with
  | nil => cases hmem
  | cons first lines => exact height_joinFrom Nat.one_pos hmem

lemma totalHeight_joinFrom_false (text : List Char) (height : Nat) (lines : List (List Char)) :
    totalHeight (joinFrom false text height lines) = height + lines.length := by
  induction lines generalizing text height with
  | nil =>
    rw [joinFrom]
    split <;> rfl
  | cons next lines ih =>
    rw [joinFrom, List.length_cons]
    split
    · rw [ih, Nat.add_right_comm, Nat.add_assoc]
    · rw [totalHeight_cons, ih, Nat.add_comm 1]

lemma totalHeight_ofPhysical_false (lines : List (List Char)) :
    totalHeight (ofPhysical false lines) = lines.length := by
  cases lines with
  | nil => rfl
  | cons line lines => rw [ofPhysical, totalHeight_joinFrom_false, List.length_cons, Nat.add_comm]

lemma joinFrom_eq_cons {cut : Bool} {text : List Char} {height : Nat} {lines : List (List Char)}
    {line : Line} {rest : List Line} (h : joinFrom cut text height lines = line :: rest) :
    ∃ taken left, lines = taken ++ left ∧ line.height = height + taken.length ∧
      rest = ofPhysical cut left := by
  fun_induction joinFrom cut text height lines with
  | case1 text height start hjoin hcut => cases h
  | case2 text height start hjoin hcut =>
    cases h
    exact ⟨[], [], rfl, rfl, rfl⟩
  | case3 text height hend =>
    cases h
    exact ⟨[], [], rfl, rfl, rfl⟩
  | case4 text height next lines start hjoin ih =>
    obtain ⟨taken, left, rfl, hheight, hrest⟩ := ih h
    refine ⟨next :: taken, left, rfl, ?_, hrest⟩
    rw [hheight, List.length_cons, Nat.add_right_comm, Nat.add_assoc]
  | case5 text height next lines hend ih =>
    cases h
    exact ⟨[], next :: lines, rfl, rfl, rfl⟩

lemma ofPhysical_eq_cons {cut : Bool} {lines : List (List Char)} {line : Line} {rest : List Line}
    (h : ofPhysical cut lines = line :: rest) :
    ∃ taken left, lines = taken ++ left ∧ taken.length = line.height ∧
      rest = ofPhysical cut left := by
  cases lines with
  | nil => cases h
  | cons first lines =>
    obtain ⟨taken, left, rfl, hheight, hrest⟩ := joinFrom_eq_cons h
    exact ⟨first :: taken, left, rfl, by rw [hheight, List.length_cons, Nat.add_comm], hrest⟩

end Line

/-- The number of physical lines that can be read of a file. -/
def lineCount (bytes : List UInt8) : Nat :=
  (Line.physical bytes).length

namespace Line

lemma totalHeight_stretch (s : Stretch) : totalHeight s.lines ≤ s.physical.length :=
  totalHeight_ofPhysical _ _

lemma totalHeight_add_torn (s : Stretch) :
    totalHeight s.lines + s.damage.elim 0 (·.torn) = s.physical.length := by
  cases herror : s.error with
  | none =>
    rw [Stretch.damage, herror, Stretch.lines, herror]
    exact totalHeight_ofPhysical_false _
  | some error =>
    rw [Stretch.damage, herror]
    exact Nat.add_sub_of_le (totalHeight_stretch s)

lemma totalHeight_ofBytes (bytes : List UInt8) :
    totalHeight (ofBytes bytes).1 ≤ lineCount bytes := by
  rw [lineCount, physical, List.flatMap_cons, List.length_append]
  exact Nat.le_trans (totalHeight_stretch _) (Nat.le_add_right _ _)

lemma height_ofBytes {bytes : List UInt8} {line : Line} (hmem : line ∈ (ofBytes bytes).1) :
    0 < line.height :=
  height_ofPhysical hmem

end Line

namespace LineReader

def upcoming (r : LineReader) : List Line :=
  r.unread.toList ++ r.rest

/-- The reader is inside a file of the given number of lines. -/
structure Within (height : Nat) (r : LineReader) : Prop where
  heights : ∀ line ∈ r.upcoming, 0 < line.height
  total : r.linenr + Line.totalHeight r.upcoming ≤ height
  lineStart_le : r.lineStart ≤ height

/-- A line has been delivered last. -/
structure Delivered (r : LineReader) : Prop where
  unread : r.unread = none
  lastHeight_pos : 0 < r.lastHeight
  lastHeight_le : r.lastHeight ≤ r.linenr
  lineStart_pos : 0 < r.lineStart

variable {height : Nat} {r r' : LineReader}

lemma within_ofBytes (file : String) (bytes : List UInt8) :
    (ofBytes file bytes).Within (lineCount bytes) where
  heights := fun _ hmem => Line.height_ofBytes hmem
  total := by
    have h := Line.totalHeight_ofBytes bytes
    rwa [← Nat.zero_add (Line.totalHeight _)] at h
  lineStart_le := Nat.zero_le _

lemma next_eq_some {text : List Char} (h : r.next = .ok (some text, r')) :
    ∃ line rest, r.upcoming = line :: rest ∧ text = line.text ∧ r'.upcoming = rest ∧
      r'.unread = none ∧ r'.linenr = r.linenr + line.height ∧ r'.lineStart = r.linenr + 1 ∧
        r'.lastHeight = line.height ∧ r'.file = r.file := by
  unfold next at h
  unfold upcoming
  split at h
  · rename_i line hunread
    cases h
    exact ⟨line, r.rest, by rw [hunread]; rfl, rfl, rfl, rfl, rfl, rfl, rfl, rfl⟩
  · rename_i hunread
    split at h
    · rename_i line rest hrest
      cases h
      refine ⟨line, rest, by rw [hunread, hrest]; rfl, rfl, ?_, hunread, rfl, rfl, rfl, rfl⟩
      dsimp only [take]
      rw [hunread]
      rfl
    · split at h <;> cases h

lemma next_within {text : List Char} (hw : r.Within height) (h : r.next = .ok (some text, r')) :
    r'.Within height ∧ r'.Delivered := by
  obtain ⟨line, rest, hup, -, hup', hunread, hlinenr, hstart, hlast, -⟩ := next_eq_some h
  have hheight := hw.heights line (by rw [hup]; exact List.mem_cons_self)
  have htotal := hw.total
  rw [hup, Line.totalHeight_cons] at htotal
  constructor
  · refine ⟨?_, ?_, ?_⟩
    · rw [hup']
      exact fun l hl => hw.heights l (by rw [hup]; exact List.mem_cons_of_mem _ hl)
    · rw [hup', hlinenr]
      omega
    · omega
  · exact ⟨hunread, by omega, by omega, by omega⟩

lemma putBack_within (hw : r.Within height) (hd : r.Delivered) (text : List Char) :
    ∃ r', r.putBack text = .ok r' ∧ r'.Within height ∧ r'.lineStart = r.lineStart ∧
      r'.file = r.file := by
  unfold putBack
  rw [hd.unread]
  refine ⟨_, rfl, ⟨?_, ?_, hw.lineStart_le⟩, rfl, rfl⟩
  · intro line hmem
    rcases List.mem_cons.1 hmem with rfl | hmem
    · exact hd.lastHeight_pos
    · refine hw.heights line ?_
      rw [upcoming, hd.unread]
      exact hmem
  · have htotal := hw.total
    have hle := hd.lastHeight_le
    rw [upcoming, hd.unread] at htotal
    rw [upcoming, Option.toList_some, List.singleton_append, Line.totalHeight_cons]
    dsimp only [Option.toList_none, List.nil_append] at htotal ⊢
    omega

end LineReader

end Kconfig
