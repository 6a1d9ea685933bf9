import Kconfig.Proofs.LineNumbers

/-!
# Where lines start

Each line of a file starts at the number of its first physical line. Physical lines that are lost in
front of an error count as well. What a line reader has ahead are the lines that follow those it has
read, each where it starts.
-/

namespace Kconfig

/-- A line and the number of its first physical line. -/
structure Placed where
  line : Line
  start : Nat
  deriving Repr, DecidableEq

namespace Line

/-- The lines behind `n` physical lines. -/
def place (n : Nat) : List Line → List Placed
  | [] => []
  | line :: lines => ⟨line, n + 1⟩ :: place (n + line.height) lines

/-- The lines of stretches behind `n` physical lines. -/
def placeStretches (n : Nat) : List Stretch → List Placed
  | [] => []
  | s :: later => place n s.lines ++ placeStretches (n + s.physical.length) later

/-- The lines of a file. -/
def placed (bytes : List UInt8) : List Placed :=
  placeStretches 0 ((Stretch.ofBytes bytes).1 :: (Stretch.ofBytes bytes).2)

variable {n : Nat} {lines : List Line} {stretches : List Stretch} {p : Placed}

lemma lt_start_of_mem_place (h : p ∈ place n lines) : n < p.start := by
  induction lines generalizing n with
  | nil => cases h
  | cons line lines ih =>
    rcases List.mem_cons.1 h with rfl | h
    · exact Nat.lt_succ_self n
    · exact Nat.lt_of_le_of_lt (Nat.le_add_right _ _) (ih h)

lemma start_le_of_mem_place (hheight : ∀ line ∈ lines, 0 < line.height) (h : p ∈ place n lines) :
    p.start ≤ n + totalHeight lines := by
  induction lines generalizing n with
  | nil => cases h
  | cons line lines ih =>
    obtain ⟨hfirst, hothers⟩ := List.forall_mem_cons.1 hheight
    rw [totalHeight_cons]
    rcases List.mem_cons.1 h with rfl | h
    · exact Nat.add_le_add_left (Nat.le_trans hfirst (Nat.le_add_right _ _)) _
    · rw [← Nat.add_assoc]
      exact ih hothers h

lemma pairwise_place (hheight : ∀ line ∈ lines, 0 < line.height) :
    (place n lines).Pairwise (·.start < ·.start) := by
  induction lines generalizing n with
  | nil => exact .nil
  | cons line lines ih =>
    obtain ⟨hfirst, hothers⟩ := List.forall_mem_cons.1 hheight
    refine .cons (fun p hmem => ?_) (ih hothers)
    have hlt := lt_start_of_mem_place hmem
    dsimp only
    omega

lemma lt_start_of_mem_placeStretches (h : p ∈ placeStretches n stretches) : n < p.start := by
  induction stretches generalizing n with
  | nil => cases h
  | cons s later ih =>
    rcases List.mem_append.1 h with h | h
    · exact lt_start_of_mem_place h
    · exact Nat.lt_of_le_of_lt (Nat.le_add_right _ _) (ih h)

lemma pairwise_placeStretches (n : Nat) (stretches : List Stretch) :
    (placeStretches n stretches).Pairwise (·.start < ·.start) := by
  induction stretches generalizing n with
  | nil => exact .nil
  | cons s later ih =>
    have hheight : ∀ line ∈ s.lines, 0 < line.height := fun _ => height_ofPhysical
    refine List.pairwise_append.2 ⟨pairwise_place hheight, ih _, fun p hp q hq => ?_⟩
    have hp := start_le_of_mem_place hheight hp
    have hq := lt_start_of_mem_placeStretches hq
    have hle := totalHeight_stretch s
    omega

lemma start_pos {bytes : List UInt8} (h : p ∈ placed bytes) : 0 < p.start :=
  lt_start_of_mem_placeStretches h

theorem pairwise_placed (bytes : List UInt8) : (placed bytes).Pairwise (·.start < ·.start) :=
  pairwise_placeStretches _ _

end Line

namespace LineReader

/-- The lines to come. -/
def ahead (r : LineReader) : List Placed :=
  Line.place r.linenr r.upcoming ++ Line.placeStretches
    (r.linenr + Line.totalHeight r.upcoming + r.damage.elim 0 (·.torn)) r.later

variable {bytes : List UInt8} {r r' : LineReader} {text : List Char} {error : Text.DecodeError}

lemma ahead_ofBytes (file : String) (bytes : List UInt8) :
    (ofBytes file bytes).ahead = Line.placed bytes := by
  have hlength := Line.totalHeight_add_torn (Stretch.ofBytes bytes).1
  change Line.place 0 _ ++ Line.placeStretches (0 + _ + _) _ = _
  rw [Line.placed, Line.placeStretches, ← hlength, Nat.add_assoc]
  rfl

lemma ahead_of_next (h : r.next = .ok (some text, r')) : ∃ line, text = line.text ∧
    r.ahead = ⟨line, r'.lineStart⟩ :: r'.ahead ∧ r'.unread = none ∧ r'.errors = r.errors ∧
      r'.lastHeight = line.height ∧ r'.linenr + 1 = r'.lineStart + line.height := by
  have hsame : r'.damage = r.damage ∧ r'.later = r.later := by
    unfold next at h
    split at h
    · cases h
      exact ⟨rfl, rfl⟩
    · split at h
      · cases h
        exact ⟨rfl, rfl⟩
      · split at h <;> cases h
  obtain ⟨line, rest, hup, htext, hup', hunread, hlinenr, hstart, hlast, -⟩ := next_eq_some h
  refine ⟨line, htext, ?_, hunread, ?_, hlast, ?_⟩
  · rw [ahead, ahead, hup, hup', hlinenr, hstart, hsame.1, hsame.2, Line.place,
      Line.totalHeight_cons, ← Nat.add_assoc]
    rfl
  · rw [errors, errors, hsame.1, hsame.2]
  · rw [hlinenr, hstart, Nat.add_right_comm]

lemma ahead_of_fileEnd (herrors : r.errors <:+ Stretch.errors bytes)
    (h : r.next = .ok (none, r')) : r.ahead = [] := by
  unfold next at h
  split at h
  · cases h
  · rename_i hunread
    split at h
    · cases h
    · rename_i hrest
      split at h
      · cases h
      · rename_i hdamage
        rw [ahead, upcoming, hunread, hrest, later_eq_nil herrors hdamage]
        rfl

lemma ahead_afterDamage (h : r.next = .error error) : r.afterDamage.ahead = r.ahead := by
  unfold next at h
  split at h
  · cases h
  · rename_i hunread
    split at h
    · cases h
    · rename_i hrest
      split at h
      · rename_i damage hdamage
        cases hlater : r.later with
        | nil =>
          rw [afterDamage_of_last hdamage hlater, ahead, ahead, upcoming, upcoming, hunread, hrest,
            hlater]
          rfl
        | cons s later =>
          rw [afterDamage_of_later hdamage hlater, ahead, ahead, upcoming, upcoming, hunread,
            hrest, hlater, hdamage]
          dsimp only [Option.toList_none, List.nil_append, Option.elim_some]
          rw [Nat.add_assoc _ (Line.totalHeight _), Line.totalHeight_add_torn]
          rfl
      · cases h

lemma ahead_putBack (hunread : r.unread = none) (hle : r.lastHeight ≤ r.linenr)
    (h : r.putBack text = .ok r') :
    r'.errors = r.errors ∧
      r'.ahead = ⟨⟨text, r.lastHeight⟩, r.linenr - r.lastHeight + 1⟩ :: r.ahead := by
  unfold putBack at h
  rw [hunread] at h
  cases h
  refine ⟨rfl, ?_⟩
  rw [ahead, ahead, upcoming, upcoming, hunread]
  dsimp only [Option.toList_some, Option.toList_none, List.nil_append, List.cons_append, Line.place]
  rw [Line.totalHeight_cons, Nat.sub_add_cancel hle, ← Nat.add_assoc, Nat.sub_add_cancel hle]

end LineReader

end Kconfig
