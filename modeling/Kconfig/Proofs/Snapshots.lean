import Kconfig.FileSystem.Snapshot
import Mathlib.Data.List.Basic
import Mathlib.Tactic.Lemma

/-!
# Changes to snapshots

Writing to a file of a snapshot changes what this file holds and nothing else. When a file is
deleted, the directory it stands in stays; the paths that lead to the file lead nowhere then, and so
do those that try to go on from it.
-/

namespace Kconfig.Snapshot

variable {s : Snapshot} {trail : List Path.Name} {place : List Path.Name}

lemma node_write (s : Snapshot) (file : String) (old new : List UInt8) (trail : List Path.Name) :
    (s.write file new).node trail = (s.write file old).node trail ∨
      ((s.write file old).node trail = .file old ∧ (s.write file new).node trail = .file new) := by
  unfold node write
  by_cases hfile : Path.absoluteComponents s.working file.toList == trail.reverse
  · right
    simp only [List.find?_cons, hfile]
    exact ⟨trivial, trivial⟩
  · left
    simp only [List.find?_cons, hfile, List.map_cons]

lemma walk_write (s : Snapshot) (file : String) (old new : List UInt8) (names : List Path.Name)
    (place : Place) :
    (s.write file new).walk place names = (s.write file old).walk place names := by
  induction names generalizing place with
  | nil => rfl
  | cons name names ih =>
    have henter : (s.write file new).enter place name = (s.write file old).enter place name := by
      cases place with
      | outside => rfl
      | inside trail =>
        unfold enter
        dsimp only
        rcases node_write s file old new trail with hsame | ⟨hold, hnew⟩
        · rw [hsame]
        · rw [hold, hnew]
    rw [walk, walk, henter]
    split
    · rfl
    · exact ih _

lemma look_write (s : Snapshot) (file : String) (old new : List UInt8) (path : List Char) :
    (s.write file new).look path = (s.write file old).look path ∨
      ((s.write file old).look path = .file old ∧ (s.write file new).look path = .file new) := by
  unfold look
  split
  · exact .inl rfl
  · split
    · exact .inl rfl
    · have hworking : (s.write file new).working = (s.write file old).working := rfl
      rw [walk_write s file old new, hworking]
      generalize (s.write file old).walk _ _ = reached
      match reached with
      | .error target => exact .inl rfl
      | .ok .outside => exact .inl rfl
      | .ok (.inside trail) => exact node_write s file old new trail
/-- The snapshot without the file at a place, given by its path from the base. -/
def delete (s : Snapshot) (place : List Path.Name) : Snapshot :=
  { s with
    files := s.files.filter (·.1 ≠ place)
    directories := place.dropLast :: s.directories }

/-- A file stands at the place, and nothing below it. -/
structure Lone (s : Snapshot) (place : List Path.Name) (bytes : List UInt8) : Prop where
  file : s.node place.reverse = .file bytes
  directories : ∀ path ∈ s.working :: s.directories, ¬place <+: path
  files : ∀ entry ∈ s.files, place <+: entry.1 → entry.1 = place

namespace Lone

variable {bytes : List UInt8}

lemma mem_files (h : s.Lone place bytes) : place ∈ s.files.map (·.1) := by
  have hfile := h.file
  unfold node at hfile
  split at hfile
  · rename_i entry hfind
    have hplace : entry.1 = place := by simpa using List.find?_some hfind
    exact List.mem_map.2 ⟨entry, List.mem_of_find?_eq_some hfind, hplace⟩
  · split at hfile <;> cases hfile

lemma find?_delete (s : Snapshot) (place path : List Path.Name) :
    (s.delete place).files.find? (·.1 == path) =
      if path = place then none else s.files.find? (·.1 == path) := by
  unfold delete
  dsimp only
  rw [List.find?_filter]
  split
  · rename_i hpath
    simp [hpath]
  · rename_i hpath
    congr 1
    funext entry
    by_cases hentry : entry.1 = path
    · simp [hentry, hpath]
    · simp [hentry]

/-- Where a directory is needed, it stands already: the directory of the file, or one that is the
way to another path. -/
lemma any_delete (h : s.Lone place bytes) (path : List Path.Name) :
    ((s.delete place).working :: (s.delete place).directories ++
        (s.delete place).files.map (·.1)).any (path.isPrefixOf ·) =
      if path = place then false
      else (s.working :: s.directories ++ s.files.map (·.1)).any (path.isPrefixOf ·) := by
  have hkept : ∀ other, other ∈ (s.delete place).working :: (s.delete place).directories ++
        (s.delete place).files.map (·.1) ↔
      other = place.dropLast ∨ other ∈ s.working :: s.directories ∨
        other ≠ place ∧ other ∈ s.files.map (·.1) := by
    intro other
    simp only [delete, List.cons_append, List.mem_cons, List.mem_append, List.mem_map,
      List.mem_filter, decide_eq_true_iff]
    grind
  have hplace : place ≠ [] := by
    rintro rfl
    exact h.directories s.working List.mem_cons_self List.nil_prefix
  split
  · rename_i hpath
    subst hpath
    refine List.any_eq_false.2 fun other hother => ?_
    rw [List.isPrefixOf_iff_prefix]
    intro hbegins
    rcases (hkept other).1 hother with rfl | hother | ⟨hne, hother⟩
    · have hlength := hbegins.length_le
      rw [List.length_dropLast] at hlength
      have hpos := List.length_pos_of_ne_nil hplace
      omega
    · exact h.directories other hother hbegins
    · obtain ⟨entry, hentry, rfl⟩ := List.mem_map.1 hother
      exact hne (h.files entry hentry hbegins)
  · rename_i hpath
    rw [Bool.eq_iff_iff, List.any_eq_true, List.any_eq_true]
    constructor
    · rintro ⟨other, hother, hbegins⟩
      rcases (hkept other).1 hother with rfl | hother | ⟨-, hother⟩
      · refine ⟨place, List.mem_append_right _ h.mem_files, ?_⟩
        rw [List.isPrefixOf_iff_prefix] at hbegins ⊢
        exact hbegins.trans (List.dropLast_prefix place)
      · exact ⟨other, List.mem_append_left _ hother, hbegins⟩
      · exact ⟨other, List.mem_append_right _ hother, hbegins⟩
    · rintro ⟨other, hother, hbegins⟩
      rcases List.mem_append.1 hother with hother | hother
      · exact ⟨other, (hkept other).2 (.inr (.inl hother)), hbegins⟩
      · by_cases hsame : other = place
        · subst hsame
          refine ⟨other.dropLast, (hkept _).2 (.inl rfl), ?_⟩
          rw [List.isPrefixOf_iff_prefix] at hbegins ⊢
          have hshorter : path.length ≠ other.length :=
            fun hlength => hpath (hbegins.eq_of_length hlength)
          refine List.prefix_of_prefix_length_le hbegins (List.dropLast_prefix other) ?_
          have hle := hbegins.length_le
          rw [List.length_dropLast]
          omega
        · exact ⟨other, (hkept other).2 (.inr (.inr ⟨hsame, hother⟩)), hbegins⟩

end Lone

lemma node_delete {bytes : List UInt8} (h : s.Lone place bytes) (trail : List Path.Name) :
    (s.delete place).node trail = if trail.reverse = place then .missing else s.node trail := by
  unfold node
  rw [Lone.find?_delete, h.any_delete]
  by_cases htrail : trail.reverse = place
  · rw [if_pos htrail, if_pos htrail, if_pos htrail]
    rfl
  · rw [if_neg htrail, if_neg htrail, if_neg htrail]

lemma node_of_lone {bytes : List UInt8} (h : s.Lone place bytes) (htrail : trail.reverse = place) :
    s.node trail = .file bytes := by
  rw [← h.file, ← htrail, List.reverse_reverse]

lemma enter_delete {bytes : List UInt8} (h : s.Lone place bytes) (start : Place)
    (name : Path.Name) :
    (s.delete place).enter start name = s.enter start name ∨
      (s.enter start name = .error .blocked ∧
        (s.delete place).enter start name = .error .missing) := by
  cases start with
  | outside => exact .inl rfl
  | inside trail =>
    unfold enter
    dsimp only
    rw [node_delete h]
    by_cases htrail : trail.reverse = place
    · rw [if_pos htrail, node_of_lone h htrail]
      exact .inr ⟨rfl, rfl⟩
    · rw [if_neg htrail]
      exact .inl rfl

lemma walk_delete {bytes : List UInt8} (h : s.Lone place bytes) (names : List Path.Name)
    (start : Place) :
    (s.delete place).walk start names = s.walk start names ∨
      (s.walk start names = .error .blocked ∧
        (s.delete place).walk start names = .error .missing) := by
  induction names generalizing start with
  | nil => exact .inl rfl
  | cons name names ih =>
    rw [walk, walk]
    rcases enter_delete h start name with hsame | ⟨hblocked, hmissing⟩
    · rw [hsame]
      split
      · exact .inl rfl
      · exact ih _
    · rw [hblocked, hmissing]
      exact .inr ⟨rfl, rfl⟩

/-- A path leads where it has led before, unless it leads to the file or goes on from it. -/
theorem look_delete {bytes : List UInt8} (h : s.Lone place bytes) (path : List Char) :
    (s.delete place).look path = s.look path ∨
      ((s.delete place).look path = .missing ∧
        (s.look path = .blocked ∨ s.look path = .file bytes)) := by
  unfold look
  split
  · exact .inl rfl
  · split
    · exact .inl rfl
    · have hworking : (s.delete place).working = s.working := rfl
      rw [hworking]
      rcases walk_delete h (Path.components path) _ with hsame | ⟨hblocked, hmissing⟩
      · rw [hsame]
        generalize s.walk _ _ = reached
        match reached with
        | .error target => exact .inl rfl
        | .ok .outside => exact .inl rfl
        | .ok (.inside trail) =>
          dsimp only
          rw [node_delete h]
          by_cases htrail : trail.reverse = place
          · rw [if_pos htrail, node_of_lone h htrail]
            exact .inr ⟨rfl, .inr rfl⟩
          · rw [if_neg htrail]
            exact .inl rfl
      · rw [hblocked, hmissing]
        exact .inr ⟨rfl, .inl rfl⟩

end Kconfig.Snapshot
