import Kconfig.FileSystem

/-!
# Snapshots of a directory tree

A snapshot lists the files and directories below a base directory, one of which is the working
directory that relative paths start from. What lies above the base is seen as a directory that holds
nothing. A snapshot is a file system: `Snapshot.names` lists every normalised name that can lead to
one of its files.
-/

namespace Kconfig

open Kconfig.Path

/-- The files and directories below a base directory, by their paths from the base. -/
structure Snapshot where
  files : List (List Name × List UInt8) := []
  directories : List (List Name) := []
  /-- The path from the base to the working directory. -/
  working : List Name := []

/-- A place reached on the way along a path. -/
inductive Place where
  /-- Below the base, with the names of the way back to it. -/
  | inside (trail : List Name)
  /-- Above the base. -/
  | outside

namespace Snapshot

/-- What stands at a place below the base, given by its way back. -/
def node (s : Snapshot) (trail : List Name) : Target :=
  match s.files.find? (fun entry => entry.1 == trail.reverse) with
  | some entry => .file entry.2
  | none =>
    if (s.working :: s.directories ++ s.files.map (·.1)).any (trail.reverse.isPrefixOf ·) then
      .directory
    else .missing

/-- Follows one component, which is possible only from a directory. -/
def enter (s : Snapshot) (place : Place) (name : Name) : Except Target Place :=
  match place with
  | .outside => if name = [] ∨ name = here ∨ name = up then .ok .outside else .error .missing
  | .inside trail =>
    match s.node trail with
    | .directory =>
      if name = [] ∨ name = here then .ok (.inside trail)
      else if name = up then
        match trail with
        | [] => .ok .outside
        | _ :: rest => .ok (.inside rest)
      else .ok (.inside (name :: trail))
    | .missing => .error .missing
    | _ => .error .blocked

/-- Follows the components one after the other. -/
def walk (s : Snapshot) : Place → List Name → Except Target Place
  | place, [] => .ok place
  | place, name :: names =>
    match s.enter place name with
    | .error target => .error target
    | .ok next => s.walk next names

def look (s : Snapshot) (path : List Char) : Target :=
  if path = [] then .missing
  else if path.contains (Char.ofNat 0) then .invalid
  else
    match s.walk (if isAbsolute path then .outside else .inside s.working.reverse)
        (components path) with
    | .error target => target
    | .ok .outside => .directory
    | .ok (.inside trail) => s.node trail

theorem mem_files_of_node {s : Snapshot} {trail : List Name} {bytes : List UInt8}
    (h : s.node trail = .file bytes) : (trail.reverse, bytes) ∈ s.files := by
  unfold node at h
  split at h
  · rename_i entry found
    have hp := List.find?_some found
    have hm := List.mem_of_find?_eq_some found
    cases h
    obtain ⟨path, bytes⟩ := entry
    simp only [beq_iff_eq] at hp
    exact hp ▸ hm
  · split at h <;> cases h

theorem walk_append (s : Snapshot) (place : Place) (as bs : List Name) :
    s.walk place (as ++ bs) =
      match s.walk place as with
      | .error target => .error target
      | .ok next => s.walk next bs := by
  induction as generalizing place with
  | nil => rfl
  | cons a as ih =>
    simp only [List.cons_append, walk]
    cases s.enter place a with
    | error target => rfl
    | ok next => exact ih next

/-- No path leads back below the base. -/
theorem walk_outside {s : Snapshot} {names : List Name} {place : Place}
    (h : s.walk .outside names = .ok place) : place = .outside := by
  induction names with
  | nil => cases h; rfl
  | cons name names ih =>
    simp only [walk, enter] at h
    split at h
    · cases h
    · rename_i next hn
      split at hn
      · cases hn; exact ih h
      · cases hn

theorem walk_error {s : Snapshot} {place : Place} {names : List Name} {bytes : List UInt8} :
    s.walk place names ≠ .error (.file bytes) := by
  induction names generalizing place with
  | nil => simp [walk]
  | cons name names ih =>
    intro h
    simp only [walk] at h
    split at h
    · rename_i target he
      cases h
      simp only [enter] at he
      repeat' split at he
      all_goals cases he
    · exact ih h

theorem reduceStep_stay {absolute : Bool} {stack : List Name} {name : Name}
    (h : name = [] ∨ name = here) : reduceStep absolute stack name = stack := by
  simp only [reduceStep, if_pos h]

theorem reduceStep_down {absolute : Bool} {stack : List Name} {name : Name}
    (h : ¬(name = [] ∨ name = here)) (hup : name ≠ up) :
    reduceStep absolute stack name = name :: stack := by
  simp only [reduceStep, if_neg h, if_neg hup]

theorem reduceStep_up_cons {absolute : Bool} {stack : List Name} {name : Name} (h : name ≠ up) :
    reduceStep absolute (name :: stack) up = stack := by
  rw [reduceStep, if_neg (by decide), if_pos rfl]
  exact if_neg h

theorem reduceStep_up_replicate (k : Nat) :
    reduceStep false (List.replicate k up) up = List.replicate (k + 1) up := by
  cases k with
  | zero => rfl
  | succ k => simp [reduceStep, List.replicate_succ, up, here]

/-- Walking and reducing agree: the place is reached from the start by the steps up and then the
steps down that remain after reduction. -/
theorem walk_reduce {s : Snapshot} (start names : List Name) :
    ∀ (k : Nat) (downs : List Name) {trail : List Name},
      (∀ name ∈ downs, name ≠ up) → k ≤ start.length →
      s.walk (.inside (downs ++ start.drop k)) names = .ok (.inside trail) →
      ∃ (k' : Nat) (downs' : List Name), k' ≤ start.length ∧
        names.foldl (reduceStep false) (downs ++ List.replicate k up)
          = downs' ++ List.replicate k' up ∧
        trail = downs' ++ start.drop k' := by
  induction names with
  | nil =>
    intro k downs trail _ hk h
    cases h
    exact ⟨k, downs, hk, rfl, rfl⟩
  | cons name names ih =>
    intro k downs trail hd hk h
    simp only [walk] at h
    split at h
    · cases h
    · rename_i next hn
      rw [List.foldl_cons]
      simp only [enter] at hn
      split at hn
      · split at hn
        · rename_i hstay
          cases hn
          rw [reduceStep_stay hstay]
          exact ih k downs hd hk h
        · rename_i hstay
          split at hn
          · rename_i hup
            subst hup
            cases downs with
            | cons x xs =>
              cases hn
              rw [List.cons_append, reduceStep_up_cons (hd x List.mem_cons_self)]
              exact ih k xs (fun n hn => hd n (List.mem_cons_of_mem _ hn)) hk h
            | nil =>
              rw [List.nil_append, reduceStep_up_replicate]
              simp only [List.nil_append] at hn
              split at hn
              · cases hn
                exact absurd (walk_outside h) (by simp)
              · rename_i rest hdrop
                cases hn
                have hlt : k < start.length := by
                  have := congrArg List.length hdrop
                  simp only [List.length_drop, List.length_cons] at this
                  omega
                have hrest : rest = start.drop (k + 1) := by
                  rw [← List.drop_drop, hdrop]
                  rfl
                subst hrest
                exact ih (k + 1) [] (by simp) hlt h
          · rename_i hup
            cases hn
            rw [reduceStep_down hstay hup]
            refine ih k (name :: downs) ?_ hk h
            intro n hn
            rcases List.mem_cons.1 hn with rfl | hn
            · exact hup
            · exact hd n hn
      · cases hn
      · cases hn

theorem components_ne_nil (cs : List Char) : components cs ≠ [] := by
  cases cs with
  | nil => simp [components]
  | cons c cs =>
    simp only [components]
    split
    · simp
    · split <;> simp

theorem components_append_slash (as bs : List Char) :
    components (as ++ '/' :: bs) = components as ++ components bs := by
  induction as with
  | nil => rfl
  | cons a as ih =>
    simp only [List.cons_append, components, ih]
    split
    · rfl
    · cases h : components as with
      | nil => exact absurd h (components_ne_nil as)
      | cons name names => rfl

/-- Below a root that is not absolute, the components of a joined path are those of the root, up to
an empty last one, followed by those of the name. -/
theorem components_join (root : List Char) :
    ∃ start : List Name, ∀ name, isAbsolute name = false →
      components (joinChars root name) = start ++ components name := by
  by_cases hroot : root = []
  · subst hroot
    exact ⟨[], fun name h => by simp [joinChars, h]⟩
  · by_cases hlast : root.getLast? = some '/'
    · obtain ⟨init, rfl⟩ := List.getLast?_eq_some_iff.1 hlast
      refine ⟨components init, fun name h => ?_⟩
      simp only [joinChars, h, hlast, or_true, if_true, List.append_assoc, List.singleton_append]
      exact components_append_slash init name
    · refine ⟨components root, fun name h => ?_⟩
      simp only [joinChars, h, hroot, hlast, or_self, if_false]
      exact components_append_slash root name

/-- The normalised names that lead to a file from a place `depth` steps below the base. -/
def names (s : Snapshot) (depth : Nat) : List String :=
  s.files.flatMap fun entry =>
    (List.range (entry.1.length + 1)).flatMap fun j =>
      (List.range (depth + 1)).map fun k =>
        let text := ofComponents (List.replicate k up ++ entry.1.drop j)
        .ofList (if text = [] then here else text)

theorem isAbsolute_join (root name : List Char) :
    isAbsolute (joinChars root name) = (isAbsolute name || isAbsolute root) := by
  unfold joinChars
  cases h : isAbsolute name with
  | true => simp [h]
  | false =>
    by_cases hr : root = []
    · subst hr
      simpa [isAbsolute] using h
    · obtain ⟨c, cs, rfl⟩ := List.exists_cons_of_ne_nil hr
      simp only [Bool.false_eq_true, if_false, Bool.false_or]
      split <;> rfl

theorem rootChars_of_relative {path : List Char} (h : isAbsolute path = false) :
    rootChars path = [] := by
  unfold rootChars
  split <;> simp_all [isAbsolute]

/-- Every name that leads to a file below `root` is one of the listed names when normalised. -/
theorem normalize_mem_names (s : Snapshot) (root : String) :
    ∃ depth, ∀ (name : String) bytes, s.look (Path.join root name).toList = .file bytes →
      Path.normalize name ∈ s.names depth := by
  obtain ⟨start, hstart⟩ := components_join root.toList
  have key : ∀ (name : String) bytes, s.look (Path.join root name).toList = .file bytes →
      isAbsolute name.toList = false ∧ ∃ d trail,
        s.walk (.inside s.working.reverse) start = .ok (.inside d) ∧
        s.walk (.inside d) (components name.toList) = .ok (.inside trail) ∧
        s.node trail = .file bytes := by
    intro name bytes h
    simp only [Path.join, String.toList_ofList, look, isAbsolute_join] at h
    split at h
    · cases h
    · split at h
      · cases h
      · split at h
        · rename_i hw
          subst h
          exact absurd hw walk_error
        · cases h
        · rename_i trail hw
          cases ha : isAbsolute name.toList with
          | true =>
            simp only [ha, Bool.true_or, if_true] at hw
            exact absurd (walk_outside hw) (by simp)
          | false =>
            cases hr : isAbsolute root.toList with
            | true =>
              simp only [ha, hr, Bool.or_true, if_true] at hw
              exact absurd (walk_outside hw) (by simp)
            | false =>
              refine ⟨rfl, ?_⟩
              simp only [ha, hr, Bool.or_self, Bool.false_eq_true, if_false] at hw
              rw [hstart _ ha, walk_append] at hw
              split at hw
              · cases hw
              · rename_i next hn
                cases next with
                | outside => exact absurd (walk_outside hw) (by simp)
                | inside d => exact ⟨d, trail, hn, hw, h⟩
  refine ⟨match s.walk (.inside s.working.reverse) start with
    | .ok (.inside d) => d.length
    | _ => 0, fun name bytes h => ?_⟩
  obtain ⟨ha, d, trail, hd, hw, hnode⟩ := key name bytes h
  have hmem := mem_files_of_node hnode
  obtain ⟨k, downs, hk, hfold, htrail⟩ :=
    walk_reduce d (components name.toList) 0 [] (by simp) (Nat.zero_le _)
      (by simpa using hw)
  simp only [List.nil_append, List.replicate_zero] at hfold
  simp only [hd, names, List.mem_flatMap, List.mem_map, List.mem_range]
  refine ⟨_, hmem, (d.drop k).length, ?_, k, by omega, ?_⟩
  · rw [htrail, List.length_reverse, List.length_append]
    omega
  · have hdrop : (trail.reverse).drop (d.drop k).length = downs.reverse := by
      subst htrail
      simp
    simp only [hdrop, Path.normalize, normalizeChars, rootChars_of_relative ha, ha, reduce, hfold,
      List.reverse_append, List.reverse_replicate, List.nil_append]

def toFileSystem (s : Snapshot) : FileSystem where
  look path := s.look path.toList
  finite root := by
    obtain ⟨depth, h⟩ := s.normalize_mem_names root
    exact ⟨s.names depth, h⟩

/-- The snapshot after a file has been written at a path from the working directory. -/
def write (s : Snapshot) (path : String) (bytes : List UInt8) : Snapshot :=
  { s with files := (absoluteComponents s.working path.toList, bytes) :: s.files }

/-- The snapshot with one more directory at a path from the working directory. -/
def makeDirectory (s : Snapshot) (path : String) : Snapshot :=
  { s with directories := absoluteComponents s.working path.toList :: s.directories }

end Snapshot

end Kconfig
