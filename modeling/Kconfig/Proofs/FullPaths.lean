import Kconfig.FileSystem.Snapshot
import Mathlib.Data.List.Induction
import Mathlib.Tactic.Lemma

/-!
# Full paths

The full path of a name is the root joined with it. Names with one normal form have one full path,
up to spelling, but not the other way round: a name that goes up can come down again by the names of
the root, and an absolute name can lead to where a relative one leads. `normalize_eq_iff` says that
there is no other way: names with one full path have one normal form if and only if they are at the
same level.

To follow a relative name, from anywhere, is to go some steps up and then down by some names; this
is `Climbs`. Two names with as many steps up lead to one place only if they go down by the same
names. -/

namespace Kconfig.Path

open Snapshot (reduceStep_stay reduceStep_down reduceStep_up_cons reduceStep_up_replicate
  components_ne_nil components_append_slash isAbsolute_join rootChars_of_relative)

/-- The name stands for itself in a path: it leads down or up. -/
def Moves (name : Name) : Prop :=
  name ≠ [] ∧ name ≠ here

instance (name : Name) : Decidable (Moves name) :=
  inferInstanceAs (Decidable (_ ∧ _))

variable {absolute : Bool} {names stack : List Name} {name : Name} {path a b root : List Char}

lemma not_mem_components : ∀ name ∈ components path, '/' ∉ name := by
  induction path with
  | nil => simp [components]
  | cons c cs ih =>
    simp only [components]
    split
    · exact List.forall_mem_cons.2 ⟨List.not_mem_nil, ih⟩
    · rename_i hc
      cases hcs : components cs with
      | nil => exact absurd hcs (components_ne_nil cs)
      | cons first rest =>
        rw [hcs] at ih
        obtain ⟨hfirst, hrest⟩ := List.forall_mem_cons.1 ih
        refine List.forall_mem_cons.2 ⟨?_, hrest⟩
        exact List.not_mem_cons_of_ne_of_not_mem (Ne.symm hc) hfirst

lemma components_of_not_mem (h : '/' ∉ name) : components name = [name] := by
  induction name with
  | nil => rfl
  | cons c cs ih =>
    obtain ⟨hc, hcs⟩ := List.ne_and_not_mem_of_not_mem_cons h
    rw [components, if_neg (Ne.symm hc), ih hcs]

lemma components_ofComponents (hne : names ≠ []) (h : ∀ name ∈ names, '/' ∉ name) :
    components (ofComponents names) = names := by
  induction names with
  | nil => exact absurd rfl hne
  | cons first rest ih =>
    obtain ⟨hfirst, hrest⟩ := List.forall_mem_cons.1 h
    cases rest with
    | nil =>
      rw [ofComponents, List.intercalate_singleton]
      exact components_of_not_mem hfirst
    | cons second rest =>
      have hsplit : ofComponents (first :: second :: rest) =
          first ++ '/' :: ofComponents (second :: rest) := by
        rw [ofComponents, List.intercalate_cons_cons, List.append_assoc]
        rfl
      rw [hsplit, components_append_slash, components_of_not_mem hfirst,
        ih (List.cons_ne_nil _ _) hrest]
      rfl

lemma mem_reduceStep {n : Name} (h : n ∈ reduceStep absolute stack name) :
    n ∈ stack ∨ (n = name ∧ Moves name) := by
  unfold reduceStep at h
  split at h
  · exact .inl h
  · rename_i hmoves
    split at h
    · rename_i hup
      subst hup
      split at h
      · split at h
        · cases h
        · exact .inr ⟨List.mem_singleton.1 h, by decide⟩
      · split at h
        · rcases List.mem_cons.1 h with rfl | h
          · exact .inr ⟨rfl, by decide⟩
          · exact .inl h
        · exact .inl (List.mem_cons_of_mem _ h)
    · rcases List.mem_cons.1 h with rfl | h
      · exact .inr ⟨rfl, not_or.1 hmoves⟩
      · exact .inl h

lemma mem_reduce {n : Name} (h : n ∈ reduce absolute names) : n ∈ names ∧ Moves n := by
  have key : ∀ stack : List Name, n ∈ names.foldl (reduceStep absolute) stack →
      n ∈ stack ∨ (n ∈ names ∧ Moves n) := by
    clear h
    induction names with
    | nil => exact fun stack hn => .inl hn
    | cons name names ih =>
      intro stack hn
      rcases ih (reduceStep absolute stack name) hn with hn | ⟨hn, hmoves⟩
      · rcases mem_reduceStep hn with hn | ⟨rfl, hmoves⟩
        · exact .inl hn
        · exact .inr ⟨List.mem_cons_self, hmoves⟩
      · exact .inr ⟨List.mem_cons_of_mem _ hn, hmoves⟩
  rcases key [] (List.mem_reverse.1 h) with hn | hn
  · cases hn
  · exact hn

/-- The names of a normal form. -/
def Normal (names : List Name) : Prop :=
  ∀ name ∈ names, '/' ∉ name ∧ Moves name

lemma normal_reduce (absolute : Bool) (path : List Char) :
    Normal (reduce absolute (components path)) := by
  intro name hname
  obtain ⟨hmem, hmoves⟩ := mem_reduce hname
  exact ⟨not_mem_components name hmem, hmoves⟩

lemma filter_components_ofComponents (h : Normal names) :
    (components (ofComponents names)).filter Moves = names := by
  cases names with
  | nil => decide
  | cons first rest =>
    rw [components_ofComponents (List.cons_ne_nil _ _) fun name hname => (h name hname).1,
      List.filter_eq_self]
    exact fun name hname => decide_eq_true (h name hname).2

lemma filter_components_rootChars (path cs : List Char) :
    (components (rootChars path ++ cs)).filter Moves = (components cs).filter Moves := by
  unfold rootChars
  split <;> rfl

lemma apply_normalizeChars {α : Type} (f : List Char → α) (hf : f here = f []) (path : List Char) :
    f (normalizeChars path) =
      f (rootChars path ++ ofComponents (reduce (isAbsolute path) (components path))) := by
  unfold normalizeChars
  dsimp only
  split
  · rename_i hnil
    rw [hnil, hf]
  · rfl

lemma filter_components_normalizeChars (path : List Char) :
    (components (normalizeChars path)).filter Moves =
      reduce (isAbsolute path) (components path) := by
  have htext := apply_normalizeChars (fun cs => (components cs).filter Moves) rfl path
  rw [htext, filter_components_rootChars]
  exact filter_components_ofComponents (normal_reduce _ path)

lemma isAbsolute_ofComponents (h : Normal names) : isAbsolute (ofComponents names) = false := by
  cases names with
  | nil => rfl
  | cons first rest =>
    obtain ⟨hslash, hne, -⟩ := h first List.mem_cons_self
    obtain ⟨c, cs, rfl⟩ := List.exists_cons_of_ne_nil hne
    have hc : c ≠ '/' := Ne.symm (List.ne_of_not_mem_cons hslash)
    cases rest <;> simp [ofComponents, isAbsolute, hc]

lemma isAbsolute_append (a b : List Char) :
    isAbsolute (a ++ b) = if a = [] then isAbsolute b else isAbsolute a := by
  cases a <;> rfl

lemma isAbsolute_rootChars (path : List Char) : isAbsolute (rootChars path) = isAbsolute path := by
  cases h : isAbsolute path with
  | false =>
    rw [rootChars_of_relative h]
    rfl
  | true =>
    obtain ⟨rest, rfl⟩ := List.head?_eq_some_iff.1 (beq_iff_eq.1 h)
    unfold rootChars
    split <;> simp_all [isAbsolute]

lemma isAbsolute_normalizeChars (path : List Char) :
    isAbsolute (normalizeChars path) = isAbsolute path := by
  rw [apply_normalizeChars isAbsolute rfl, isAbsolute_append, isAbsolute_rootChars,
    isAbsolute_ofComponents (normal_reduce _ path)]
  split
  · rename_i hroot
    rw [← isAbsolute_rootChars, hroot]
    rfl
  · rfl

lemma reduce_of_normalizeChars (h : normalizeChars a = normalizeChars b) :
    isAbsolute a = isAbsolute b ∧
      reduce (isAbsolute a) (components a) = reduce (isAbsolute b) (components b) := by
  constructor
  · rw [← isAbsolute_normalizeChars a, h, isAbsolute_normalizeChars]
  · rw [← filter_components_normalizeChars a, h, filter_components_normalizeChars]

/-- The stack of the place that is `k` steps above that of `stack`. -/
def climb (absolute : Bool) : Nat → List Name → List Name
  | 0, stack => stack
  | k + 1, stack => reduceStep absolute (climb absolute k stack) up

lemma climb_replicate (j k : Nat) :
    climb false k (List.replicate j up) = List.replicate (j + k) up := by
  induction k with
  | zero => rfl
  | succ k ih => rw [climb, ih, reduceStep_up_replicate, Nat.add_assoc]

/-- To follow the names from anywhere is to go `k` steps up and then down by the names `downs`, the
last one of which comes first. -/
structure Climbs (names : List Name) (k : Nat) (downs : List Name) : Prop where
  down : ∀ name ∈ downs, name ≠ up
  follow : ∀ absolute stack,
    names.foldl (reduceStep absolute) stack = downs ++ climb absolute k stack

lemma exists_climbs (names : List Name) : ∃ k downs, Climbs names k downs := by
  induction names using List.reverseRecOn with
  | nil => exact ⟨0, [], by simp, fun _ _ => rfl⟩
  | append_singleton names name ih =>
    obtain ⟨k, downs, hdown, hfollow⟩ := ih
    have hlast : ∀ absolute stack, (names ++ [name]).foldl (reduceStep absolute) stack =
        reduceStep absolute (downs ++ climb absolute k stack) name := by
      intro absolute stack
      rw [List.foldl_append, hfollow]
      rfl
    by_cases hstay : name = [] ∨ name = here
    · refine ⟨k, downs, hdown, fun absolute stack => ?_⟩
      rw [hlast, reduceStep_stay hstay]
    · by_cases hup : name = up
      · subst hup
        cases downs with
        | nil => exact ⟨k + 1, [], by simp, hlast⟩
        | cons top downs =>
          obtain ⟨htop, hdown⟩ := List.forall_mem_cons.1 hdown
          refine ⟨k, downs, hdown, fun absolute stack => ?_⟩
          rw [hlast, List.cons_append, reduceStep_up_cons htop]
      · refine ⟨k, name :: downs, List.forall_mem_cons.2 ⟨hup, hdown⟩, fun absolute stack => ?_⟩
        rw [hlast, reduceStep_down hstay hup, List.cons_append]

namespace Climbs

variable {k k' : Nat} {downs downs' : List Name}

lemma reduce_eq (h : Climbs names k downs) :
    reduce false names = List.replicate k up ++ downs.reverse := by
  have hclimb := climb_replicate 0 k
  rw [Nat.zero_add] at hclimb
  rw [reduce, h.follow, ← List.replicate_zero, hclimb, List.reverse_append,
    List.reverse_replicate]

lemma count_append (h : Climbs names k downs) (j : Nat) :
    (downs ++ List.replicate j up).count up = j := by
  rw [List.count_append, List.count_replicate_self, Nat.add_eq_right]
  exact List.count_eq_zero_of_not_mem fun hup => h.down up hup rfl

lemma count_reduce (h : Climbs names k downs) : (reduce false names).count up = k := by
  rw [h.reduce_eq, ← List.count_reverse, List.reverse_append, List.reverse_reverse,
    List.reverse_replicate, h.count_append]

end Climbs

lemma reduce_eq_iff (absolute : Bool) (stack : List Name) {names names' : List Name} :
    reduce false names = reduce false names' ↔
      names.foldl (reduceStep absolute) stack = names'.foldl (reduceStep absolute) stack ∧
        (reduce false names).count up = (reduce false names').count up := by
  obtain ⟨k, downs, h⟩ := exists_climbs names
  obtain ⟨k', downs', h'⟩ := exists_climbs names'
  rw [h.follow, h'.follow, h.count_reduce, h'.count_reduce]
  constructor
  · intro hreduce
    have hk : k = k' := by rw [← h.count_reduce, hreduce, h'.count_reduce]
    subst hk
    rw [h.reduce_eq, h'.reduce_eq, List.append_cancel_left_eq, List.reverse_inj] at hreduce
    exact ⟨by rw [hreduce], rfl⟩
  · rintro ⟨hplace, rfl⟩
    rw [h.reduce_eq, h'.reduce_eq, List.append_cancel_right hplace]

lemma foldl_components_join (absolute : Bool) (root : List Char) (h : isAbsolute a = false) :
    (components (joinChars root a)).foldl (reduceStep absolute) [] =
      (components a).foldl (reduceStep absolute)
        ((components root).foldl (reduceStep absolute) []) := by
  unfold joinChars
  rw [if_neg (by simp [h])]
  split
  · rename_i hend
    rcases hend with rfl | hlast
    · rfl
    · obtain ⟨init, rfl⟩ := List.getLast?_eq_some_iff.1 hlast
      rw [List.append_assoc, List.singleton_append, components_append_slash,
        components_append_slash, List.foldl_append, List.foldl_append]
      rfl
  · rw [components_append_slash, List.foldl_append]

lemma rootChars_append {rest : List Char} (hne : path ≠ [])
    (hlast : path.getLast? = some '/' → rest.head? ≠ some '/') :
    rootChars (path ++ rest) = rootChars path := by
  -- At most the first three characters are looked at.
  rcases path with - | ⟨c, - | ⟨d, - | ⟨e, path⟩⟩⟩
  · exact absurd rfl hne
  · by_cases hc : c = '/'
    · subst hc
      cases rest with
      | nil => rfl
      | cons x rest =>
        have hx : x ≠ '/' := by simpa using hlast
        simp [rootChars, hx]
    · simp [rootChars, hc]
  · by_cases hc : c = '/' <;> by_cases hd : d = '/'
    · subst hc hd
      cases rest with
      | nil => rfl
      | cons x rest =>
        have hx : x ≠ '/' := by simpa using hlast
        simp [rootChars, hx]
    all_goals simp [rootChars, *]
  · by_cases hc : c = '/' <;> by_cases hd : d = '/' <;> by_cases he : e = '/' <;>
      simp [rootChars, *]

lemma rootChars_join (root : List Char) (h : isAbsolute a = false) :
    rootChars (joinChars root a) = rootChars root := by
  have hhead : a.head? ≠ some '/' := by simpa [isAbsolute] using h
  unfold joinChars
  rw [if_neg (by simp [h])]
  by_cases hroot : root = []
  · rw [if_pos (.inl hroot), hroot]
    exact rootChars_of_relative h
  · split
    · exact rootChars_append hroot fun _ => hhead
    · rename_i hend
      exact rootChars_append hroot fun hlast => absurd (.inr hlast) hend

lemma normalizeChars_join_iff (ha : isAbsolute a = false) (hb : isAbsolute b = false) :
    normalizeChars (joinChars root a) = normalizeChars (joinChars root b) ↔
      let place := (components root).foldl (reduceStep (isAbsolute root)) []
      (components a).foldl (reduceStep (isAbsolute root)) place =
        (components b).foldl (reduceStep (isAbsolute root)) place := by
  have habsolute : ∀ c, isAbsolute c = false → isAbsolute (joinChars root c) = isAbsolute root := by
    intro c hc
    rw [isAbsolute_join, hc, Bool.false_or]
  constructor
  · intro h
    have hreduce := (reduce_of_normalizeChars h).2
    rw [habsolute a ha, habsolute b hb, reduce, reduce, foldl_components_join _ _ ha,
      foldl_components_join _ _ hb, List.reverse_inj] at hreduce
    exact hreduce
  · intro h
    rw [normalizeChars, normalizeChars, habsolute a ha, habsolute b hb, rootChars_join root ha,
      rootChars_join root hb, reduce, reduce, foldl_components_join _ _ ha,
      foldl_components_join _ _ hb, h]

lemma normalizeChars_of_relative (h : isAbsolute path = false) :
    normalizeChars path =
      let text := ofComponents (reduce false (components path))
      if text = [] then here else text := by
  rw [normalizeChars, rootChars_of_relative h, h, List.nil_append]

/-- The number of steps up in the normal form of a path. -/
def ascent (path : String) : Nat :=
  (reduce (isAbsolute path.toList) (components path.toList)).count up

/-- Both names are absolute, or both are relative and go equally far up. -/
structure SameLevel (a b : String) : Prop where
  absolute_eq : isAbsolute a.toList = isAbsolute b.toList
  ascent_eq : ascent a = ascent b

/-- The path is relative and leads down into no directory. -/
structure Bare (root : String) : Prop where
  relative : isAbsolute root.toList = false
  climbs : ∀ name ∈ reduce false (components root.toList), name = up

section

variable {root a b : String}

lemma normalize_eq_normalize :
    normalize a = normalize b ↔ normalizeChars a.toList = normalizeChars b.toList :=
  String.ofList_inj

lemma normalize_join_eq : normalize (join root a) = normalize (join root b) ↔
    normalizeChars (joinChars root.toList a.toList) =
      normalizeChars (joinChars root.toList b.toList) := by
  rw [normalize_eq_normalize, join, join, String.toList_ofList, String.toList_ofList]

lemma join_of_absolute (h : isAbsolute a.toList = true) : join root a = a := by
  rw [join, joinChars, if_pos h, String.ofList_toList]

lemma SameLevel.of_normalize (h : normalize a = normalize b) : SameLevel a b := by
  obtain ⟨habsolute, hreduce⟩ := reduce_of_normalizeChars (normalize_eq_normalize.1 h)
  refine ⟨habsolute, ?_⟩
  unfold ascent
  rw [hreduce]

/-- Names have one normal form if and only if their full paths have, below whatever root, and they
are at the same level. -/
theorem normalize_eq_iff (root : String) : normalize a = normalize b ↔
    normalize (join root a) = normalize (join root b) ∧ SameLevel a b := by
  by_cases hlevel : SameLevel a b
  · rw [and_iff_left hlevel]
    cases ha : isAbsolute a.toList with
    | true => rw [join_of_absolute ha, join_of_absolute (hlevel.absolute_eq ▸ ha)]
    | false =>
      have hb : isAbsolute b.toList = false := hlevel.absolute_eq ▸ ha
      have hascent := hlevel.ascent_eq
      unfold ascent at hascent
      rw [ha, hb] at hascent
      rw [normalize_join_eq, normalizeChars_join_iff ha hb]
      constructor
      · intro h
        have hreduce := (reduce_of_normalizeChars (normalize_eq_normalize.1 h)).2
        rw [ha, hb] at hreduce
        exact ((reduce_eq_iff _ _).1 hreduce).1
      · intro h
        rw [normalize_eq_normalize, normalizeChars_of_relative ha, normalizeChars_of_relative hb,
          (reduce_eq_iff _ _).2 ⟨h, hascent⟩]
  · exact ⟨fun h => absurd (.of_normalize h) hlevel, fun h => absurd h.2 hlevel⟩

/-- Below a root that leads down into no directory, names of one full path are at the same level. -/
lemma SameLevel.of_bare (hroot : Bare root)
    (h : normalize (join root a) = normalize (join root b)) :
    SameLevel a b := by
  have habsolute := (reduce_of_normalizeChars (normalize_join_eq.1 h)).1
  rw [isAbsolute_join, isAbsolute_join, hroot.relative, Bool.or_false, Bool.or_false] at habsolute
  cases ha : isAbsolute a.toList with
  | true =>
    rw [join_of_absolute ha, join_of_absolute (habsolute ▸ ha)] at h
    exact .of_normalize h
  | false =>
    have hb : isAbsolute b.toList = false := habsolute ▸ ha
    refine ⟨habsolute, ?_⟩
    obtain ⟨k, downs, hclimbs⟩ := exists_climbs (components a.toList)
    obtain ⟨k', downs', hclimbs'⟩ := exists_climbs (components b.toList)
    unfold ascent
    rw [ha, hb, hclimbs.count_reduce, hclimbs'.count_reduce]
    -- The place of the root is only steps up, and so those of the names come on top of them.
    obtain ⟨j, hplace⟩ : ∃ j,
        (components root.toList).foldl (reduceStep false) [] = List.replicate j up := by
      refine ⟨_, List.eq_replicate_of_mem fun name hname => hroot.climbs name ?_⟩
      exact List.mem_reverse.2 hname
    have hfollow := (normalizeChars_join_iff ha hb).1 (normalize_join_eq.1 h)
    dsimp only at hfollow
    rw [hroot.relative, hplace, hclimbs.follow, hclimbs'.follow, climb_replicate,
      climb_replicate] at hfollow
    have hcount := congrArg (List.count up) hfollow
    rw [hclimbs.count_append, hclimbs'.count_append] at hcount
    exact Nat.add_left_cancel hcount

end

end Kconfig.Path
