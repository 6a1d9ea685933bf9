import Kconfig.Proofs.Positions
import Mathlib.Data.List.SplitBy

/-!
# Continuation lines

A physical line that ends in a backslash and a line feed is continued by the next one. So the
physical lines of a file come in groups, and each group makes one line. The reader looks at the text
that it has gathered, not at the physical line it has read last: where an empty line follows a
backslash that is left over from the line before it, the two make a continuation that no physical
line ends in, and the reader goes on into the next group. It reads the lines of the groups if and
only if this does not happen in the file.
-/

namespace Kconfig

lemma beforeJoin?_eq_some {text start : List Char} :
    beforeJoin? text = some start ↔ text = start ++ ['\\', '\n'] := by
  unfold beforeJoin?
  constructor
  · intro h
    split at h
    · rename_i rest hrest
      cases h
      rw [← List.reverse_reverse text, hrest]
      simp
    · cases h
  · rintro rfl
    simp

lemma beforeJoin?_append {text start : List Char} (h : beforeJoin? text = some start)
    (front : List Char) : beforeJoin? (front ++ text) = some (front ++ start) := by
  rw [beforeJoin?_eq_some] at h ⊢
  rw [h, List.append_assoc]

lemma withoutLineFeed_append (text : List Char) : withoutLineFeed (text ++ ['\n']) = text := by
  simp [withoutLineFeed]

lemma withoutLineFeed_of_not_mem {text : List Char} (h : '\n' ∉ text) :
    withoutLineFeed text = text := by
  unfold withoutLineFeed
  split
  · rename_i rest hrest
    refine absurd (List.mem_reverse.1 ?_) h
    rw [hrest]
    exact List.mem_cons_self
  · rfl

lemma not_mem_dropLast_of_mem_physicalLines {text line : List Char}
    (h : line ∈ physicalLines text) : '\n' ∉ line.dropLast := by
  induction text generalizing line with
  | nil => cases h
  | cons c text ih =>
    rw [physicalLines] at h
    split at h
    · rcases List.mem_cons.1 h with rfl | h
      · exact List.not_mem_nil
      · exact ih h
    · rename_i hc
      split at h
      · rw [List.mem_singleton.1 h]
        exact List.not_mem_nil
      · rename_i first lines hlines
        rw [hlines] at ih
        rcases List.mem_cons.1 h with rfl | h
        · have hfirst := ih List.mem_cons_self
          cases first with
          | nil => exact List.not_mem_nil
          | cons d first =>
            rw [List.dropLast_cons_cons, List.mem_cons, not_or]
            exact ⟨Ne.symm hc, hfirst⟩
        · exact ih (List.mem_cons_of_mem _ h)

namespace Line

/-- The text ends in a backslash and a line feed. -/
def isContinued (text : List Char) : Bool :=
  (beforeJoin? text).isSome

/-- The groups of physical lines: a line is in the group of the next one if and only if it is
continued itself. -/
def groups (physical : List (List Char)) : List (List (List Char)) :=
  physical.splitBy fun line _ => isContinued line

/-- The physical lines of a group one after the other, without the backslashes and line feeds by
which they are continued. -/
def joined (group : List (List Char)) : List Char :=
  group.flatMap fun line => (beforeJoin? line).getD line

/-- The text of the line that a group makes. -/
def ofGroup (group : List (List Char)) : List Char :=
  withoutLineFeed (joined group)

variable {front line next start : List Char} {lines group : List (List Char)}
  {others : List (List (List Char))} {height : Nat}

lemma isContinued_eq_false {text : List Char} :
    isContinued text = false ↔ beforeJoin? text = none := by
  simp [isContinued]

lemma groups_singleton (line : List Char) : groups [line] = [[line]] :=
  rfl

lemma groups_cons_of_isContinued (h : isContinued line = true)
    (hgroups : groups (next :: lines) = group :: others) :
    groups (line :: next :: lines) = (line :: group) :: others := by
  rw [groups, List.splitBy_eq_iff] at hgroups ⊢
  obtain ⟨hflatten, hne, hchain, hcut⟩ := hgroups
  have hgroup : group ≠ [] := fun hnil => hne (hnil ▸ List.mem_cons_self)
  refine ⟨?_, ?_, ?_, ?_⟩
  · rw [hflatten, List.flatten_cons, List.flatten_cons, List.cons_append]
  · simp_all
  · intro g hg
    rcases List.mem_cons.1 hg with rfl | hg
    · exact List.isChain_cons.2 ⟨fun _ _ => h, hchain group List.mem_cons_self⟩
    · exact hchain g (List.mem_cons_of_mem _ hg)
  · rw [List.isChain_cons] at hcut ⊢
    refine ⟨fun g hg => ?_, hcut.2⟩
    obtain ⟨hlast, hhead, hend⟩ := hcut.1 g hg
    exact ⟨List.cons_ne_nil _ _, hhead, by rwa [List.getLast_cons hgroup]⟩

lemma groups_cons_of_not_isContinued (h : isContinued line = false) (lines : List (List Char)) :
    groups (line :: lines) = [line] :: groups lines := by
  cases lines with
  | nil => exact groups_singleton line
  | cons next lines =>
    refine List.splitBy_append_cons (l := [line]) lines ?_
    rintro _ ⟨⟩
    exact h

lemma exists_groups_cons (line : List Char) (lines : List (List Char)) :
    ∃ group others, groups (line :: lines) = group :: others :=
  List.exists_cons_of_ne_nil (List.splitBy_ne_nil.2 (List.cons_ne_nil line lines))

lemma joined_cons (line : List Char) (group : List (List Char)) :
    joined (line :: group) = (beforeJoin? line).getD line ++ joined group :=
  List.flatMap_cons

lemma joined_singleton (line : List Char) : joined [line] = (beforeJoin? line).getD line :=
  List.flatMap_singleton _ _

lemma length_joinFrom_le (front line : List Char) (height : Nat) (lines : List (List Char)) :
    (joinFrom false (front ++ line) height lines).length ≤ (groups (line :: lines)).length := by
  induction lines generalizing front line height with
  | nil =>
    rw [joinFrom]
    split <;> exact Nat.le_refl 1
  | cons next lines ih =>
    cases hline : beforeJoin? line with
    | some start =>
      obtain ⟨group, others, hgroups⟩ := exists_groups_cons next lines
      have hcontinued : isContinued line = true := by rw [isContinued, hline]; rfl
      have hrec := ih (front ++ start) next (height + 1)
      rw [hgroups] at hrec
      rw [joinFrom, beforeJoin?_append hline, groups_cons_of_isContinued hcontinued hgroups]
      exact hrec
    | none =>
      rw [groups_cons_of_not_isContinued (isContinued_eq_false.2 hline), joinFrom, List.length_cons]
      split
      · rename_i start hjoin
        exact Nat.le_succ_of_le (ih start next (height + 1))
      · exact Nat.succ_le_succ (ih [] next 1)

lemma not_mem_append_of_beforeJoin? (hfront : '\n' ∉ front) (hline : '\n' ∉ line.dropLast)
    (hjoin : beforeJoin? line = some start) : '\n' ∉ front ++ start := by
  intro hmem
  rcases List.mem_append.1 hmem with hmem | hmem
  · exact hfront hmem
  · refine hline ?_
    rw [beforeJoin?_eq_some.1 hjoin, List.dropLast_append_of_ne_nil (List.cons_ne_nil _ _)]
    exact List.mem_append_left _ hmem

lemma map_text_joinFrom_nil_iff (hfront : '\n' ∉ front) (hline : '\n' ∉ line.dropLast) :
    (joinFrom false (front ++ line) height []).map (·.text) =
        [withoutLineFeed (front ++ joined [line])] ↔
      isContinued (front ++ joined [line]) = false := by
  rw [joinFrom, joined_singleton]
  cases hjoin : beforeJoin? line with
  | some start =>
    have hnot := not_mem_append_of_beforeJoin? hfront hline hjoin
    have hopen : isContinued (front ++ start) = false := by
      rw [isContinued_eq_false, Option.eq_none_iff_forall_not_mem]
      intro text htext
      rw [Option.mem_def, beforeJoin?_eq_some] at htext
      rw [htext] at hnot
      simp at hnot
    rw [beforeJoin?_append hjoin]
    simp [withoutLineFeed_of_not_mem hnot, hopen]
  | none =>
    rw [Option.getD_none]
    cases hopen : beforeJoin? (front ++ line) with
    | none => simp [isContinued, hopen]
    | some start =>
      have htext : withoutLineFeed (front ++ line) = start ++ ['\\'] := by
        rw [beforeJoin?_eq_some.1 hopen, List.append_cons, withoutLineFeed_append]
      simp [isContinued, hopen, htext]

/-- The lines that are joined are those of the groups if and only if no group leaves a text that is
continued. The text `front` has been gathered from the lines in front of these. -/
lemma map_text_joinFrom_iff (hfront : '\n' ∉ front)
    (hlines : ∀ l ∈ line :: lines, '\n' ∉ l.dropLast)
    (hgroups : groups (line :: lines) = group :: others) :
    (joinFrom false (front ++ line) height lines).map (·.text) =
        withoutLineFeed (front ++ joined group) :: others.map ofGroup ↔
      isContinued (front ++ joined group) = false ∧
        ∀ g ∈ others, isContinued (joined g) = false := by
  induction lines generalizing front line height group others with
  | nil =>
    obtain ⟨rfl, rfl⟩ := List.cons.inj ((groups_singleton line).symm.trans hgroups)
    have hline := hlines line List.mem_cons_self
    rw [List.map_nil, map_text_joinFrom_nil_iff hfront hline, and_iff_left (List.forall_mem_nil _)]
  | cons next lines ih =>
    obtain ⟨hline, hrest⟩ := List.forall_mem_cons.1 hlines
    obtain ⟨group', others', hgroups'⟩ := exists_groups_cons next lines
    cases hjoin : beforeJoin? line with
    | some start =>
      have hcontinued : isContinued line = true := by rw [isContinued, hjoin]; rfl
      rw [groups_cons_of_isContinued hcontinued hgroups'] at hgroups
      cases hgroups
      rw [joinFrom, beforeJoin?_append hjoin, joined_cons, hjoin, Option.getD_some,
        ← List.append_assoc]
      exact ih (not_mem_append_of_beforeJoin? hfront hline hjoin) hrest hgroups'
    | none =>
      rw [groups_cons_of_not_isContinued (isContinued_eq_false.2 hjoin)] at hgroups
      cases hgroups
      rw [joinFrom, joined_singleton, hjoin, Option.getD_none]
      cases hopen : beforeJoin? (front ++ line) with
      | none =>
        rw [hgroups', List.forall_mem_cons, List.map_cons, List.map_cons, List.cons.injEq,
          and_iff_right rfl, and_iff_right (isContinued_eq_false.2 hopen)]
        exact ih List.not_mem_nil hrest hgroups'
      | some start =>
        -- The next group is joined to this one, and a line is missing at the end.
        have hshort := length_joinFrom_le start next (height + 1) lines
        refine iff_of_false (fun heq => ?_) (fun h => ?_)
        · have hlength := congrArg List.length heq
          rw [List.length_map, List.length_cons, List.length_map] at hlength
          dsimp only at hlength
          omega
        · rw [isContinued, hopen] at h
          exact Bool.noConfusion h.1

/-- The lines of a text are those of its groups if and only if no group leaves a text that is
continued. -/
theorem map_text_ofText_iff (text : List Char) :
    (ofText text).map (·.text) =
        (groups (physicalLines (foldLineBreaks text))).map ofGroup ↔
      ∀ group ∈ groups (physicalLines (foldLineBreaks text)),
        isContinued (joined group) = false := by
  rw [ofText]
  have hlines : ∀ l ∈ physicalLines (foldLineBreaks text), '\n' ∉ l.dropLast :=
    fun l hl => not_mem_dropLast_of_mem_physicalLines hl
  cases hphysical : physicalLines (foldLineBreaks text) with
  | nil => exact iff_of_true rfl (List.forall_mem_nil _)
  | cons line lines =>
    rw [hphysical] at hlines
    obtain ⟨group, others, hgroups⟩ := exists_groups_cons line lines
    rw [ofPhysical, hgroups, List.map_cons, List.forall_mem_cons]
    exact map_text_joinFrom_iff List.not_mem_nil hlines hgroups

end Line

namespace LineReader

lemma pending_of_next {r r' : LineReader} {line : List Char} (h : r.next = .ok (some line, r')) :
    r'.pending < r.pending := by
  obtain ⟨line, rest, hupcoming, -, hupcoming', -⟩ := next_eq_some h
  rw [pending_eq, pending_eq, hupcoming, hupcoming', List.length_cons]
  exact Nat.lt_succ_self _

/-- The texts of the lines that are read one after the other up to the end of the file. -/
def readAll (r : LineReader) : Except Text.DecodeError (List (List Char)) :=
  match _h : r.next with
  | .error error => .error error
  | .ok (none, _) => .ok []
  | .ok (some line, r) => (readAll r).map (line :: ·)
termination_by r.pending
decreasing_by exact pending_of_next _h

lemma readAll_of_rest {r : LineReader} (hunread : r.unread = none) (hdamage : r.damage = none) :
    r.readAll = .ok (r.rest.map (·.text)) := by
  obtain ⟨file, rest, damage, later, linenr, lineStart, lastHeight, unread⟩ := r
  cases hunread
  cases hdamage
  induction rest generalizing linenr lineStart lastHeight with
  | nil =>
    rw [readAll]
    rfl
  | cons line rest ih =>
    have hrec := ih (linenr + line.height) (linenr + 1) line.height
    rw [readAll]
    dsimp only [next, take]
    rw [hrec]
    rfl

lemma readAll_ofBytes {bytes : List UInt8} {text : List Char}
    (h : Text.decodeUtf8 bytes = .whole text) (file : String) :
    (ofBytes file bytes).readAll = .ok ((Line.ofText text).map (·.text)) := by
  rw [ofBytes_of_whole file h]
  exact readAll_of_rest rfl rfl

/-- Reading a file up to its end gives the lines of the groups of its physical lines if and only if
no group leaves a text that ends in a backslash and a line feed. -/
theorem readAll_eq_groups_iff {bytes : List UInt8} {text : List Char}
    (h : Text.decodeUtf8 bytes = .whole text) (file : String) :
    (ofBytes file bytes).readAll =
        .ok ((Line.groups (physicalLines (foldLineBreaks text))).map Line.ofGroup) ↔
      ∀ group ∈ Line.groups (physicalLines (foldLineBreaks text)),
        Line.isContinued (Line.joined group) = false := by
  rw [readAll_ofBytes h, Except.ok.injEq]
  exact Line.map_text_ofText_iff text

/-- A line in three parts, an empty line, and a line that the end of the file leaves continued. -/
def continued : List UInt8 :=
  "a\\\n\\\n b\\\\\nc\n\nd\\\n".toUTF8.toList

theorem readAll_eq_groups_iff_continued : ∃ text, Text.decodeUtf8 continued = .whole text ∧
    Line.groups (physicalLines (foldLineBreaks text)) =
        [["a\\\n", "\\\n", " b\\\\\n", "c\n"], ["\n"], ["d\\\n"]].map (·.map String.toList) ∧
      (ofBytes "K" continued).readAll = .ok (["a b\\c", "", "d"].map String.toList) := by
  let text := "a\\\n\\\n b\\\\\nc\n\nd\\\n".toList
  have hbytes : Text.decodeUtf8 continued = .whole text := by decide +kernel
  have htexts : (Line.groups (physicalLines (foldLineBreaks text))).map Line.ofGroup =
      ["a b\\c", "", "d"].map String.toList := by decide +kernel
  refine ⟨text, hbytes, by decide +kernel, ?_⟩
  rw [← htexts]
  exact (readAll_eq_groups_iff hbytes "K").2 (by decide +kernel)

/-- A line that ends in two backslashes, and an empty line after it. -/
def leftOver : List UInt8 :=
  "a\\\\\n\nb\n".toUTF8.toList

/-- The second line does not end in a backslash, and still the third one is joined to it. -/
theorem readAll_ne_of_backslashes :
    (ofBytes "K" leftOver).readAll = .ok ["ab".toList] ∧
      (Line.groups (physicalLines "a\\\\\n\nb\n".toList)).map Line.ofGroup =
        ["a\\".toList, "b".toList] := by
  have hbytes : Text.decodeUtf8 leftOver = .whole "a\\\\\n\nb\n".toList := by decide +kernel
  refine ⟨?_, by decide +kernel⟩
  rw [readAll_ofBytes hbytes]
  decide +kernel

end LineReader

end Kconfig
