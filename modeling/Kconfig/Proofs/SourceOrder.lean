import Kconfig.FileSystem.Snapshot
import Kconfig.Proofs.Forecast

/-!
# Source order

A tree holds the entries whose headers the parser takes, each once and in that order, and each below
the innermost menu or choice that is open then. Entries are put into the tree when they are closed,
so that menus and choices come after what they hold; a walk through the tree brings them in front
again.
-/

namespace Kconfig

namespace Entry

lemma parent_rowsAll (size : Nat) (es : List Entry) (parent : Option Nat) (i k : Nat)
    (r : Outline.Row) (hsize : (walkAll es).length = size)
    (hk : (rowsAll parent i es)[k]? = some r) :
    ∃ e, (walkAll es)[k]? = some e ∧ (r.parent = parent ∧ e ∈ es ∨
      ∃ j p, r.parent = some (i + j) ∧ (walkAll es)[j]? = some p ∧ e ∈ p.children) := by
  induction size using Nat.strongRecOn generalizing es parent i k r with
  | ind size ih =>
    cases es with
    | nil =>
      rw [rowsAll] at hk
      cases hk
    | cons e es =>
      rw [walkAll, walk_eq, List.length_append, List.length_cons] at hsize
      rw [rowsAll, rows_eq, List.cons_append] at hk
      rw [walkAll, walk_eq, List.cons_append]
      cases k with
      | zero =>
        cases hk
        exact ⟨e, rfl, .inl ⟨rfl, List.mem_cons_self⟩⟩
      | succ k =>
        rw [List.getElem?_cons_succ] at hk ⊢
        have hlength := length_rowsAll (some i) (i + 1) e.children
        -- The row is that of an entry below `e`, or of one after it.
        by_cases hin : k < (walkAll e.children).length
        · rw [List.getElem?_append_left (by omega)] at hk
          rw [List.getElem?_append_left hin]
          obtain ⟨c, hc, hcase⟩ := ih _ (by omega) e.children (some i) (i + 1) k r rfl hk
          refine ⟨c, hc, .inr ?_⟩
          rcases hcase with ⟨hparent, hmem⟩ | ⟨j, p, hparent, hp, hmem⟩
          · exact ⟨0, e, hparent, rfl, hmem⟩
          · refine ⟨j + 1, p, ?_, ?_, hmem⟩
            · rw [hparent, Nat.add_assoc, Nat.add_comm 1 j]
            · have hj := (List.getElem?_eq_some_iff.1 hp).1
              rw [List.getElem?_cons_succ, List.getElem?_append_left hj]
              exact hp
        · rw [List.getElem?_append_right (by omega), hlength] at hk
          rw [List.getElem?_append_right (by omega)]
          obtain ⟨c, hc, hcase⟩ := ih _ (by omega) es parent _ _ r rfl hk
          refine ⟨c, hc, ?_⟩
          rcases hcase with ⟨hparent, hmem⟩ | ⟨j, p, hparent, hp, hmem⟩
          · exact .inl ⟨hparent, List.mem_cons_of_mem _ hmem⟩
          · refine .inr ⟨j + (walkAll e.children).length + 1, p, ?_, ?_, hmem⟩
            · rw [hparent, walk_eq, List.length_cons]
              congr 1
              omega
            · rw [List.getElem?_cons_succ, List.getElem?_append_right (by omega),
                Nat.add_sub_cancel]
              exact hp

end Entry

namespace Tree

variable {fs : FileSystem} {settings : Settings} {tree : Tree}

/-- The entries right below the entry with the given number, or below the root. -/
def childrenOf (tree : Tree) (number : Option Nat) : List Entry :=
  match number with
  | none => tree.root.children
  | some i => (tree.nodes[i]?.map Entry.children).getD []

lemma mem_childrenOf {k : Nat} {r : Outline.Row} (h : tree.outline[k]? = some r) :
    ∃ e, tree.nodes[k]? = some e ∧ e ∈ tree.childrenOf r.parent := by
  obtain ⟨e, he, hcase⟩ := Entry.parent_rowsAll _ _ _ _ _ _ rfl h
  refine ⟨e, he, ?_⟩
  rcases hcase with ⟨hparent, hmem⟩ | ⟨j, p, hparent, hp, hmem⟩
  · rw [hparent]
    exact hmem
  · rw [hparent, Nat.zero_add, childrenOf]
    change e ∈ ((Entry.walkAll tree.root.children)[j]?.map Entry.children).getD []
    rw [hp]
    exact hmem

/-- A walk through a tree finds the entries whose headers are taken in the run, each once and in
this order. Each is a child of the innermost menu or choice that is open in front of its header, or
of the root if there is none. The report counts them. -/
theorem nodes_in_source_order (h : parse fs settings = .ok tree) :
    tree.nodes.map Entry.header = (settings.history fs).filterMap Event.header? ∧
      (∀ before header after, settings.history fs = before ++ .header header :: after →
        ∃ e, tree.nodes[(before.filterMap Event.header?).length]? = some e ∧
          e.header = header ∧ e ∈ tree.childrenOf (openBlocks before).head? ∧
            tree.parents[(before.filterMap Event.header?).length]? =
              some (openBlocks before).head?) ∧
        tree.report.entryCount = ((settings.history fs).filterMap Event.header?).length := by
  have hheaders := map_header_of_parse h
  refine ⟨hheaders, ?_, ?_⟩
  · intro before header after hhistory
    have hrow := getElem?_eventRows [] [] 0 before header after
    rw [← hhistory, ← (forecast_of_parse h).2] at hrow
    obtain ⟨e, he, hmem⟩ := mem_childrenOf hrow
    refine ⟨e, he, ?_, hmem, ?_⟩
    · have hheader := congrArg (fun headers => headers[(before.filterMap Event.header?).length]?)
        hheaders
      rw [hhistory, List.filterMap_append, Event.filterMap_header, List.getElem?_map, he,
        List.getElem?_append_right (Nat.le_refl _), Nat.sub_self] at hheader
      exact Option.some.inj hheader
    · rw [parents, List.getElem?_map, hrow]
      rfl
  · obtain ⟨s, e, ctx, -, -, rfl⟩ := parse_eq_ok.1 h
    rw [← hheaders, List.length_map]
    rfl

end Tree

/-- A choice in a menu, with a config from another file in it and one after it. -/
def nesting : Snapshot where
  files := [
    (["K".toList],
      "menu \"m\"\nchoice\nsource \"L\"\nendchoice\nconfig B\nendmenu\nconfig C\n".toUTF8.toList),
    (["L".toList], "config A\n bool \"a\"\n".toUTF8.toList)]

theorem nodes_in_source_order_nesting : ∃ tree,
    Tree.parse nesting.toFileSystem { root := "", file := "K" } = .ok tree ∧
      tree.parents = [none, some 0, some 1, some 0, none] ∧
        tree.nodes.map Entry.header =
          (Settings.history nesting.toFileSystem { root := "", file := "K" }).filterMap
            Event.header? := by
  have hrun : (Tree.parseFor nesting.toFileSystem { root := "", file := "K" } 40).any (fun tree =>
      tree.parents = [none, some 0, some 1, some 0, none]) = true := by decide +kernel
  obtain ⟨tree, htree, hparents⟩ := (Option.any_eq_true _ _).1 hrun
  have hparse := Tree.parse_of_parseFor htree
  exact ⟨tree, hparse, of_decide_eq_true hparents, (Tree.nodes_in_source_order hparse).1⟩

end Kconfig
