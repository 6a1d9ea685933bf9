import Kconfig.FileSystem.Snapshot
import Kconfig.Proofs.Forecast

/-!
# Dependencies

What each entry of a tree depends on, in terms of what the parser takes from the files: the
conditions of its own directives, and those of the `if` blocks around it in all files. A block that
is opened in one file can go on in another, so these conditions are counted along the history.
-/

namespace Kconfig

namespace Tree

variable {fs : FileSystem} {settings : Settings} {tree : Tree}

/-- Each entry of a tree depends on the conditions of its own `depends` directives in the order in
which they are read, then on that of its last prompt, then on those of the `if` blocks that are open
in front of its header, without repetition. The root stands in front of all `if` blocks. -/
theorem depends_eq_dependencies (h : parse fs settings = .ok tree) :
    tree.root.head.depends = (dependencies [] (settings.history fs)).eraseDups ∧
      ∀ (k : Nat) (e : Entry), tree.nodes[k]? = some e → ∃ before after,
        settings.history fs = before ++ .header e.header :: after ∧
          (before.filterMap Event.header?).length = k ∧
            e.head.depends = (dependencies before after).eraseDups := by
  refine ⟨(forecast_of_parse h).1, ?_⟩
  intro k e hk
  have hheader : ((settings.history fs).filterMap Event.header?)[k]? = some e.header := by
    rw [← map_header_of_parse h, List.getElem?_map, hk]
    rfl
  obtain ⟨before, after, hhistory, hbefore⟩ := exists_header hheader
  refine ⟨before, after, hhistory, hbefore, ?_⟩
  have hrow := getElem?_eventRows [] [] 0 before e.header after
  have hnode := congrArg (fun rows => rows[k]?) (map_nodes_of_parse h)
  rw [hhistory, List.getElem?_map, List.getElem?_map, hk, ← hbefore, hrow] at hnode
  simp only [Option.map_some, Option.some.injEq, Prod.mk.injEq] at hnode
  exact hnode.2

end Tree

/-- An `if` block begins in the top-level file and ends in the included one. -/
def crossing : Snapshot where
  files := [
    (["K".toList], "if A\nsource \"L\"\nconfig C\n".toUTF8.toList),
    (["L".toList], "config B\n bool \"b\" if D\n depends on E\nendif\n".toUTF8.toList)]

theorem depends_eq_dependencies_crossing : ∃ tree,
    Tree.parse crossing.toFileSystem { root := "", file := "K" } = .ok tree ∧
      tree.nodes.map (·.head.depends) = [[⟨"E"⟩, ⟨"D"⟩, ⟨"A"⟩], []] ∧
        tree.root.head.depends = (dependencies []
          (Settings.history crossing.toFileSystem { root := "", file := "K" })).eraseDups := by
  have hrun : (Tree.parseFor crossing.toFileSystem { root := "", file := "K" } 40).any (fun tree =>
      tree.nodes.map (·.head.depends) = [[⟨"E"⟩, ⟨"D"⟩, ⟨"A"⟩], []]) = true := by decide +kernel
  obtain ⟨tree, htree, hdepends⟩ := (Option.any_eq_true _ _).1 hrun
  have hparse := Tree.parse_of_parseFor htree
  exact ⟨tree, hparse, of_decide_eq_true hdepends, (Tree.depends_eq_dependencies hparse).1⟩

end Kconfig
