import CallAtlas.Proofs.EntryTrees

/-!
# The cap on entry points

The trees of a forest are grown one after the other, and a later tree has no say in an earlier one.
So a forest of more entry points begins with the trees of fewer: the trees that come after them grow
from the other entry points, when just the names of the smaller forest have been seen
(`trees_grow_eq_append`).  Since every entry point within the cap gets a tree, the trees of the
smaller forest are as many as its cap admits, and the larger forest may be cut there
(`larger_cap_only_appends_trees`).
-/

set_option autoImplicit false

namespace CallAtlas

open CallTree

/-- Trees of more entry points come after those of the first, and see what these have seen. -/
theorem growTrees_append (defs : List Definition) (below : Nat) (seen done rest : List String) :
    growTrees defs below seen (done ++ rest) =
      growTrees defs below seen done ++
        growTrees defs below (growBranches (growTree defs below) seen done).2 rest := by
  simp only [growTrees_eq, growBranches_append, List.map_append]

namespace CallForest

/-- A forest has as many trees as the cap admits entry points. -/
theorem length_trees_grow (defs : List Definition) (limits : ForestLimits) :
    (grow defs limits).trees.length = min limits.maxEntries (entryPoints defs).length := by
  have hentries := congrArg List.length (entryNames_grow defs limits)
  rwa [entryNames, List.length_map, List.length_take] at hentries

/-- When the trees of a forest have been grown, its names have been seen and no others. -/
theorem seen_grow (defs : List Definition) (limits : ForestLimits) :
    (growBranches (growTree defs (limits.maxDepth - 1)) []
      ((entryPoints defs).take limits.maxEntries)).2 = (grow defs limits).names.reverse := by
  rw [growBranches_seen (growTree_seen defs _), List.append_nil, names_grow, roots]

section Caps

variable {j k : Nat} (h : j ≤ k) (defs : List Definition) (maxDepth : Nat)

include h

/-- The trees of a larger cap are those of a smaller one, and then those that grow from the other
entry points when the names of the smaller forest have been seen. -/
theorem trees_grow_eq_append :
    (grow defs ⟨maxDepth, k⟩).trees = (grow defs ⟨maxDepth, j⟩).trees ++
      growTrees defs (maxDepth - 1) (grow defs ⟨maxDepth, j⟩).names.reverse
        (((entryPoints defs).take k).drop j) := by
  have hentries : (entryPoints defs).take k =
      (entryPoints defs).take j ++ ((entryPoints defs).take k).drop j := by
    have hsplit := List.take_append_drop j ((entryPoints defs).take k)
    rwa [List.take_take, Nat.min_eq_left h, eq_comm] at hsplit
  calc
    (grow defs ⟨maxDepth, k⟩).trees =
        growTrees defs (maxDepth - 1) [] ((entryPoints defs).take k) := rfl
    _ = (grow defs ⟨maxDepth, j⟩).trees ++
        growTrees defs (maxDepth - 1) (growBranches (growTree defs (maxDepth - 1)) []
          ((entryPoints defs).take j)).2 (((entryPoints defs).take k).drop j) := by
      rw [hentries, growTrees_append, ← hentries]
      rfl
    _ = _ := by rw [seen_grow defs ⟨maxDepth, j⟩]

/-- With a smaller cap a forest is made of the first of the trees. -/
theorem trees_grow_eq_take :
    (grow defs ⟨maxDepth, j⟩).trees =
      (grow defs ⟨maxDepth, k⟩).trees.take (min j (grow defs ⟨maxDepth, k⟩).trees.length) := by
  have hcut : min j (grow defs ⟨maxDepth, k⟩).trees.length =
      (grow defs ⟨maxDepth, j⟩).trees.length := by
    rw [length_trees_grow, length_trees_grow, ← Nat.min_assoc, Nat.min_eq_left h]
  rw [hcut, trees_grow_eq_append h, List.take_left]

end Caps

/-- **A larger cap only appends trees.**  Of two forests of a program with the same limit of levels,
the one with the smaller cap consists of the first trees of the other, as many as the cap admits.
There is one for each entry point within the cap, and the trees that the larger cap adds grow when
the names of the smaller forest have been seen. -/
theorem larger_cap_only_appends_trees (defs : List Definition) (maxDepth : Nat) {j k : Nat}
    (h : j ≤ k) :
    (grow defs ⟨maxDepth, j⟩).trees =
        (grow defs ⟨maxDepth, k⟩).trees.take (min j (grow defs ⟨maxDepth, k⟩).trees.length) ∧
      (grow defs ⟨maxDepth, j⟩).trees.length = min j (entryPoints defs).length ∧
      (grow defs ⟨maxDepth, k⟩).trees = (grow defs ⟨maxDepth, j⟩).trees ++
        growTrees defs (maxDepth - 1) (grow defs ⟨maxDepth, j⟩).names.reverse
          (((entryPoints defs).take k).drop j) :=
  ⟨trees_grow_eq_take h defs maxDepth, length_trees_grow defs ⟨maxDepth, j⟩,
    trees_grow_eq_append h defs maxDepth⟩

/-- Three entry points that share a callee, which calls back, with one that only the second has. -/
def sharingEntries : List Definition :=
  [⟨"main", "m.js", 1, .declaration, .ofList ["load"]⟩,
   ⟨"load", "m.js", 2, .declaration, .ofList ["load", "parse"]⟩,
   ⟨"test", "t.js", 1, .arrow, .ofList ["check", "load"]⟩,
   ⟨"parse", "m.js", 3, .declaration, .empty⟩,
   ⟨"check", "t.js", 2, .arrow, .ofList ["parse"]⟩,
   ⟨"bench", "t.js", 3, .arrow, .ofList ["check", "load"]⟩]

/-- The first tree has the shared callees whatever the cap is, and the last one has nothing left. -/
theorem first_trees_of_sharing_entries :
    let main : CallTree :=
      .node "main" "m.js" [("load", .node "load" "m.js" [("parse", .node "parse" "m.js" [])])]
    let test : CallTree := .node "test" "t.js" [("check", .node "check" "t.js" [])]
    let bench : CallTree := .node "bench" "t.js" []
    2 ≤ 7 ∧ (grow sharingEntries ⟨3, 7⟩).trees = [main, test, bench] ∧
      (grow sharingEntries ⟨3, 2⟩).trees = [main, test] ∧
      (grow sharingEntries ⟨3, 2⟩).trees = (grow sharingEntries ⟨3, 7⟩).trees.take
        (min 2 (grow sharingEntries ⟨3, 7⟩).trees.length) := by
  intro main test bench
  exact ⟨by decide, rfl, rfl, (larger_cap_only_appends_trees sharingEntries 3 (by decide)).1⟩

end CallForest

end CallAtlas
