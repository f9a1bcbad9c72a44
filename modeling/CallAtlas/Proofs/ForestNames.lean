import CallAtlas.Proofs.ForestGrowth

/-!
# The names of a forest

A forest is an index of names: no name has two nodes, each branch hangs under the name it is
called by, and each node tells the file of the last definition of its name.  So a forest has at
most as many nodes as there are defined names.

The list of names seen carries the first fact (`nodup_names_grow`); the others are read off the
growth of a single node (`exists_grown_of_mem_nodes`).
-/

set_option autoImplicit false

namespace CallAtlas

open CallTree

/-- A branch leads to a node with its key for a name. -/
theorem name_of_mem_growBelow {defs : List Definition} {below : Nat} {seen : List String}
    {d : Definition} {b : String × CallTree} (h : b ∈ (growBelow defs below seen d).1) :
    b.2.name = b.1 := by
  cases below with
  | zero => simp [growBelow] at h
  | succ below =>
    obtain ⟨seen', ht⟩ := exists_grown_of_mem_growBranches h
    exact name_of_growTree ht

namespace CallForest

/-- A branch of the grown forest has the name it is held by. -/
theorem name_of_mem_branches {defs : List Definition} {limits : ForestLimits} {n : CallTree}
    (hn : n ∈ (grow defs limits).nodes) {b : String × CallTree} (hb : b ∈ n.branches) :
    b.2.name = b.1 := by
  obtain ⟨below, seen, hgrown⟩ := exists_grown_of_mem_nodes hn
  obtain ⟨d, -, -, hnode⟩ := growTree_eq_some hgrown
  rw [hnode] at hb
  exact name_of_mem_growBelow hb

/-- A branch of the grown forest is a step from its node. -/
theorem step_of_mem_branches {defs : List Definition} {limits : ForestLimits} {n : CallTree}
    (hn : n ∈ (grow defs limits).nodes) {b : String × CallTree} (hb : b ∈ n.branches) :
    Step defs n.name b.2.name := by
  rw [name_of_mem_branches hn hb]
  obtain ⟨below, seen, hgrown⟩ := exists_grown_of_mem_nodes hn
  obtain ⟨d, hd, -, hnode⟩ := growTree_eq_some hgrown
  rw [hnode] at hb
  exact step_of_mem_growBelow hd hb

/-- A node of the grown forest has the name and the file of a last definition. -/
theorem exists_last_of_mem_nodes {defs : List Definition} {limits : ForestLimits} {n : CallTree}
    (hn : n ∈ (grow defs limits).nodes) :
    ∃ d, IsLast defs d ∧ n.name = d.name ∧ n.file = d.file := by
  obtain ⟨below, seen, hgrown⟩ := exists_grown_of_mem_nodes hn
  obtain ⟨d, hd, -, hnode⟩ := growTree_eq_some hgrown
  obtain ⟨hlast, hname⟩ := resolve_eq_some_iff.mp hd
  refine ⟨d, hlast, hname.symm, ?_⟩
  rw [hnode]
  rfl

/-- A node of the grown forest has a defined name. -/
theorem isDefined_of_mem_nodes {defs : List Definition} {limits : ForestLimits} {n : CallTree}
    (hn : n ∈ (grow defs limits).nodes) : IsDefined defs n.name := by
  obtain ⟨d, hlast, hname, -⟩ := exists_last_of_mem_nodes hn
  rw [hname]
  exact hlast.isDefined

/-- The names of a grown forest are defined. -/
theorem names_grow_subset (defs : List Definition) (limits : ForestLimits) :
    (grow defs limits).names.toFinset ⊆ definedNames defs := by
  intro name hname
  rw [List.mem_toFinset] at hname
  obtain ⟨n, hn, rfl⟩ := List.mem_map.mp hname
  exact mem_definedNames.mpr (isDefined_of_mem_nodes hn)

/-- The grown forest has at most one node for each defined name. -/
theorem size_grow_le (defs : List Definition) (limits : ForestLimits) :
    (grow defs limits).size ≤ (definedNames defs).card := by
  calc
    (grow defs limits).size = (grow defs limits).names.length := by
      rw [← length_nodes, names, List.length_map]
    _ = (grow defs limits).names.toFinset.card :=
      (List.toFinset_card_of_nodup (nodup_names_grow defs limits)).symm
    _ ≤ (definedNames defs).card := Finset.card_le_card (names_grow_subset defs limits)

/-- The grown forest lists each name once, holds every branch by the branch's name, and gives every
node the file of the last definition of its name; so it has no more nodes than there are defined
names. -/
theorem grow_lists_each_name_once (defs : List Definition) (limits : ForestLimits) :
    ((grow defs limits).nodes.map (·.name)).Nodup ∧
      (∀ n ∈ (grow defs limits).nodes, ∀ b ∈ n.branches, b.2.name = b.1) ∧
      (∀ n ∈ (grow defs limits).nodes,
        ∃ d, IsLast defs d ∧ n.name = d.name ∧ n.file = d.file) ∧
      (grow defs limits).size ≤ (definedNames defs).card :=
  ⟨nodup_names_grow defs limits, fun _ hn _ hb => name_of_mem_branches hn hb,
    fun _ hn => exists_last_of_mem_nodes hn, size_grow_le defs limits⟩

end CallForest

end CallAtlas
