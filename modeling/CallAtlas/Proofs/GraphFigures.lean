import CallAtlas.Proofs.RecursiveGroups
import Mathlib.Data.List.Sort

/-!
# The figures of a call graph

The number of edges and the recursive groups of a program depend on its calls alone: every call is
listed as an edge once (`nodup_edges`), and the groups are put together from names in increasing
order and from what leads to what.  So programs with the same calls have the same figures
(`edgeCount_congr`, `recursiveGroups_congr`), however their definitions are arranged, and a program
with more calls has at least as many edges (`edgeCount_mono`).
-/

set_option autoImplicit false

namespace CallAtlas

open Relation (TransGen)

namespace CallGraph

variable {defs defs' : List Definition}

/-- No callee of a name is listed twice. -/
theorem nodup_callees (defs : List Definition) (name : String) : (callees defs name).Nodup :=
  nodup_eraseDups _

/-- No edge of a graph is listed twice. -/
theorem nodup_edges (defs : List Definition) : (ofDefinitions defs).edges.Nodup := by
  have hedges : (ofDefinitions defs).edges =
      (ofDefinitions defs).nodes.flatMap fun name => (callees defs name).map (name, ·) := by
    rw [edges, ofDefinitions, List.flatMap_map, nodes, List.map_map, List.flatMap_map]
    rfl
  have hnodes : (ofDefinitions defs).nodes.Nodup := by
    refine (nodes_increasing defs).imp ?_
    rintro a b hlt rfl
    exact String.lt_irrefl a hlt
  rw [hedges, List.nodup_flatMap]
  constructor
  · intro name _
    exact (nodup_callees defs name).map fun callee callee' h => (Prod.mk.inj h).2
  · refine hnodes.imp ?_
    intro a b hne pair ha hb
    obtain ⟨callee, -, rfl⟩ := List.mem_map.mp ha
    obtain ⟨callee', -, heq⟩ := List.mem_map.mp hb
    exact hne (Prod.mk.inj heq).1.symm

/-- With more calls a graph has no fewer edges. -/
theorem edgeCount_mono (h : ∀ a b, Calls defs a b → Calls defs' a b) :
    (ofDefinitions defs).edgeCount ≤ (ofDefinitions defs').edgeCount := by
  have hsub : (ofDefinitions defs).edges ⊆ (ofDefinitions defs').edges := by
    intro pair hpair
    obtain ⟨a, b⟩ := pair
    exact mem_edges_iff.mpr (h a b (mem_edges_iff.mp hpair))
  have hle := (nodup_edges defs).subperm hsub
  exact hle.length_le

/-- With the same calls two graphs have the same number of edges. -/
theorem edgeCount_congr (h : ∀ a b, Calls defs a b ↔ Calls defs' a b) :
    (ofDefinitions defs).edgeCount = (ofDefinitions defs').edgeCount := by
  have hle := edgeCount_mono fun a b => (h a b).mp
  have hge := edgeCount_mono fun a b => (h a b).mpr
  omega

/-- Two programs with the same calls have one call relation. -/
theorem calls_eq (h : ∀ a b, Calls defs a b ↔ Calls defs' a b) : Calls defs = Calls defs' := by
  funext a b
  exact propext (h a b)

/-- With the same calls two graphs have the same names on cycles. -/
theorem cyclicNames_congr (h : ∀ a b, Calls defs a b ↔ Calls defs' a b) :
    (ofDefinitions defs).cyclicNames = (ofDefinitions defs').cyclicNames := by
  refine (cyclicNames_increasing defs).eq_of_mem_iff (cyclicNames_increasing defs') ?_
  intro name
  rw [mem_cyclicNames_iff, mem_cyclicNames_iff, calls_eq h]

/-- With the same calls a name has the same group in two graphs. -/
theorem groupOf_congr (h : ∀ a b, Calls defs a b ↔ Calls defs' a b) (name : String) :
    (ofDefinitions defs).groupOf name = (ofDefinitions defs').groupOf name := by
  refine (groupOf_increasing defs name).eq_of_mem_iff (groupOf_increasing defs' name) ?_
  intro other
  rw [mem_groupOf_iff, mem_groupOf_iff, calls_eq h]

/-- With the same calls two graphs have the same recursive groups. -/
theorem recursiveGroups_congr (h : ∀ a b, Calls defs a b ↔ Calls defs' a b) :
    (ofDefinitions defs).recursiveGroups = (ofDefinitions defs').recursiveGroups := by
  have hgroups : (ofDefinitions defs).groupOf = (ofDefinitions defs').groupOf := by
    funext name
    exact groupOf_congr h name
  rw [recursiveGroups_eq, recursiveGroups_eq, cyclicNames_congr h, hgroups]

end CallGraph

end CallAtlas
