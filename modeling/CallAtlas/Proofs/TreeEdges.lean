import CallAtlas.Proofs.ForestGrowth

/-!
# The edges of trees and forests

The edges of a tree are read off in a traversal of their own.  It agrees with the preorder: the
children of the edges, in order, are the nodes below the root (`CallTree.map_snd_edges`), each edge
leads from a node to one of its branches and all of these are there (`CallTree.mem_edges_iff`), and
the parent comes before the child (`CallTree.sublist_preorder_of_mem_edges`).  The same is then
true of forests.
-/

set_option autoImplicit false

namespace CallAtlas

/-- What a member of a list yields is a part of what the list yields. -/
theorem sublist_flatMap_of_mem {α β : Type} (f : α → List β) {x : α} {xs : List α} (h : x ∈ xs) :
    (f x).Sublist (xs.flatMap f) := by
  rw [List.flatMap_def]
  exact List.sublist_flatten_of_mem (List.mem_map_of_mem h)

namespace CallTree

/-- The root comes first in preorder, and then its branches. -/
theorem preorder_eq (t : CallTree) : t.preorder = t :: preorderBelow t.branches := by
  cases t
  rfl

/-- The edges below a node join it to each branch, and then those of the branch follow. -/
theorem edgesBelow_eq (parent : CallTree) (branches : List (String × CallTree)) :
    edgesBelow parent branches = branches.flatMap fun b => (parent, b.2) :: b.2.edges := by
  induction branches with
  | nil => rfl
  | cons b branches ih => simp [edgesBelow, ih]

/-- The edges of a tree join its root to each branch, and then those of the branch follow. -/
theorem edges_eq (t : CallTree) :
    t.edges = t.branches.flatMap fun b => (t, b.2) :: b.2.edges := by
  cases t with
  | node name file branches => exact edgesBelow_eq _ _

/-- The children of the edges, in their order, are the nodes below the root. -/
theorem map_snd_edges (t : CallTree) : t.edges.map (·.2) = preorderBelow t.branches := by
  induction t using induct with
  | node name file branches ih =>
    rw [edges_eq, preorderBelow_eq, List.map_flatMap]
    refine List.flatMap_congr ?_
    intro b hb
    rw [List.map_cons, ih b hb, ← preorder_eq]

/-- A tree has one node more than edges. -/
theorem length_edges (t : CallTree) : t.edges.length + 1 = t.size := by
  have hchildren := congrArg List.length (map_snd_edges t)
  have hnodes := congrArg List.length (preorder_eq t)
  rw [List.length_map] at hchildren
  rw [List.length_cons, length_preorder] at hnodes
  omega

/-- The edges of a tree join its nodes to their branches. -/
theorem mem_edges_iff {t m n : CallTree} :
    (m, n) ∈ t.edges ↔ m ∈ t.preorder ∧ ∃ key, (key, n) ∈ m.branches := by
  induction t using induct with
  | node name file branches ih =>
    rw [edges_eq, preorder_eq, preorderBelow_eq]
    simp only [List.mem_flatMap, List.mem_cons]
    constructor
    · rintro ⟨b, hb, hroot | hbelow⟩
      · obtain ⟨rfl, rfl⟩ := Prod.mk.inj hroot
        exact ⟨Or.inl rfl, b.1, hb⟩
      · obtain ⟨hm, hbranch⟩ := (ih b hb).mp hbelow
        exact ⟨Or.inr ⟨b, hb, hm⟩, hbranch⟩
    · rintro ⟨rfl | ⟨b, hb, hm⟩, hbranch⟩
      · obtain ⟨key, hn⟩ := hbranch
        exact ⟨(key, n), hn, Or.inl rfl⟩
      · exact ⟨b, hb, Or.inr ((ih b hb).mpr ⟨hm, hbranch⟩)⟩

/-- A tree is one of its own nodes. -/
theorem self_mem_preorder (t : CallTree) : t ∈ t.preorder := by
  rw [preorder_eq]
  exact List.mem_cons_self

/-- The parent comes before the child in preorder. -/
theorem sublist_preorder_of_mem_edges {t m n : CallTree} (h : (m, n) ∈ t.edges) :
    [m, n].Sublist t.preorder := by
  induction t using induct with
  | node name file branches ih =>
    rw [edges_eq, List.mem_flatMap] at h
    obtain ⟨b, hb, h⟩ := h
    have hbranch : b.2.preorder.Sublist (preorderBelow branches) := by
      rw [preorderBelow_eq]
      exact sublist_flatMap_of_mem (fun b => b.2.preorder) hb
    rw [preorder_eq]
    rcases List.mem_cons.mp h with hroot | hbelow
    · obtain ⟨rfl, rfl⟩ := Prod.mk.inj hroot
      have hchild : [b.2].Sublist (preorderBelow branches) :=
        List.singleton_sublist.mpr (hbranch.subset (self_mem_preorder b.2))
      exact hchild.cons_cons _
    · exact ((ih b hb hbelow).trans hbranch).cons _

end CallTree

namespace CallForest

open CallTree

/-- The edges of a forest join its nodes to their branches. -/
theorem mem_edges_iff {forest : CallForest} {m n : CallTree} :
    (m, n) ∈ forest.edges ↔ m ∈ forest.nodes ∧ ∃ key, (key, n) ∈ m.branches := by
  simp only [edges, nodes, List.mem_flatMap, CallTree.mem_edges_iff]
  constructor
  · rintro ⟨t, ht, hm, hbranch⟩
    exact ⟨⟨t, ht, hm⟩, hbranch⟩
  · rintro ⟨⟨t, ht, hm⟩, hbranch⟩
    exact ⟨t, ht, hm, hbranch⟩

/-- The children of the edges are the nodes below the roots in preorder. -/
theorem map_snd_edges (forest : CallForest) :
    forest.edges.map (·.2) = forest.trees.flatMap fun t => preorderBelow t.branches := by
  rw [edges, List.map_flatMap]
  exact List.flatMap_congr fun t _ => CallTree.map_snd_edges t

/-- The children of the edges come in the order of the nodes. -/
theorem children_sublist_nodes (forest : CallForest) :
    (forest.edges.map (·.2)).Sublist forest.nodes := by
  rw [map_snd_edges, nodes]
  induction forest.trees with
  | nil => exact List.Sublist.refl []
  | cons t trees ih =>
    rw [List.flatMap_cons, List.flatMap_cons, preorder_eq]
    exact (List.sublist_cons_self t _).append ih

/-- Both ends of an edge are nodes. -/
theorem mem_nodes_of_mem_edges {forest : CallForest} {m n : CallTree}
    (h : (m, n) ∈ forest.edges) : m ∈ forest.nodes ∧ n ∈ forest.nodes := by
  have hn : n ∈ forest.edges.map (·.2) := List.mem_map.mpr ⟨(m, n), h, rfl⟩
  exact ⟨(mem_edges_iff.mp h).1, (children_sublist_nodes forest).subset hn⟩

/-- The parent comes before the child among the nodes. -/
theorem sublist_nodes_of_mem_edges {forest : CallForest} {m n : CallTree}
    (h : (m, n) ∈ forest.edges) : [m, n].Sublist forest.nodes := by
  obtain ⟨t, ht, hedge⟩ := List.mem_flatMap.mp h
  have hpair : [m, n].Sublist t.preorder := sublist_preorder_of_mem_edges hedge
  exact hpair.trans (sublist_flatMap_of_mem _ ht)

/-- The nodes of a forest are its roots and the children of its edges. -/
theorem perm_nodes (forest : CallForest) :
    forest.nodes.Perm (forest.trees ++ forest.edges.map (·.2)) := by
  have hnodes : forest.nodes = forest.trees.flatMap fun t => t :: preorderBelow t.branches := by
    rw [nodes]
    exact List.flatMap_congr fun t _ => preorder_eq t
  have hperm := List.map_append_flatMap_perm forest.trees id fun t => preorderBelow t.branches
  rw [List.map_id] at hperm
  rw [hnodes, map_snd_edges]
  exact hperm.symm

/-- A forest has as many nodes as edges and trees. -/
theorem length_edges (forest : CallForest) :
    forest.edges.length + forest.trees.length = forest.size := by
  have hlength := (perm_nodes forest).length_eq
  rw [length_nodes, List.length_append, List.length_map] at hlength
  omega

end CallForest

end CallAtlas
