import CallAtlas.Proofs.NumberedParts
import CallAtlas.Proofs.TreeEdges

/-!
# Addresses in a call tree

Two nodes of a call tree may look alike, so the parent of a node is not told by what the node
holds.  It is told by the address of the node, the numbers of the branches that lead to it from the
root: the address of the parent is this one without its last number.

A tree is read in two traversals, one that lists nodes and one that lists edges.  The main
statement, `edges_join_walked_nodes_to_parents`, ties both to the addresses.  The nodes are those
at all addresses in the order of words, and the edges are those from the parent's address to each
address but the root's, in the same order.
-/

set_option autoImplicit false

namespace CallAtlas.CallTree

/-- The node at an address, if the address leads to one. -/
def at? (t : CallTree) : List Nat → Option CallTree
  | [] => some t
  | i :: rest => t.branches[i]?.bind fun b => b.2.at? rest

mutual

/-- The addresses of all nodes in preorder. -/
def addresses : CallTree → List (List Nat)
  | node _ _ branches => [] :: addressesBelow 0 branches

/-- The addresses of all nodes of branches that are numbered from `n` on, in the same order. -/
def addressesBelow (n : Nat) : List (String × CallTree) → List (List Nat)
  | [] => []
  | (_, t) :: rest => t.addresses.map (n :: ·) ++ addressesBelow (n + 1) rest

end

/-- The addresses below some branches are those in each of them with its number in front. -/
theorem addressesBelow_eq (n : Nat) (branches : List (String × CallTree)) :
    addressesBelow n branches =
      (branches.zipIdx n).flatMap fun c => c.1.2.addresses.map (c.2 :: ·) := by
  induction branches generalizing n with
  | nil => rfl
  | cons b rest ih => simp [addressesBelow, ih]

/-- The addresses of a tree are that of its root and those in each branch with its number in
front. -/
theorem addresses_eq (t : CallTree) :
    t.addresses = [] :: t.branches.zipIdx.flatMap fun c => c.1.2.addresses.map (c.2 :: ·) := by
  cases t with
  | node name file branches =>
    rw [addresses, addressesBelow_eq]
    rfl

/-- The address of the root comes first. -/
theorem addresses_eq_cons_tail (t : CallTree) : t.addresses = [] :: t.addresses.tail := by
  rw [addresses_eq]
  rfl

/-- Addresses come in the order of words. -/
theorem pairwise_addresses (t : CallTree) : t.addresses.Pairwise (· < ·) := by
  induction t using induct with
  | node name file branches ih =>
    rw [addresses_eq]
    exact pairwise_numbered ih

/-- The addresses of a tree are those that lead to a node. -/
theorem mem_addresses_iff {t : CallTree} {p : List Nat} : p ∈ t.addresses ↔ (t.at? p).isSome := by
  induction t using induct generalizing p with
  | node name file branches ih =>
    rw [addresses_eq]
    cases p with
    | nil => simp [at?]
    | cons i rest =>
      rw [at?, List.mem_cons, Option.isSome_bind, Option.any_eq_true]
      simp only [List.cons_ne_nil, false_or]
      refine (cons_mem_numbered_iff (f := fun b : String × CallTree => b.2.addresses)).trans ?_
      refine exists_congr fun b => and_congr_right fun hi => ?_
      exact ih b (List.mem_of_getElem? hi)

/-! ## Readings by address -/

/-- Behind the number of a branch an address leads to where it does in that branch. -/
theorem at?_cons {t : CallTree} {c : (String × CallTree) × Nat} (hc : c ∈ t.branches.zipIdx)
    (rest : List Nat) : t.at? (c.2 :: rest) = c.1.2.at? rest := by
  rw [at?, List.mem_zipIdx_iff_getElem?.mp hc, Option.bind_some]

/-- What is read off branch by branch is read off the numbered branches. -/
theorem flatMap_branches {β : Type} (t : CallTree) (f : String × CallTree → List β) :
    t.branches.flatMap f = t.branches.zipIdx.flatMap fun c => f c.1 := by
  conv_lhs => rw [← List.zipIdx_map_fst 0 t.branches, List.flatMap_map]

/-- The nodes in preorder are those at the addresses, in their order. -/
theorem map_preorder (t : CallTree) : t.preorder.map some = t.addresses.map t.at? := by
  induction t using induct with
  | node name file branches ih =>
    rw [preorder_eq, preorderBelow_eq, flatMap_branches, addresses_eq, List.map_cons, List.map_cons,
      List.map_flatMap, List.map_flatMap]
    congr 1
    refine List.flatMap_congr fun c hc => ?_
    rw [ih c.1 (List.fst_mem_of_mem_zipIdx hc), List.map_map]
    exact List.map_congr_left fun rest _ => (at?_cons hc rest).symm

/-- The edges lead to the nodes at all addresses but the root's, in their order, and each of them
comes from the node at the address without its last number. -/
theorem map_edges (t : CallTree) :
    (t.edges.map fun e => (some e.1, some e.2)) =
      t.addresses.tail.map fun p => (t.at? p.dropLast, t.at? p) := by
  induction t using induct with
  | node name file branches ih =>
    rw [edges_eq, flatMap_branches, addresses_eq, List.tail_cons, List.map_flatMap,
      List.map_flatMap]
    refine List.flatMap_congr fun c hc => ?_
    rw [List.map_cons, ih c.1 (List.fst_mem_of_mem_zipIdx hc), List.map_map,
      addresses_eq_cons_tail c.1.2, List.map_cons, List.tail_cons]
    congr 1
    · rw [Function.comp_apply, at?_cons hc]
      rfl
    · refine List.map_congr_left fun rest hrest => ?_
      have hne : rest ≠ [] := by
        rintro rfl
        have hincreasing := pairwise_addresses c.1.2
        rw [addresses_eq_cons_tail, List.pairwise_cons] at hincreasing
        exact List.lt_irrefl _ (hincreasing.1 [] hrest)
      rw [Function.comp_apply, List.dropLast_cons_of_ne_nil hne, at?_cons hc, at?_cons hc]

/-- Every tree has a level. -/
theorem one_le_depth (t : CallTree) : 1 ≤ t.depth := by
  cases t with
  | node name file branches => exact Nat.le_add_right 1 _

/-- The edges of a tree join the nodes after the root, in the order of the walk, to their parents.
So there is one edge less than there are nodes, and no more levels than nodes. -/
theorem edges_join_walked_nodes_to_parents (t : CallTree) :
    ∃ addresses : List (List Nat),
      addresses.Pairwise (· < ·) ∧ (∀ p, p ∈ addresses ↔ (t.at? p).isSome) ∧
      t.preorder.map some = addresses.map t.at? ∧
      (t.edges.map fun e => (some e.1, some e.2)) =
        addresses.tail.map (fun p => (t.at? p.dropLast, t.at? p)) ∧
      t.edges.map (·.2) = t.preorder.tail ∧ t.edges.length + 1 = t.size ∧
      1 ≤ t.depth ∧ t.depth ≤ t.size := by
  have hchildren : t.edges.map (·.2) = t.preorder.tail := by
    rw [map_snd_edges, preorder_eq, List.tail_cons]
  exact ⟨t.addresses, pairwise_addresses t, fun _ => mem_addresses_iff, map_preorder t, map_edges t,
    hchildren, length_edges t, one_le_depth t, depth_le_size t⟩

end CallAtlas.CallTree
