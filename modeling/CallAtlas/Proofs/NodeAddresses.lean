import CallAtlas.Proofs.NumberedParts
import CallAtlas.Source.Node

/-!
# Addresses in a syntax tree

Two nodes of a syntax tree may look alike, so a node is told apart by its address: the numbers of
the children that lead to it from the root.  Addresses are compared like words.  An address comes
before those below it, and what is below one child comes before what is below the next; this is
the order in which a walk from the left visits the nodes.

`addresses` lists the addresses of all nodes.  They come in that order (`addresses_increasing`) and
are those that lead to a node (`mem_addresses_iff`).
-/

set_option autoImplicit false

namespace CallAtlas.Source.Node

/-- What holds of a node whenever it holds of all its children holds of every tree. -/
theorem induct {P : Node → Prop}
    (node : ∀ kind field row text children, (∀ c ∈ children, P c) →
      P (.mk kind field row text children)) : ∀ n, P n
  | .mk kind field row text children =>
    node kind field row text children fun c _ => induct node c

/-- The node at an address, if the address leads to one. -/
def at? (root : Node) : List Nat → Option Node
  | [] => some root
  | i :: rest => root.children[i]?.bind fun child => child.at? rest

/-- The nodes above an address, the nearest first; `outer` holds those above the root. -/
def above (outer : List Node) (root : Node) : List Nat → List Node
  | [] => outer
  | i :: rest =>
    match root.children[i]? with
    | some child => above (root :: outer) child rest
    | none => root :: outer

mutual

/-- The addresses of all nodes in preorder. -/
def addresses : Node → List (List Nat)
  | mk _ _ _ _ children => [] :: addressesBelow 0 children

/-- The addresses of all nodes below children that are numbered from `n` on, in the same order. -/
def addressesBelow (n : Nat) : List Node → List (List Nat)
  | [] => []
  | child :: rest => child.addresses.map (n :: ·) ++ addressesBelow (n + 1) rest

end

/-- The addresses below some children are those in each of them with its number in front. -/
theorem addressesBelow_eq (n : Nat) (nodes : List Node) :
    addressesBelow n nodes = (nodes.zipIdx n).flatMap fun c => c.1.addresses.map (c.2 :: ·) := by
  induction nodes generalizing n with
  | nil => rfl
  | cons child rest ih => simp [addressesBelow, ih]

/-- The addresses of a tree are that of its root and those in each child with its number in
front. -/
theorem addresses_mk (kind : NodeKind) (field : Option Field) (row : Nat) (text : String)
    (children : List Node) :
    (mk kind field row text children).addresses =
      [] :: children.zipIdx.flatMap fun c => c.1.addresses.map (c.2 :: ·) := by
  rw [addresses, addressesBelow_eq]

/-- Addresses come in the order of words. -/
theorem addresses_increasing (root : Node) : root.addresses.Pairwise (· < ·) := by
  induction root using induct with
  | node kind field row text children ih =>
    rw [addresses_mk]
    exact pairwise_numbered ih

/-- The addresses of a tree are those that lead to a node. -/
theorem mem_addresses_iff {root : Node} {p : List Nat} :
    p ∈ root.addresses ↔ (root.at? p).isSome := by
  induction root using induct generalizing p with
  | node kind field row text children ih =>
    rw [addresses_mk]
    cases p with
    | nil => simp [at?]
    | cons i rest =>
      have hchild : (mk kind field row text children).at? (i :: rest) =
          children[i]?.bind fun child => child.at? rest := rfl
      rw [hchild, List.mem_cons, cons_mem_numbered_iff, Option.isSome_bind, Option.any_eq_true]
      simp only [List.cons_ne_nil, false_or]
      refine exists_congr fun child => and_congr_right fun hi => ?_
      exact ih child (List.mem_of_getElem? hi)

end CallAtlas.Source.Node
