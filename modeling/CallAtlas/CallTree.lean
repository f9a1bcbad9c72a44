/-!
# Call trees

A call tree shows a function with the functions it calls below it, each under the name it is
called by.  The functions of this module read a tree in depth-first order.
-/

set_option autoImplicit false

namespace CallAtlas

/-- A function with the calls below it. -/
inductive CallTree where
  /-- A function by its name and file, with its callees by the name they are called by. -/
  | node (name file : String) (branches : List (String × CallTree))

namespace CallTree

/-- The name of the function at the root. -/
def name : CallTree → String
  | node name _ _ => name

/-- The file of the function at the root. -/
def file : CallTree → String
  | node _ file _ => file

/-- The callees of the root by the name they are called by. -/
def branches : CallTree → List (String × CallTree)
  | node _ _ branches => branches

mutual

/-- The number of levels of a tree. -/
def depth : CallTree → Nat
  | node _ _ branches => 1 + depthBelow branches

/-- The number of levels of the deepest branch. -/
def depthBelow : List (String × CallTree) → Nat
  | [] => 0
  | (_, t) :: rest => max t.depth (depthBelow rest)

end

mutual

/-- The number of nodes of a tree. -/
def size : CallTree → Nat
  | node _ _ branches => 1 + sizeBelow branches

/-- The number of nodes of all branches. -/
def sizeBelow : List (String × CallTree) → Nat
  | [] => 0
  | (_, t) :: rest => t.size + sizeBelow rest

end

mutual

/-- The subtrees of a tree, every node before the nodes below it. -/
def preorder : CallTree → List CallTree
  | node name file branches => node name file branches :: preorderBelow branches

/-- The subtrees of all branches, in the same order. -/
def preorderBelow : List (String × CallTree) → List CallTree
  | [] => []
  | (_, t) :: rest => t.preorder ++ preorderBelow rest

end

mutual

/-- The pairs of a node and one below it, each pair before those of the subtree it leads to. -/
def edges : CallTree → List (CallTree × CallTree)
  | node name file branches => edgesBelow (node name file branches) branches

/-- The pairs that the given branches of a parent begin, in the same order. -/
def edgesBelow (parent : CallTree) : List (String × CallTree) → List (CallTree × CallTree)
  | [] => []
  | (_, t) :: rest => (parent, t) :: (t.edges ++ edgesBelow parent rest)

end

mutual

/-- The nodes in preorder, each with its level and the name its parent holds it by. -/
def outline (level : Nat) (key : String) : CallTree → List (Nat × String × CallTree)
  | node name file branches =>
    (level, key, node name file branches) :: outlineBelow (level + 1) branches

/-- The nodes of all branches, in the same order. -/
def outlineBelow (level : Nat) : List (String × CallTree) → List (Nat × String × CallTree)
  | [] => []
  | (key, t) :: rest => t.outline level key ++ outlineBelow level rest

end

end CallTree

end CallAtlas
