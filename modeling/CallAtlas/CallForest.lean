import CallAtlas.CallTree
import CallAtlas.Definition

/-!
# Call forests

The trees below the entry points of a program.  They are grown depth first in the order of names,
and all of them share one list of names already seen, so every name has at most one node.
-/

set_option autoImplicit false

namespace CallAtlas

/-- How large a forest may become. -/
structure ForestLimits where
  /-- The most levels of a tree; the root's level always exists. -/
  maxDepth : Nat := 3
  /-- The most entry points that get a tree. -/
  maxEntries : Nat := 10
  deriving Repr, DecidableEq

/-- Trees in the order of their entry points. -/
structure CallForest where
  /-- The trees. -/
  trees : List CallTree

/-- Grows the branches for a list of callees one after the other, where `growOne` tries to grow
the tree of one callee and says which names have been seen after it. -/
def growBranches (growOne : List String → String → Option CallTree × List String) :
    List String → List String → List (String × CallTree) × List String
  | seen, [] => ([], seen)
  | seen, callee :: callees =>
    let (tree, seen) := growOne seen callee
    let (branches, seen) := growBranches growOne seen callees
    (match tree with
      | some t => (callee, t) :: branches
      | none => branches, seen)

/-- Grows the tree of a name with at most `below` levels under its root, unless the name is not
defined or has been seen; also gives the names seen after it. -/
def growTree (defs : List Definition) :
    Nat → List String → String → Option CallTree × List String
  | below, seen, name =>
    match resolve defs name with
    | none => (none, seen)
    | some d =>
      if d.name ∈ seen then (none, seen)
      else
        match below with
        | 0 => (some (.node d.name d.file []), d.name :: seen)
        | below + 1 =>
          let (branches, seen) :=
            growBranches (growTree defs below) (d.name :: seen) d.calls.toList
          (some (.node d.name d.file branches), seen)

/-- Grows the trees of a list of entry points one after the other. -/
def growTrees (defs : List Definition) (below : Nat) : List String → List String → List CallTree
  | _, [] => []
  | seen, entry :: entries =>
    match growTree defs below seen entry with
    | (some t, seen) => t :: growTrees defs below seen entries
    | (none, seen) => growTrees defs below seen entries

namespace CallForest

/-- The forest of the first entry points of a program. -/
def grow (defs : List Definition) (limits : ForestLimits) : CallForest :=
  ⟨growTrees defs (limits.maxDepth - 1) [] ((entryPoints defs).take limits.maxEntries)⟩

/-- The tree with the given entry point. -/
def get? (forest : CallForest) (entry : String) : Option CallTree :=
  forest.trees.find? (·.name == entry)

/-- The names of the roots. -/
def entryNames (forest : CallForest) : List String :=
  forest.trees.map (·.name)

/-- The number of nodes of all trees. -/
def size (forest : CallForest) : Nat :=
  forest.trees.foldr (fun t n => t.size + n) 0

/-- The nodes of all trees, tree by tree in preorder. -/
def nodes (forest : CallForest) : List CallTree :=
  forest.trees.flatMap (·.preorder)

/-- The pairs of a node and one below it, tree by tree in depth-first order. -/
def edges (forest : CallForest) : List (CallTree × CallTree) :=
  forest.trees.flatMap (·.edges)

end CallForest

end CallAtlas
