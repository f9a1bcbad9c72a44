import CallAtlas.Definition

/-!
# Call graphs

The nodes are the defined names, and an edge leads from a name to every defined name that some
definition of it calls.  The recursive groups are the sets of names that lie on common cycles.
-/

set_option autoImplicit false

namespace CallAtlas

/-- A graph of calls between names. -/
structure CallGraph where
  /-- The names, each with the names that its edges lead to. -/
  rows : List (String × List String)
  deriving Repr, DecidableEq

/-- Adds to `seen` a name and what can be reached from it in at most `steps` further steps
through names not seen before. -/
def visit (next : String → List String) : Nat → List String → String → List String
  | steps, seen, name =>
    if name ∈ seen then seen
    else
      match steps with
      | 0 => name :: seen
      | steps + 1 => (next name).foldl (visit next steps) (name :: seen)

namespace CallGraph

/-- The defined names that some definition of the given name calls, each once. -/
def callees (defs : List Definition) (name : String) : List String :=
  (((defs.filter (·.name == name)).flatMap (·.calls.toList)).filter fun callee =>
    defs.any (·.name == callee)).eraseDups

/-- The graph of some definitions, with the names in increasing order. -/
def ofDefinitions (defs : List Definition) : CallGraph :=
  ⟨(NameSet.ofList (defs.map (·.name))).toList.map fun name => (name, callees defs name)⟩

/-- The names. -/
def nodes (graph : CallGraph) : List String :=
  graph.rows.map (·.1)

/-- The names that the edges of a name lead to. -/
def successors (graph : CallGraph) (name : String) : List String :=
  (graph.rows.lookup name).getD []

/-- The edges, row by row. -/
def edges (graph : CallGraph) : List (String × String) :=
  graph.rows.flatMap fun row => row.2.map fun callee => (row.1, callee)

/-- The number of edges. -/
def edgeCount (graph : CallGraph) : Nat :=
  graph.edges.length

/-- The names that can be reached from a name in one or more steps. -/
def reachable (graph : CallGraph) (name : String) : List String :=
  (graph.successors name).foldl (visit graph.successors graph.rows.length) []

/-- The groups of names that can reach each other and themselves; the names of a group come in the
order of the graph, and so do the groups by their first names. -/
def recursiveGroups (graph : CallGraph) : List (List String) :=
  let reach := graph.nodes.map fun name => (name, graph.reachable name)
  let onCycle := reach.filter fun r => r.1 ∈ r.2
  let groups := onCycle.map fun r =>
    (onCycle.filter fun s => s.1 ∈ r.2 && r.1 ∈ s.2).map (·.1)
  groups.eraseDups

end CallGraph

end CallAtlas
