import CallAtlas.Proofs.DiagramEdges
import CallAtlas.Proofs.GraphFigures
import Mathlib.Data.Finset.Prod

/-!
# The calls that are drawn

The call graph counts every pair of defined names of which some definition of the first calls the
second (`edgeCount_eq`).  A forest draws far fewer: it goes by the last definition of each name, and
it gives every name but the roots one parent.  So its edges are different pairs that the graph
counts (`nodup_drawnPairs`, `drawnPairs_subset`), and neither diagram has more edge lines than the
graph has edges.
-/

set_option autoImplicit false

namespace CallAtlas

/-- The pairs of defined names of which some definition of the first calls the second. -/
def callPairs (defs : List Definition) : Finset (String × String) :=
  (definedNames defs ×ˢ definedNames defs).filter fun pair =>
    ∃ d ∈ defs, d.name = pair.1 ∧ pair.2 ∈ d.calls

/-- The call pairs are the calls between defined names. -/
theorem mem_callPairs {defs : List Definition} {a b : String} :
    (a, b) ∈ callPairs defs ↔ Calls defs a b := by
  simp only [callPairs, Finset.mem_filter, Finset.mem_product, mem_definedNames]
  constructor
  · rintro ⟨⟨-, hb⟩, hcall⟩
    exact ⟨hcall, hb⟩
  · intro h
    exact ⟨⟨h.isDefined_caller, h.2⟩, h.1⟩

/-- The edge count of the graph is the number of call pairs. -/
theorem CallGraph.edgeCount_eq (defs : List Definition) :
    (CallGraph.ofDefinitions defs).edgeCount = (callPairs defs).card := by
  have hedges : (CallGraph.ofDefinitions defs).edges.toFinset = callPairs defs := by
    ext ⟨a, b⟩
    rw [List.mem_toFinset, CallGraph.mem_edges_iff, mem_callPairs]
  rw [← hedges, List.toFinset_card_of_nodup (CallGraph.nodup_edges defs), edgeCount]

/-- A step of the trees is a call of the graph. -/
theorem Step.calls {defs : List Definition} {a b : String} (h : Step defs a b) :
    Calls defs a b := by
  obtain ⟨d, hlast, hname, hcalled, hdefined⟩ := h
  exact ⟨⟨d, hlast.mem, hname, hcalled⟩, hdefined⟩

namespace CallForest

/-- The names that the edges of a forest join. -/
def drawnPairs (forest : CallForest) : List (String × String) :=
  forest.edges.map fun e => (e.1.name, e.2.name)

/-- With distinct names no pair is drawn twice, for no two edges have the same child. -/
theorem nodup_drawnPairs {forest : CallForest} (hnames : forest.names.Nodup) :
    forest.drawnPairs.Nodup := by
  have hchildren : (forest.edges.map (·.2.name)).Nodup := by
    have hsub := (children_sublist_nodes forest).map (·.name)
    rw [List.map_map] at hsub
    exact hnames.sublist hsub
  apply List.Nodup.of_map Prod.snd
  rwa [drawnPairs, List.map_map]

variable {defs : List Definition} {limits : ForestLimits}

/-- An edge of a grown forest is a call. -/
theorem calls_of_mem_edges {m n : CallTree} (h : (m, n) ∈ (grow defs limits).edges) :
    Calls defs m.name n.name := by
  obtain ⟨hm, key, hbranch⟩ := mem_edges_iff.mp h
  exact (step_of_mem_branches hm hbranch).calls

/-- A grown forest draws nothing but call pairs. -/
theorem drawnPairs_subset : (grow defs limits).drawnPairs.toFinset ⊆ callPairs defs := by
  intro pair hpair
  rw [List.mem_toFinset] at hpair
  obtain ⟨⟨m, n⟩, hedge, rfl⟩ := List.mem_map.mp hpair
  exact mem_callPairs.mpr (calls_of_mem_edges hedge)

/-- A grown forest has at most as many edges as the graph. -/
theorem length_edges_le (defs : List Definition) (limits : ForestLimits) :
    (grow defs limits).edges.length ≤ (CallGraph.ofDefinitions defs).edgeCount := by
  have hnodup := nodup_drawnPairs (nodup_names_grow defs limits)
  calc
    (grow defs limits).edges.length = (grow defs limits).drawnPairs.length := by
      rw [drawnPairs, List.length_map]
    _ = (grow defs limits).drawnPairs.toFinset.card := (List.toFinset_card_of_nodup hnodup).symm
    _ ≤ (callPairs defs).card := Finset.card_le_card drawnPairs_subset
    _ = (CallGraph.ofDefinitions defs).edgeCount := (CallGraph.edgeCount_eq defs).symm

end CallForest

/-- A flowchart has one arrow for each edge of the forest. -/
theorem Flowchart.length_arrowLines {forest : CallForest} (hnames : forest.names.Nodup) :
    (Flowchart.arrowLines forest).length = forest.edges.length := by
  rw [Flowchart.arrowLines_eq_map_edges hnames, List.length_map]

/-- A component diagram has at most as many edge lines as the forest has edges. -/
theorem ComponentDiagram.length_edgeLines_le {forest : CallForest} (hnames : forest.names.Nodup) :
    (ComponentDiagram.edgeLines forest).length ≤ forest.edges.length := by
  have hsub : ComponentDiagram.edgeLines forest ⊆
      forest.edges.map fun e => ComponentDiagram.edgeLine e.1.name e.2.name := by
    intro line hline
    rwa [ComponentDiagram.edgeLines_eq hnames, List.mem_eraseDups] at hline
  have hnodup : (ComponentDiagram.edgeLines forest).Nodup := nodup_eraseDups _
  simpa using (hnodup.subperm hsub).length_le

/-- **No diagram draws more calls than there are.**  The edge count of a call graph is the number of
pairs of defined names of which some definition of the first calls the second.  The edges of a grown
forest are such pairs of different names, none of them twice, and therefore they are no more than
the edge count; nor are the nodes below the roots, or the edge lines of a diagram. -/
theorem forest_draws_calls_once (defs : List Definition) (limits : ForestLimits) :
    (CallGraph.ofDefinitions defs).edgeCount = (callPairs defs).card ∧
      (∀ m n, (m, n) ∈ (CallForest.grow defs limits).edges →
        (m.name, n.name) ∈ callPairs defs ∧ m.name ≠ n.name) ∧
      ((CallForest.grow defs limits).edges.map fun e => (e.1.name, e.2.name)).Nodup ∧
      (CallForest.grow defs limits).size - (CallForest.grow defs limits).trees.length ≤
        (CallGraph.ofDefinitions defs).edgeCount ∧
      (Flowchart.arrowLines (CallForest.grow defs limits)).length ≤
        (CallGraph.ofDefinitions defs).edgeCount ∧
      (ComponentDiagram.edgeLines (CallForest.grow defs limits)).length ≤
        (CallGraph.ofDefinitions defs).edgeCount := by
  have hnames := CallForest.nodup_names_grow defs limits
  have hedges := CallForest.length_edges_le defs limits
  have hsize := CallForest.length_edges (CallForest.grow defs limits)
  have harrows := Flowchart.length_arrowLines hnames
  have hlines := ComponentDiagram.length_edgeLines_le hnames
  refine ⟨CallGraph.edgeCount_eq defs, ?_, CallForest.nodup_drawnPairs hnames, ?_, ?_, ?_⟩
  · intro m n hedge
    exact ⟨mem_callPairs.mpr (CallForest.calls_of_mem_edges hedge),
      CallForest.name_ne_of_mem_edges hnames hedge⟩
  · omega
  · omega
  · omega

end CallAtlas
