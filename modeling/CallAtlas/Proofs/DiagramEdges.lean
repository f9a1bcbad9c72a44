import CallAtlas.Proofs.FlowchartShape
import CallAtlas.Proofs.ForestNames
import CallAtlas.Proofs.PackageBlocks
import CallAtlas.Proofs.TextLines

/-!
# The edges of the two diagrams

A flowchart joins boxes by number, a component diagram joins identifiers and writes no line twice.
Unless two names of a grown forest have one identifier, no line occurs twice, and so each diagram
has one line for each edge of the forest, in the same order (`Flowchart.arrowLines_eq_map_edges`,
`ComponentDiagram.edgeLines_eq_map_edges`).  That the lines also say the same is due to their form:
a line tells what it joins (`Flowchart.arrowLine_inj`, `ComponentDiagram.edgeLine_inj`).
-/

set_option autoImplicit false

namespace CallAtlas

/-- A line that joins two labels without spaces can be read in one way only. -/
theorem joined_inj {source target source' target' : String} (h : ' ' ∉ source.toList)
    (h' : ' ' ∉ source'.toList)
    (heq : source ++ " --> " ++ target = source' ++ " --> " ++ target') :
    source = source' ∧ target = target' := by
  have hchars := congrArg String.toList heq
  simp only [String.toList_append, List.append_assoc] at hchars
  obtain ⟨hsource, hrest⟩ := Text.eq_of_append_sep_eq h h' hchars
  exact ⟨String.toList_inj.mp hsource, String.toList_inj.mp (List.append_cancel_left hrest)⟩

namespace Flowchart

/-- Different numbers give different box identifiers. -/
theorem boxId_inj {m n : Nat} (h : boxId m = boxId n) : m = n := by
  have hchars := congrArg String.toList h
  rw [toList_boxId, toList_boxId] at hchars
  have hread := congrArg (Nat.ofDigitChars 10 · 0) (List.cons.inj hchars).2
  simpa [Nat.ofDigitChars_toDigits] using hread

/-- A box identifier has no space. -/
theorem space_not_mem_boxId (n : Nat) : ' ' ∉ (boxId n).toList := fun h =>
  absurd (isInert_of_mem_boxId h).2 (by decide)

/-- An arrow line tells the numbers of its ends. -/
theorem arrowLine_inj {i j i' j' : Nat} (h : arrowLine i j = arrowLine i' j') :
    i = i' ∧ j = j' := by
  have hjoined : boxId i ++ " --> " ++ boxId j = boxId i' ++ " --> " ++ boxId j' := by
    refine (String.append_right_inj "    ").mp ?_
    simpa only [arrowLine, String.append_assoc] using h
  obtain ⟨hsource, htarget⟩ := joined_inj (space_not_mem_boxId i) (space_not_mem_boxId i') hjoined
  exact ⟨boxId_inj hsource, boxId_inj htarget⟩

/-- If no name stands twice in a forest, its arrow lines are those of its edges in order. -/
theorem arrowLines_eq_map_edges {forest : CallForest} (hnames : forest.names.Nodup) :
    arrowLines forest =
      forest.edges.map fun e => arrowLine (forest.number e.1) (forest.number e.2) := by
  rw [arrowLines_eq hnames, CallForest.links, List.map_map]
  rfl

end Flowchart

namespace ComponentDiagram

/-- A document declares an identifier when the declaration of a name that has it stands there. -/
def Declares (doc : DiagramDocument) (id : String) : Prop :=
  ∃ role name, Label.identifier name = id ∧ declarationText role name <:+: doc.lines

/-- The edge lines of a component diagram are those of the edges of the forest, each once, and the
diagram declares what they join. -/
structure EdgesDrawn (forest : CallForest) (defs : List Definition) : Prop where
  /-- Repeated lines are left out, and nothing else is. -/
  lines_eq : edgeLines forest = (forest.edges.map fun e =>
    Label.identifier e.1.name ++ " --> " ++ Label.identifier e.2.name).eraseDups
  /-- The edges come in the order in which their children are visited. -/
  in_order : (forest.edges.map (·.2)).Sublist forest.nodes
  /-- No line is written twice. -/
  nodup : (edgeLines forest).Nodup
  /-- Both ends of a line are declared. -/
  declared : ∀ line ∈ edgeLines forest, ∃ source target, line = source ++ " --> " ++ target ∧
    Declares (render forest defs) source ∧ Declares (render forest defs) target

/-- The flowchart and the component diagram of a forest have the same edges in the same order. -/
structure SameEdges (forest : CallForest) : Prop where
  /-- There are as many arrows as edge lines. -/
  length_eq : (Flowchart.arrowLines forest).length = (edgeLines forest).length
  /-- An arrow joins the boxes of two nodes when the edge line in its place joins the identifiers of
  their names. -/
  getElem?_iff : ∀ k i j : Nat,
    (Flowchart.arrowLines forest)[k]? = some ("    N" ++ toString i ++ " --> N" ++ toString j) ↔
      ∃ a b, forest.names[i]? = some a ∧ forest.names[j]? = some b ∧
        (edgeLines forest)[k]? = some (Label.identifier a ++ " --> " ++ Label.identifier b)

/-- An identifier is made of letters, digits and underscores. -/
theorem isAlphanum_of_mem_identifier {name : String} {c : Char}
    (h : c ∈ (Label.identifier name).toList) : c.isAlphanum ∨ c = '_' := by
  simp only [Label.identifier, String.toList_append, String.toList_ofList, List.mem_append,
    List.mem_map] at h
  rcases h with h | ⟨d, -, hd⟩
  · have hletters : "fn_".toList.all fun c => c.isAlphanum || c == '_' := by decide
    simpa using List.all_eq_true.mp hletters c h
  · split at hd
    · next hkept => exact Or.inl (hd ▸ hkept)
    · exact Or.inr hd.symm

/-- An identifier has no space. -/
theorem space_not_mem_identifier (name : String) : ' ' ∉ (Label.identifier name).toList := fun h =>
  absurd (isAlphanum_of_mem_identifier h) (by decide)

/-- An edge line tells the identifiers of its ends. -/
theorem edgeLine_inj {a b a' b' : String} (h : edgeLine a b = edgeLine a' b') :
    Label.identifier a = Label.identifier a' ∧ Label.identifier b = Label.identifier b' :=
  joined_inj (space_not_mem_identifier a) (space_not_mem_identifier a') h

/-- If no name stands twice in a forest, its edge lines are those of its edges, each once. -/
theorem edgeLines_eq {forest : CallForest} (hnames : forest.names.Nodup) :
    edgeLines forest = (forest.edges.map fun e => edgeLine e.1.name e.2.name).eraseDups := by
  have hall : (forest.edges.filter fun e => e.1.name != e.2.name) = forest.edges := by
    rw [List.filter_eq_self]
    rintro ⟨m, n⟩ hedge
    simpa using CallForest.name_ne_of_mem_edges hnames hedge
  rw [edgeLines, hall]

/-! ## Distinct identifiers -/

section Identifiers

variable {forest : CallForest} (hids : (forest.names.map Label.identifier).Nodup)

include hids

/-- No two edges have the same line, for their children have different identifiers. -/
theorem edgeLines_eq_map_edges :
    edgeLines forest = forest.edges.map fun e => edgeLine e.1.name e.2.name := by
  have hchildren : (forest.edges.map (·.2)).Pairwise fun m n =>
      Label.identifier m.name ≠ Label.identifier n.name := by
    refine List.Pairwise.sublist (CallForest.children_sublist_nodes forest) ?_
    have hpairwise := hids
    rwa [CallForest.names, List.map_map, List.Nodup, List.pairwise_map] at hpairwise
  have hlines : (forest.edges.map fun e => edgeLine e.1.name e.2.name).Nodup := by
    rw [List.pairwise_map] at hchildren
    rw [List.Nodup, List.pairwise_map]
    exact hchildren.imp fun hne hline => hne (edgeLine_inj hline).2
  rw [edgeLines_eq hids.of_map, eraseDups_of_nodup hlines]

/-- The two lines of an edge join the same nodes. -/
theorem arrowLine_eq_iff {m n : CallTree} (hm : m ∈ forest.nodes) (hn : n ∈ forest.nodes)
    (i j : Nat) :
    Flowchart.arrowLine (forest.number m) (forest.number n) = Flowchart.arrowLine i j ↔
      ∃ a b, forest.names[i]? = some a ∧ forest.names[j]? = some b ∧
        edgeLine m.name n.name = edgeLine a b := by
  have hnames : forest.names.Nodup := hids.of_map
  constructor
  · intro h
    obtain ⟨hi, hj⟩ := Flowchart.arrowLine_inj h
    exact ⟨m.name, n.name, (CallForest.getElem?_names_iff hnames hm).mpr hi,
      (CallForest.getElem?_names_iff hnames hn).mpr hj, rfl⟩
  · rintro ⟨a, b, hi, hj, h⟩
    obtain ⟨hsource, htarget⟩ := edgeLine_inj h
    have hinj := List.inj_on_of_nodup_map hids
    obtain rfl := hinj (List.mem_map_of_mem hm) (List.mem_of_getElem? hi) hsource
    obtain rfl := hinj (List.mem_map_of_mem hn) (List.mem_of_getElem? hj) htarget
    rw [(CallForest.getElem?_names_iff hnames hm).mp hi,
      (CallForest.getElem?_names_iff hnames hn).mp hj]

/-- The two grammars draw the same edges of a forest in the same order. -/
theorem sameEdges : SameEdges forest := by
  have hnames : forest.names.Nodup := hids.of_map
  have harrows := Flowchart.arrowLines_eq_map_edges hnames
  have hlines := edgeLines_eq_map_edges hids
  constructor
  · rw [harrows, hlines, List.length_map, List.length_map]
  · intro k i j
    change _ ↔ ∃ a b, _ ∧ _ ∧ (edgeLines forest)[k]? = some (edgeLine a b)
    rw [← Flowchart.arrowLine_eq, harrows, hlines, List.getElem?_map, List.getElem?_map]
    cases hedge : forest.edges[k]? with
    | none => simp
    | some e =>
      obtain ⟨hm, hn⟩ := CallForest.mem_nodes_of_mem_edges (List.mem_of_getElem? hedge)
      simpa using arrowLine_eq_iff hids hm hn i j

end Identifiers

/-! ## Declared identifiers -/

/-- A component diagram declares every node of its forest. -/
theorem declares_of_mem_nodes {defs : List Definition} {limits : ForestLimits} {n : CallTree}
    (hn : n ∈ (CallForest.grow defs limits).nodes) :
    Declares (render (CallForest.grow defs limits) defs) (Label.identifier n.name) := by
  have hdefined : IsDefined defs n.name := CallForest.isDefined_of_mem_nodes hn
  obtain ⟨file, -, hlines⟩ := declarationLines_infix (CallForest.grow defs limits) hdefined
  rw [declarationLines_eq] at hlines
  exact ⟨_, n.name, rfl, hlines⟩

/-- The edge lines of a grown forest are those of its edges, between declared identifiers. -/
theorem edgesDrawn_grow (defs : List Definition) (limits : ForestLimits) :
    EdgesDrawn (CallForest.grow defs limits) defs where
  lines_eq := edgeLines_eq (CallForest.nodup_names_grow defs limits)
  in_order := CallForest.children_sublist_nodes _
  nodup := nodup_eraseDups _
  declared line hline := by
    rw [edgeLines, List.mem_eraseDups] at hline
    obtain ⟨⟨m, n⟩, hedge, rfl⟩ := List.mem_map.mp hline
    obtain ⟨hm, hn⟩ := CallForest.mem_nodes_of_mem_edges (List.mem_filter.mp hedge).1
    exact ⟨_, _, rfl, declares_of_mem_nodes hm, declares_of_mem_nodes hn⟩

/-- **The two diagrams of a program draw the same edges.**  The component diagram of a grown forest
draws each of its edges, a repeated line once, between identifiers that it declares.  Where the
names of the forest have different identifiers, its edge lines are those of the flowchart. -/
theorem diagrams_draw_same_edges (defs : List Definition) (limits : ForestLimits) :
    (render (CallForest.grow defs limits) defs).lines =
        Grammar.component.marker :: preamble ++ (files defs).flatMap (blockLines defs) ++
          edgeLines (CallForest.grow defs limits) ++ [endMarker] ∧
      (Flowchart.render (CallForest.grow defs limits)).lines =
        Grammar.graph.marker :: Flowchart.classLine ::
            Flowchart.boxLines (CallForest.grow defs limits) ++
          Flowchart.arrowLines (CallForest.grow defs limits) ++ [Flowchart.linkLine] ∧
      EdgesDrawn (CallForest.grow defs limits) defs ∧
      (((CallForest.grow defs limits).names.map Label.identifier).Nodup →
        SameEdges (CallForest.grow defs limits)) :=
  ⟨lines_render _ defs, rfl, edgesDrawn_grow defs limits, sameEdges⟩

/-- A function that calls two others. -/
def callerOf (a b : String) : List Definition :=
  [⟨"main", "app.js", 1, .declaration, .ofList [a, b]⟩,
   ⟨a, "app.js", 5, .arrow, .empty⟩,
   ⟨b, "lib.js", 1, .declaration, .empty⟩]

/-- A function with two callees has two edges in either grammar. -/
theorem same_edges_of_two_callees :
    SameEdges (CallForest.grow (callerOf "load-all" "save") {}) ∧
      Flowchart.arrowLines (CallForest.grow (callerOf "load-all" "save") {}) =
        ["    N0 --> N1", "    N0 --> N2"] ∧
      edgeLines (CallForest.grow (callerOf "load-all" "save") {}) =
        ["fn_main --> fn_load_all", "fn_main --> fn_save"] := by
  obtain ⟨-, -, -, hsame⟩ := diagrams_draw_same_edges (callerOf "load-all" "save") {}
  exact ⟨hsame (by decide +kernel), by decide +kernel, by decide +kernel⟩

-- With one identifier for both callees, one of the two edge lines is left out.
example : edgeLines (CallForest.grow (callerOf "load-all" "load_all") {}) =
    ["fn_main --> fn_load_all"] := by
  decide +kernel

end ComponentDiagram

end CallAtlas
