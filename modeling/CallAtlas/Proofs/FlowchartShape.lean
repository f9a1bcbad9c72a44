import CallAtlas.Diagram.Flowchart
import CallAtlas.Proofs.TidyLines
import CallAtlas.Proofs.TreeEdges

/-!
# The shape of a flowchart

A flowchart names its boxes by number and finds the number of an arrow's end by name.  In a grown
forest every name has one node, so the numbers are the places of the nodes in preorder, and the
arrows can be read back as the forest: `flowchart_spells_out_forest` says that there is one arrow
for every node but the roots, from the box of its parent, in the order of the boxes.

What an arrow joins is kept as a pair of numbers (`CallForest.links`).  `ParentLinks` says which
list of pairs this is without reference to how it is computed, and `parentLinks_links` that it is
that one whenever the names of the forest are distinct.
-/

set_option autoImplicit false

namespace CallAtlas

/-- In a list without duplicates the places increase. -/
theorem pairwise_idxOf_of_nodup {α : Type} [BEq α] [LawfulBEq α] {xs : List α} (h : xs.Nodup) :
    xs.Pairwise fun a b => xs.idxOf a < xs.idxOf b := by
  rw [List.pairwise_iff_getElem]
  intro i j hi hj hlt
  rw [h.idxOf_getElem i hi, h.idxOf_getElem j hj]
  exact hlt

namespace CallForest

/-- In a forest whose nodes are numbered in preorder, the first number is that of the parent of
the node with the second one. -/
def IsParent (forest : CallForest) (i j : Nat) : Prop :=
  ∃ m n key, forest.nodes[i]? = some m ∧ forest.nodes[j]? = some n ∧ (key, n) ∈ m.branches

/-- The number of a node: the place of its name among the names of the forest. -/
def number (forest : CallForest) (n : CallTree) : Nat :=
  forest.names.idxOf n.name

/-- The numbers of parent and child for every edge. -/
def links (forest : CallForest) : List (Nat × Nat) :=
  forest.edges.map fun e => (forest.number e.1, forest.number e.2)

/-- A list of the numbers of parents and children of a forest: it has one pair for each node that
is not a root, in the order of these nodes, and the parent's number is the smaller one. -/
structure ParentLinks (forest : CallForest) (links : List (Nat × Nat)) : Prop where
  /-- The pairs are those of parents and children. -/
  mem_iff : ∀ i j, (i, j) ∈ links ↔ forest.IsParent i j
  /-- The children come in increasing order, each once. -/
  increasing : (links.map (·.2)).Pairwise (· < ·)
  /-- A parent comes before its child. -/
  parent_lt : ∀ l ∈ links, l.1 < l.2
  /-- A node has no parent exactly when it is a root. -/
  root_iff : ∀ j n, forest.nodes[j]? = some n → ((∀ i, (i, j) ∉ links) ↔ n ∈ forest.trees)

section Numbers

variable {forest : CallForest} (hnames : forest.names.Nodup)

include hnames

/-- The name of a node stands among the names at its number. -/
theorem getElem?_names_iff {i : Nat} {n : CallTree} (hn : n ∈ forest.nodes) :
    forest.names[i]? = some n.name ↔ forest.number n = i := by
  constructor
  · intro hi
    obtain ⟨hlt, hget⟩ := List.getElem?_eq_some_iff.mp hi
    rw [number, ← hget, hnames.idxOf_getElem i hlt]
  · rintro rfl
    exact List.getElem?_idxOf (List.mem_map_of_mem hn)

/-- The node at a place is the one with that number. -/
theorem getElem?_nodes_iff {i : Nat} {n : CallTree} :
    forest.nodes[i]? = some n ↔ n ∈ forest.nodes ∧ forest.number n = i := by
  have hnumber : ∀ k, forest.nodes[k]? = some n → forest.number n = k := by
    intro k hk
    refine (getElem?_names_iff hnames (List.mem_of_getElem? hk)).mp ?_
    rw [names, List.getElem?_map, hk]
    rfl
  constructor
  · intro hi
    exact ⟨List.mem_of_getElem? hi, hnumber i hi⟩
  · rintro ⟨hn, rfl⟩
    obtain ⟨k, hk⟩ := List.getElem?_of_mem hn
    rwa [hnumber k hk]

/-- The numbers of the nodes increase. -/
theorem pairwise_number : forest.nodes.Pairwise fun m n => forest.number m < forest.number n := by
  have hnamed := pairwise_idxOf_of_nodup hnames
  rw [names, List.pairwise_map] at hnamed
  exact hnamed

/-- A parent has a smaller number than its child. -/
theorem number_lt_of_mem_edges {m n : CallTree} (h : (m, n) ∈ forest.edges) :
    forest.number m < forest.number n := by
  have hpair := (pairwise_number hnames).sublist (sublist_nodes_of_mem_edges h)
  simpa using hpair

/-- A parent and its child have different names. -/
theorem name_ne_of_mem_edges {m n : CallTree} (h : (m, n) ∈ forest.edges) : m.name ≠ n.name := by
  intro hname
  have hlt := number_lt_of_mem_edges hnames h
  rw [number, number, hname] at hlt
  omega

/-- The links are the numbers of parents and their children. -/
theorem mem_links_iff {i j : Nat} : (i, j) ∈ forest.links ↔ forest.IsParent i j := by
  constructor
  · intro h
    obtain ⟨⟨m, n⟩, hedge, hpair⟩ := List.mem_map.mp h
    obtain ⟨rfl, rfl⟩ := Prod.mk.inj hpair
    obtain ⟨hm, hn⟩ := mem_nodes_of_mem_edges hedge
    obtain ⟨-, key, hbranch⟩ := mem_edges_iff.mp hedge
    exact ⟨m, n, key, (getElem?_nodes_iff hnames).mpr ⟨hm, rfl⟩,
      (getElem?_nodes_iff hnames).mpr ⟨hn, rfl⟩, hbranch⟩
  · rintro ⟨m, n, key, hi, hj, hbranch⟩
    obtain ⟨hm, rfl⟩ := (getElem?_nodes_iff hnames).mp hi
    obtain ⟨-, rfl⟩ := (getElem?_nodes_iff hnames).mp hj
    exact List.mem_map.mpr ⟨(m, n), mem_edges_iff.mpr ⟨hm, key, hbranch⟩, rfl⟩

/-- With distinct names no root is the child of an edge. -/
theorem exists_parent_iff {n : CallTree} (hn : n ∈ forest.nodes) :
    n ∈ forest.edges.map (·.2) ↔ n ∉ forest.trees := by
  have hnodes : forest.nodes.Nodup := hnames.of_map _
  have hsplit := (perm_nodes forest).nodup_iff.mp hnodes
  have hmem := List.mem_append.mp ((perm_nodes forest).mem_iff.mp hn)
  have hdisjoint := (List.nodup_append.mp hsplit).2.2
  constructor
  · intro hchild hroot
    exact hdisjoint n hroot n hchild rfl
  · intro hroot
    exact hmem.resolve_left hroot

/-- The links of a forest are its parent links. -/
theorem parentLinks_links : ParentLinks forest forest.links where
  mem_iff i j := mem_links_iff hnames
  increasing := by
    have hchildren := (pairwise_number hnames).sublist (children_sublist_nodes forest)
    rw [List.pairwise_map] at hchildren
    rwa [links, List.map_map, List.pairwise_map]
  parent_lt l hl := by
    obtain ⟨⟨m, n⟩, hedge, rfl⟩ := List.mem_map.mp hl
    exact number_lt_of_mem_edges hnames hedge
  root_iff j n hj := by
    obtain ⟨hn, rfl⟩ := (getElem?_nodes_iff hnames).mp hj
    rw [← not_iff_not, ← exists_parent_iff hnames hn, not_forall]
    simp only [not_not]
    constructor
    · rintro ⟨i, hlink⟩
      obtain ⟨m, n', key, hi, hj', hbranch⟩ := (mem_links_iff hnames).mp hlink
      obtain rfl : n = n' := Option.some.inj (hj.symm.trans hj')
      have hm := ((getElem?_nodes_iff hnames).mp hi).1
      exact List.mem_map.mpr ⟨(m, n), mem_edges_iff.mpr ⟨hm, key, hbranch⟩, rfl⟩
    · intro hchild
      obtain ⟨⟨m, n'⟩, hedge, rfl⟩ := List.mem_map.mp hchild
      exact ⟨forest.number m, List.mem_map.mpr ⟨(m, n'), hedge, rfl⟩⟩

end Numbers

end CallForest

namespace Flowchart

/-! ## Boxes and arrows -/

/-- Where no name stands twice, every node is the first of its name. -/
theorem firstOfName_of_nodup {seen : List String} {nodes : List CallTree}
    (hnodup : (nodes.map (·.name)).Nodup) (hnew : ∀ n ∈ nodes, n.name ∉ seen) :
    firstOfName seen nodes = nodes := by
  induction nodes generalizing seen with
  | nil => rfl
  | cons n nodes ih =>
    rw [List.map_cons, List.nodup_cons] at hnodup
    have hrest : ∀ m ∈ nodes, m.name ∉ n.name :: seen := by
      intro m hm hmem
      rcases List.mem_cons.mp hmem with hname | hseen
      · exact hnodup.1 (hname ▸ List.mem_map_of_mem hm)
      · exact hnew m (List.mem_cons_of_mem n hm) hseen
    rw [firstOfName, if_neg (hnew n List.mem_cons_self), ih hnodup.2 hrest]

section Distinct

variable {forest : CallForest} (hnames : forest.names.Nodup)

include hnames

/-- Every node has a box. -/
theorem boxes_eq : boxes forest = forest.nodes :=
  firstOfName_of_nodup hnames (by simp)

/-- The box of a name has the number of its node. -/
theorem boxNumber?_eq {n : CallTree} (hn : n ∈ forest.nodes) :
    boxNumber? forest n.name = some (forest.number n) := by
  have hname : n.name ∈ forest.names := List.mem_map_of_mem hn
  obtain ⟨k, hk⟩ := Option.isSome_iff_exists.mp (List.isSome_idxOf?.mpr hname)
  rw [boxNumber?, boxes_eq hnames, ← CallForest.names, CallForest.number,
    List.idxOf_eq_getD_idxOf?, hk]
  rfl

/-- There is one arrow line for each link, in order. -/
theorem arrowLines_eq : arrowLines forest = forest.links.map fun l => arrowLine l.1 l.2 := by
  rw [arrowLines, CallForest.links, List.map_map, ← List.filterMap_eq_map]
  refine List.filterMap_congr ?_
  rintro ⟨m, n⟩ hedge
  obtain ⟨hm, hn⟩ := CallForest.mem_nodes_of_mem_edges hedge
  have hne : (m.name == n.name) = false := by
    simpa using CallForest.name_ne_of_mem_edges hnames hedge
  simp [hne, boxNumber?_eq hnames hm, boxNumber?_eq hnames hn]

/-- A flowchart is its marker, the box of each node, the arrow of each link, and the styles. -/
theorem lines_render : (render forest).lines =
    Grammar.graph.marker :: classLine :: (forest.nodes.zipIdx.map fun b => boxLine b.2 b.1) ++
      (forest.links.map fun l => arrowLine l.1 l.2) ++ [linkLine] := by
  rw [render, boxLines, boxes_eq hnames, arrowLines_eq hnames]

/-- A flowchart has three lines besides one for each node and one for each that is no root. -/
theorem length_lines_render :
    (render forest).lines.length = 3 + 2 * forest.size - forest.trees.length := by
  have hedges := CallForest.length_edges forest
  rw [lines_render hnames]
  simp only [List.length_cons, List.length_append, List.length_map, List.length_zipIdx,
    List.length_nil, CallForest.length_nodes, CallForest.links]
  omega

end Distinct

/-! ## The text of the lines -/

/-- A text with its double quotes spelled out. -/
def quoted (text : String) : String :=
  String.ofList (text.toList.flatMap fun c => if c = '"' then "#quot;".toList else [c])

/-- In the label of a box every double quote is spelled out, and nothing else is changed. -/
theorem toList_boxLabel (node : CallTree) :
    (boxLabel node).toList =
      (Label.title node.name ++ " (" ++ FilePath.baseName node.file ++ ")").toList.flatMap
        fun c => if c = '"' then "#quot;".toList else [c] := by
  rw [boxLabel, Text.replaced, String.toList_ofList]
  exact Text.replaceAll_singleton _ _ _

/-- A box bears the number of its node, and shows the title of the name and, in parentheses, the
base name of the file. -/
theorem boxLine_eq (n : Nat) (node : CallTree) :
    boxLine n node = "    N" ++ toString n ++ "[\"" ++
      quoted (Label.title node.name ++ " (" ++ FilePath.baseName node.file ++ ")") ++ "\"]" := by
  have hlabel : boxLabel node =
      quoted (Label.title node.name ++ " (" ++ FilePath.baseName node.file ++ ")") :=
    String.toList_inj.mp ((toList_boxLabel node).trans String.toList_ofList.symm)
  have hstart : "    " ++ "N" = "    N" := rfl
  rw [boxLine, boxId, hlabel, ← hstart]
  simp only [String.append_assoc]

example : boxLine 1 (.node "say_hi" "src/a.js" []) = "    N1[\"Say Hi (a.js)\"]" := by
  decide +kernel

/-- An arrow joins the numbers of two boxes. -/
theorem arrowLine_eq (source target : Nat) :
    arrowLine source target = "    N" ++ toString source ++ " --> N" ++ toString target := by
  have hstart : "    " ++ "N" = "    N" := rfl
  have hmiddle : " --> " ++ "N" = " --> N" := rfl
  rw [arrowLine, boxId, boxId, ← hstart, ← hmiddle]
  simp only [String.append_assoc]

/-! ## Lines that are tidy -/

/-- A box identifier is the letter and the digits of its number. -/
theorem toList_boxId (n : Nat) : (boxId n).toList = 'N' :: Nat.toDigits 10 n := by
  simp [boxId]

/-- A box identifier is made of the letter and digits. -/
theorem eq_or_isDigit_of_mem_boxId {n : Nat} {c : Char} (h : c ∈ (boxId n).toList) :
    c = 'N' ∨ c.isDigit := by
  rw [toList_boxId, List.mem_cons] at h
  exact h.imp_right fun hdigit => Nat.isDigit_of_mem_toDigits (by decide) (by decide) hdigit

/-- Tidying changes nothing about a box identifier. -/
theorem isInert_of_mem_boxId {n : Nat} {c : Char} (h : c ∈ (boxId n).toList) :
    Tidy.isInert c ∧ Text.isSpaceOrTab c = false := by
  rcases eq_or_isDigit_of_mem_boxId h with rfl | hdigit
  · decide
  · have hne : ∀ d : Char, d.isDigit = false → c ≠ d := by
      rintro d hd rfl
      rw [hd] at hdigit
      exact absurd hdigit (by decide)
    simp [Tidy.isInert, Text.isSpaceOrTab, hne]

/-- Tidying leaves an arrow line as it is. -/
theorem tidyLine_arrowLine (source target : Nat) :
    Tidy.tidyLine (arrowLine source target).toList = (arrowLine source target).toList := by
  have hparts : (arrowLine source target).toList =
      ("    ".toList ++ (boxId source).toList) ++ " --> ".toList ++ (boxId target).toList := by
    simp [arrowLine]
  rw [hparts]
  refine Tidy.tidyLine_of_spaced ?_ ?_ ?_ ?_
  · intro c hc
    rcases List.mem_append.mp hc with hc | hc
    · have hspaces : "    ".toList = List.replicate 4 ' ' := rfl
      rw [hspaces] at hc
      obtain rfl := List.eq_of_mem_replicate hc
      decide
    · exact (isInert_of_mem_boxId hc).1
  · intro c hc
    exact (isInert_of_mem_boxId hc).1
  · intro c hc
    have hid : (boxId source).toList ≠ [] := by simp [toList_boxId]
    rw [List.getLast?_append_of_ne_nil _ hid] at hc
    exact (isInert_of_mem_boxId (List.mem_of_getLast? hc)).2
  · intro c hc
    exact (isInert_of_mem_boxId (List.mem_of_mem_head? hc)).2

/-- Tidying leaves the marker and the lines of the styles as they are. -/
theorem tidyLine_frame : ∀ line ∈ [Grammar.graph.marker, classLine, linkLine],
    Tidy.tidyLine line.toList = line.toList := by
  decide +kernel

/-- **A flowchart spells out the forest it is drawn from.**  Its lines are the marker, the styles
of the boxes, one box for each node in preorder, one arrow for each node with a parent, in the order
of the boxes, and the style of the arrows; tidying changes none of them but boxes.  A box bears the
number of its node, the title of the name and the base name of the file. -/
theorem flowchart_spells_out_forest (defs : List Definition) (limits : ForestLimits) :
    ∃ links, (CallForest.grow defs limits).ParentLinks links ∧
      (render (CallForest.grow defs limits)).lines =
        "graph TD" ::
          "    classDef default fill:#eef4ff,stroke:#1e66f5,stroke-width:1px,color:#1e1e2e" ::
            ((CallForest.grow defs limits).nodes.zipIdx.map fun b =>
              "    N" ++ toString b.2 ++ "[\"" ++
                quoted (Label.title b.1.name ++ " (" ++ FilePath.baseName b.1.file ++ ")") ++
                "\"]") ++
          (links.map fun l => "    N" ++ toString l.1 ++ " --> N" ++ toString l.2) ++
          ["    linkStyle default stroke:#6c7086,stroke-width:1px"] ∧
      (render (CallForest.grow defs limits)).lines.length =
        3 + 2 * (CallForest.grow defs limits).size - (CallForest.grow defs limits).trees.length ∧
      ∀ line ∈ [Grammar.graph.marker, classLine, linkLine] ++
          (links.map fun l => "    N" ++ toString l.1 ++ " --> N" ++ toString l.2),
        Tidy.tidyLine line.toList = line.toList := by
  have hnames := CallForest.nodup_names_grow defs limits
  simp only [← boxLine_eq, ← arrowLine_eq]
  refine ⟨(CallForest.grow defs limits).links, CallForest.parentLinks_links hnames,
    lines_render hnames, length_lines_render hnames, ?_⟩
  intro line hline
  rcases List.mem_append.mp hline with hframe | harrow
  · exact tidyLine_frame line hframe
  · obtain ⟨l, -, rfl⟩ := List.mem_map.mp harrow
    exact tidyLine_arrowLine l.1 l.2

end Flowchart

end CallAtlas
