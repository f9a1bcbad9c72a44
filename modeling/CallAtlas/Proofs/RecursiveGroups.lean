import CallAtlas.Proofs.CallPaths
import CallAtlas.Proofs.FirstOccurrence

/-!
# Recursive groups

The recursive groups of a program are the classes of mutual calls: the names that lie on cycles of
calls, parted by which of them lead to each other.  `recursiveGroups_are_cycle_classes` says so
for every list of definitions, and that the groups are disjoint and in order.

A name on a cycle has one group (`groupOf`), and names that lead to each other share it.  The
groups are listed as their names come up, and only the first occurrence is kept; since the names
come up in increasing order, that first occurrence is at the least name of the group, which is its
first (`groups_ordered`).
-/

set_option autoImplicit false

namespace CallAtlas

open Relation (TransGen)

/-- The classes of a relation on names: lists of the names that lead to each other, of which each
leads to itself. -/
structure CycleClasses (step : String → String → Prop) (classes : List (List String)) : Prop where
  /-- The names in the classes are those that lie on a cycle. -/
  mem_iff : ∀ a, (∃ c ∈ classes, a ∈ c) ↔ TransGen step a a
  /-- Two names share a class exactly when each leads to the other. -/
  share_iff : ∀ a b, (∃ c ∈ classes, a ∈ c ∧ b ∈ c) ↔ TransGen step a b ∧ TransGen step b a
  /-- No name is in two classes. -/
  disjoint : classes.Pairwise List.Disjoint
  /-- The names of a class increase. -/
  increasing : ∀ c ∈ classes, c.Pairwise (· < ·)
  /-- Every class has a name. -/
  nonempty : ∀ c ∈ classes, c ≠ []
  /-- The first names of the classes increase. -/
  ordered : classes.Pairwise fun c d => ∀ a ∈ c.head?, ∀ b ∈ d.head?, a < b

namespace CallGraph

/-- The names of a graph that lie on cycles. -/
def cyclicNames (graph : CallGraph) : List String :=
  graph.nodes.filter fun name => name ∈ graph.reachable name

/-- The names on cycles that a name leads to and that lead to it. -/
def groupOf (graph : CallGraph) (name : String) : List String :=
  graph.cyclicNames.filter fun other =>
    other ∈ graph.reachable name && name ∈ graph.reachable other

/-- The recursive groups are those of the names on cycles, each once. -/
theorem recursiveGroups_eq (graph : CallGraph) :
    graph.recursiveGroups = (graph.cyclicNames.map graph.groupOf).eraseDups := by
  have hcyclic : (graph.nodes.map fun name => (name, graph.reachable name)).filter
      (fun r => r.1 ∈ r.2) = graph.cyclicNames.map fun name => (name, graph.reachable name) := by
    rw [List.filter_map]
    rfl
  rw [recursiveGroups]
  simp only [hcyclic, List.map_map, List.filter_map]
  congr 1
  refine List.map_congr_left fun name _ => ?_
  simp [groupOf, Function.comp_def]

variable {defs : List Definition}

/-- A name is on a cycle when calls lead from it back to it. -/
theorem mem_cyclicNames_iff {name : String} :
    name ∈ (ofDefinitions defs).cyclicNames ↔ TransGen (Calls defs) name name := by
  simp only [cyclicNames, List.mem_filter, mem_nodes_iff, decide_eq_true_iff, mem_reachable_iff]
  exact and_iff_right_of_imp isDefined_of_transGen_calls

/-- The names on cycles come in increasing order. -/
theorem cyclicNames_increasing (defs : List Definition) :
    (ofDefinitions defs).cyclicNames.Pairwise (· < ·) :=
  (nodes_increasing defs).filter _

/-- The group of a name holds the names that it leads to and that lead to it. -/
theorem mem_groupOf_iff {a b : String} :
    b ∈ (ofDefinitions defs).groupOf a ↔ TransGen (Calls defs) a b ∧ TransGen (Calls defs) b a := by
  simp only [groupOf, List.mem_filter, Bool.and_eq_true, decide_eq_true_iff, mem_reachable_iff,
    mem_cyclicNames_iff]
  exact and_iff_right_of_imp fun h => h.2.trans h.1

/-- Names that lead to each other have the same group. -/
theorem groupOf_eq {a b : String} (hab : TransGen (Calls defs) a b)
    (hba : TransGen (Calls defs) b a) :
    (ofDefinitions defs).groupOf a = (ofDefinitions defs).groupOf b := by
  refine List.filter_congr fun other _ => ?_
  have hto : other ∈ (ofDefinitions defs).reachable a ↔
      other ∈ (ofDefinitions defs).reachable b := by
    simp only [mem_reachable_iff]
    exact ⟨hba.trans, hab.trans⟩
  have hfrom : a ∈ (ofDefinitions defs).reachable other ↔
      b ∈ (ofDefinitions defs).reachable other := by
    simp only [mem_reachable_iff]
    exact ⟨fun h => h.trans hab, fun h => h.trans hba⟩
  simp only [hto, hfrom]

/-- A recursive group is the group of a name on a cycle. -/
theorem mem_recursiveGroups_iff {c : List String} :
    c ∈ (ofDefinitions defs).recursiveGroups ↔
      ∃ name, TransGen (Calls defs) name name ∧ (ofDefinitions defs).groupOf name = c := by
  simp only [recursiveGroups_eq, List.mem_eraseDups, List.mem_map, mem_cyclicNames_iff]

/-- A recursive group is the group of each of its members. -/
theorem eq_groupOf_of_mem {c : List String} (hc : c ∈ (ofDefinitions defs).recursiveGroups)
    {a : String} (ha : a ∈ c) : c = (ofDefinitions defs).groupOf a := by
  obtain ⟨name, -, rfl⟩ := mem_recursiveGroups_iff.mp hc
  obtain ⟨hto, hfrom⟩ := mem_groupOf_iff.mp ha
  exact groupOf_eq hto hfrom

/-- Two names share a recursive group exactly when each leads to the other. -/
theorem share_group_iff {a b : String} :
    (∃ c ∈ (ofDefinitions defs).recursiveGroups, a ∈ c ∧ b ∈ c) ↔
      TransGen (Calls defs) a b ∧ TransGen (Calls defs) b a := by
  constructor
  · rintro ⟨c, hc, ha, hb⟩
    rw [eq_groupOf_of_mem hc ha] at hb
    exact mem_groupOf_iff.mp hb
  · rintro ⟨hab, hba⟩
    have hcycle : TransGen (Calls defs) a a := hab.trans hba
    exact ⟨_, mem_recursiveGroups_iff.mpr ⟨a, hcycle, rfl⟩, mem_groupOf_iff.mpr ⟨hcycle, hcycle⟩,
      mem_groupOf_iff.mpr ⟨hab, hba⟩⟩

/-- The names in recursive groups are those on cycles of calls. -/
theorem exists_group_iff {a : String} :
    (∃ c ∈ (ofDefinitions defs).recursiveGroups, a ∈ c) ↔ TransGen (Calls defs) a a := by
  simpa only [and_self] using @share_group_iff defs a a

/-- No two recursive groups have a member in common. -/
theorem groups_disjoint (defs : List Definition) :
    (ofDefinitions defs).recursiveGroups.Pairwise List.Disjoint := by
  have hnodup : (ofDefinitions defs).recursiveGroups.Nodup := by
    rw [recursiveGroups_eq]
    exact nodup_eraseDups _
  refine List.Pairwise.imp_of_mem (fun {c d} hc hd hne => ?_) hnodup
  intro a hac had
  exact hne ((eq_groupOf_of_mem hc hac).trans (eq_groupOf_of_mem hd had).symm)

/-- The members of a group come in increasing order. -/
theorem groupOf_increasing (defs : List Definition) (name : String) :
    ((ofDefinitions defs).groupOf name).Pairwise (· < ·) :=
  (cyclicNames_increasing defs).filter _

/-- Nothing in an increasing list comes before its first member. -/
theorem eq_or_lt_of_mem_head? {c : List String} (hc : c.Pairwise (· < ·)) {a b : String}
    (ha : a ∈ c.head?) (hb : b ∈ c) : a = b ∨ a < b := by
  obtain ⟨rest, rfl⟩ := List.head?_eq_some_iff.mp ha
  rcases List.mem_cons.mp hb with rfl | hb
  · exact Or.inl rfl
  · exact Or.inr ((List.pairwise_cons.mp hc).1 b hb)

/-- A group first comes up with its least name, so groups come up in the order of these. -/
theorem groups_ordered (defs : List Definition) :
    (ofDefinitions defs).recursiveGroups.Pairwise fun c d =>
      ∀ a ∈ c.head?, ∀ b ∈ d.head?, a < b := by
  rw [recursiveGroups_eq]
  refine pairwise_eraseDups fun before d after hsplit hfirst c hc a ha b hb => ?_
  obtain ⟨early, late, hnames, rfl, hlate⟩ := List.map_eq_append_iff.mp hsplit
  obtain ⟨n, rest, rfl, rfl, -⟩ := List.map_eq_cons_iff.mp hlate
  obtain ⟨m, hm, rfl⟩ := List.mem_map.mp hc
  have hsorted := cyclicNames_increasing defs
  rw [hnames, List.pairwise_append] at hsorted
  have hmcycle : TransGen (Calls defs) m m :=
    mem_cyclicNames_iff.mp (hnames ▸ List.mem_append_left _ hm)
  have hmin : a = m ∨ a < m :=
    eq_or_lt_of_mem_head? (groupOf_increasing defs m) ha (mem_groupOf_iff.mpr ⟨hmcycle, hmcycle⟩)
  -- Had `b` come up before `n`, it would have brought the group of `n` with it.
  obtain ⟨hnb, hbn⟩ := mem_groupOf_iff.mp (List.mem_of_mem_head? hb)
  have hbearly : b ∉ early := fun hmem =>
    hfirst (List.mem_map.mpr ⟨b, hmem, groupOf_eq hbn hnb⟩)
  have hblate : b ∈ n :: rest := by
    have hball : b ∈ early ++ n :: rest := hnames ▸ mem_cyclicNames_iff.mpr (hbn.trans hnb)
    exact (List.mem_append.mp hball).resolve_left hbearly
  have hmb : m < b := hsorted.2.2 m hm b hblate
  rcases hmin with rfl | hlt
  · exact hmb
  · exact String.lt_trans hlt hmb

/-- **The recursive groups of a program are the classes of its mutual calls**: a name is in a group
exactly when a path of calls leads from it to itself, two names share a group exactly when each
leads to the other, no name is in two groups, and the groups and their names are in strictly
increasing order. -/
theorem recursiveGroups_are_cycle_classes (defs : List Definition) :
    CycleClasses (Calls defs) (ofDefinitions defs).recursiveGroups where
  mem_iff _ := exists_group_iff
  share_iff _ _ := share_group_iff
  disjoint := groups_disjoint defs
  increasing c hc := by
    obtain ⟨name, -, rfl⟩ := mem_recursiveGroups_iff.mp hc
    exact groupOf_increasing defs name
  nonempty c hc := by
    obtain ⟨name, hcycle, rfl⟩ := mem_recursiveGroups_iff.mp hc
    exact List.ne_nil_of_mem (mem_groupOf_iff.mpr ⟨hcycle, hcycle⟩)
  ordered := groups_ordered defs

/-- A name that is defined twice is on the cycle that only its second definition closes. -/
example : (ofDefinitions
    [⟨"walk", "x.py", 1, .moduleLevel, .ofList ["walk", "print"]⟩,
     ⟨"b", "x.py", 2, .moduleLevel, .empty⟩,
     ⟨"a", "x.py", 3, .moduleLevel, .ofList ["b"]⟩,
     ⟨"b", "y.py", 1, .moduleLevel, .ofList ["leaf", "a"]⟩,
     ⟨"leaf", "y.py", 2, .moduleLevel, .empty⟩]).recursiveGroups = [["a", "b"], ["walk"]] := by
  decide

end CallGraph

end CallAtlas
