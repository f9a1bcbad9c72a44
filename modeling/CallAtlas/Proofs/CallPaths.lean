import CallAtlas.CallGraph
import CallAtlas.Proofs.Resolution
import Mathlib.Data.List.Basic
import Mathlib.Logic.Relation

/-!
# Paths of a call graph

`Calls` is the relation that a call graph is to draw: some definition of the caller calls the
callee, and the callee is defined.  The graph has exactly these edges (`mem_edges_iff`), and the
main statement, `mem_reachable_iff`, says that its search finds exactly the names at the ends of
paths along them.

The search spends one step for each level.  It never runs out: every level has seen one more
defined name than the level above, so that at the last level nothing is left to look for.
`Expanded` is what the search keeps true at every level, and `expanded_visit` is the step.
-/

set_option autoImplicit false

namespace CallAtlas

open Relation (ReflTransGen TransGen)

/-- A name calls another when some definition of it does and the other one is defined. -/
def Calls (defs : List Definition) (caller callee : String) : Prop :=
  (∃ d ∈ defs, d.name = caller ∧ callee ∈ d.calls) ∧ IsDefined defs callee

/-- A name that calls another is defined. -/
theorem Calls.isDefined_caller {defs : List Definition} {a b : String} (h : Calls defs a b) :
    IsDefined defs a := by
  obtain ⟨⟨d, hd, hname, -⟩, -⟩ := h
  exact ⟨d, hd, hname⟩

/-- A name at the beginning of a path of calls is defined. -/
theorem isDefined_of_transGen_calls {defs : List Definition} {a b : String}
    (h : TransGen (Calls defs) a b) : IsDefined defs a := by
  obtain ⟨c, hc, -⟩ := TransGen.head'_iff.mp h
  exact hc.isDefined_caller

/-! ## Rows -/

namespace CallGraph

/-- The callees of a name are the names that it calls. -/
theorem mem_callees {defs : List Definition} {a b : String} :
    b ∈ callees defs a ↔ Calls defs a b := by
  simp [callees, Calls, IsDefined, and_assoc]

/-- The nodes of the graph are the set of the names of the definitions. -/
theorem nodes_ofDefinitions (defs : List Definition) :
    (ofDefinitions defs).nodes = (NameSet.ofList (defs.map (·.name))).toList := by
  simp [nodes, ofDefinitions, Function.comp_def]

/-- The nodes of the graph are the defined names. -/
theorem mem_nodes_iff {defs : List Definition} {name : String} :
    name ∈ (ofDefinitions defs).nodes ↔ IsDefined defs name := by
  simp [nodes_ofDefinitions, IsDefined]

/-- The nodes of the graph stand in increasing order, each of them once. -/
theorem nodes_increasing (defs : List Definition) :
    (ofDefinitions defs).nodes.Pairwise (· < ·) := by
  rw [nodes_ofDefinitions]
  exact (NameSet.ofList (defs.map (·.name))).increasing

/-- The edges of the graph are the calls between defined names. -/
theorem mem_edges_iff {defs : List Definition} {a b : String} :
    (a, b) ∈ (ofDefinitions defs).edges ↔ Calls defs a b := by
  constructor
  · intro h
    obtain ⟨row, hrow, hpair⟩ := List.mem_flatMap.mp h
    obtain ⟨name, -, rfl⟩ := List.mem_map.mp hrow
    obtain ⟨callee, hcallee, heq⟩ := List.mem_map.mp hpair
    obtain ⟨rfl, rfl⟩ := Prod.mk.inj heq
    exact mem_callees.mp hcallee
  · intro h
    have hnode : a ∈ (NameSet.ofList (defs.map (·.name))).toList := by
      rw [← nodes_ofDefinitions, mem_nodes_iff]
      exact h.isDefined_caller
    have hrow : (a, callees defs a) ∈ (ofDefinitions defs).rows := List.mem_map_of_mem hnode
    exact List.mem_flatMap.mpr ⟨_, hrow, List.mem_map.mpr ⟨b, mem_callees.mpr h, rfl⟩⟩

/-- The successors of a name are the names that it calls. -/
theorem mem_successors_iff {defs : List Definition} {a b : String} :
    b ∈ (ofDefinitions defs).successors a ↔ Calls defs a b := by
  by_cases ha : a ∈ (NameSet.ofList (defs.map (·.name))).toList
  · have hrow : (ofDefinitions defs).rows.lookup a = some (callees defs a) :=
      List.lookup_graph (callees defs) ha
    rw [successors, hrow, Option.getD_some, mem_callees]
  · have hrow : (ofDefinitions defs).rows.lookup a = none := by
      rw [List.lookup_eq_none_iff]
      intro row hmem
      obtain ⟨name, hname, rfl⟩ := List.mem_map.mp hmem
      exact bne_iff_ne.mpr fun h => ha (h ▸ hname)
    have hcalls : ¬Calls defs a b := by
      intro h
      rw [← nodes_ofDefinitions, mem_nodes_iff] at ha
      exact ha h.isDefined_caller
    simp [successors, hrow, hcalls]

end CallGraph

/-! ## The search -/

section Search

variable {next : String → List String}

/-- What holds of a visit to a name seen before, of a last visit, and of a visit from which the
callees are visited in turn, holds of every visit. -/
theorem visit_induct {P : Nat → List String → String → List String → Prop}
    (old : ∀ steps seen name, name ∈ seen → P steps seen name seen)
    (last : ∀ seen name, name ∉ seen → P 0 seen name (name :: seen))
    (step : ∀ steps seen name, name ∉ seen →
      (∀ seen name, P steps seen name (visit next steps seen name)) →
      P (steps + 1) seen name ((next name).foldl (visit next steps) (name :: seen)))
    (steps : Nat) (seen : List String) (name : String) :
    P steps seen name (visit next steps seen name) := by
  induction steps generalizing seen name with
  | zero =>
    by_cases h : name ∈ seen
    · simpa [visit, h] using old 0 seen name h
    · simpa [visit, h] using last seen name h
  | succ steps ih =>
    by_cases h : name ∈ seen
    · simpa [visit, h] using old (steps + 1) seen name h
    · simpa [visit, h] using step steps seen name h ih

/-- Visits in turn see all the names visited and lose none seen before. -/
theorem append_subset_foldl {f : List String → String → List String}
    (hf : ∀ seen name, name :: seen ⊆ f seen name) (names seen : List String) :
    names ++ seen ⊆ names.foldl f seen := by
  induction names generalizing seen with
  | nil => exact List.Subset.refl seen
  | cons name names ih =>
    have hone := List.cons_subset.mp (hf seen name)
    have hrest := List.append_subset.mp (ih (f seen name))
    rw [List.cons_append, List.foldl_cons, List.cons_subset, List.append_subset]
    exact ⟨hrest.2 hone.1, hrest.1, List.Subset.trans hone.2 hrest.2⟩

/-- A visit sees the name itself and loses none seen before. -/
theorem cons_subset_visit (steps : Nat) (seen : List String) (name : String) :
    name :: seen ⊆ visit next steps seen name := by
  refine visit_induct (P := fun _ seen name found => name :: seen ⊆ found) ?_ ?_ ?_ steps seen name
  · intro _ seen name h
    exact List.cons_subset.mpr ⟨h, List.Subset.refl seen⟩
  · intro seen name _
    exact List.Subset.refl (name :: seen)
  · intro steps seen name _ ih
    exact List.Subset.trans (List.subset_append_right _ _) (append_subset_foldl ih (next name) _)

/-! ### Nothing but paths -/

/-- If each visit finds only what paths lead to, so do visits in turn. -/
theorem reach_of_mem_foldl {f : List String → String → List String} {names seen : List String}
    (hf : ∀ seen name, ∀ a ∈ f seen name, a ∈ seen ∨ ReflTransGen (fun a b => b ∈ next a) name a) :
    ∀ a ∈ names.foldl f seen,
      a ∈ seen ∨ ∃ name ∈ names, ReflTransGen (fun a b => b ∈ next a) name a := by
  induction names generalizing seen with
  | nil => exact fun a ha => Or.inl ha
  | cons name names ih =>
    intro a ha
    rcases ih a ha with hseen | ⟨later, hlater, hreach⟩
    · rcases hf seen name a hseen with hseen | hreach
      · exact Or.inl hseen
      · exact Or.inr ⟨name, List.mem_cons_self, hreach⟩
    · exact Or.inr ⟨later, List.mem_cons_of_mem name hlater, hreach⟩

/-- A visit finds only names at the ends of paths from the one visited. -/
theorem reach_of_mem_visit (steps : Nat) (seen : List String) (name : String) :
    ∀ a ∈ visit next steps seen name,
      a ∈ seen ∨ ReflTransGen (fun a b => b ∈ next a) name a := by
  refine visit_induct (P := fun _ seen name found => ∀ a ∈ found,
    a ∈ seen ∨ ReflTransGen (fun a b => b ∈ next a) name a) ?_ ?_ ?_ steps seen name
  · exact fun _ _ _ _ a ha => Or.inl ha
  · intro seen name _ a ha
    rcases List.mem_cons.mp ha with rfl | ha
    · exact Or.inr ReflTransGen.refl
    · exact Or.inl ha
  · intro steps seen name _ ih a ha
    rcases reach_of_mem_foldl ih a ha with hseen | ⟨callee, hcallee, hreach⟩
    · rcases List.mem_cons.mp hseen with rfl | hseen
      · exact Or.inr ReflTransGen.refl
      · exact Or.inl hseen
    · exact Or.inr (ReflTransGen.head hcallee hreach)

/-! ### All paths -/

/-- From the names in `start` the search has got on to those in `seen`: it has lost none, and has
also seen whatever the new ones lead to. -/
structure Expanded (next : String → List String) (start seen : List String) : Prop where
  /-- Nothing is lost. -/
  subset : start ⊆ seen
  /-- What a new name leads to has been seen. -/
  closed : ∀ a ∈ seen, a ∉ start → ∀ b ∈ next a, b ∈ seen

/-- A search that has seen nothing new has left nothing out. -/
theorem Expanded.refl (seen : List String) : Expanded next seen seen :=
  ⟨List.Subset.refl seen, fun _ ha hnew => absurd ha hnew⟩

/-- Getting on twice is getting on. -/
theorem Expanded.trans {start mid seen : List String} (h : Expanded next start mid)
    (h' : Expanded next mid seen) : Expanded next start seen := by
  refine ⟨List.Subset.trans h.subset h'.subset, fun a ha hnew b hb => ?_⟩
  by_cases hmid : a ∈ mid
  · exact h'.subset (h.closed a hmid hnew b hb)
  · exact h'.closed a ha hmid b hb

/-- If each visit leaves nothing out, visits in turn leave nothing out. -/
theorem expanded_foldl {f : List String → String → List String} {names start : List String}
    (hf : ∀ seen, start ⊆ seen → ∀ name ∈ names, Expanded next seen (f seen name)) :
    Expanded next start (names.foldl f start) := by
  refine List.foldlRecOn names f (Expanded.refl start) fun seen h name hname => ?_
  exact h.trans (hf seen h.subset name hname)

/-- With steps enough for the names not yet seen, a visit leaves nothing out. -/
theorem expanded_visit {defs : List Definition} (hnext : ∀ a, ∀ b ∈ next a, IsDefined defs b)
    {steps : Nat} {seen : List String} (hsteps : (unseen defs seen).card ≤ steps + 1)
    {name : String} (hname : IsDefined defs name) :
    Expanded next seen (visit next steps seen name) := by
  refine visit_induct (P := fun steps seen name found => (unseen defs seen).card ≤ steps + 1 →
    IsDefined defs name → Expanded next seen found) ?_ ?_ ?_ steps seen name hsteps hname
  · exact fun _ seen _ _ _ _ => Expanded.refl seen
  · intro seen name hnew hsteps hname
    have hfewer := card_unseen_cons_lt hname hnew
    have hnone : unseen defs (name :: seen) = ∅ := Finset.card_eq_zero.mp (by omega)
    refine ⟨List.subset_cons_self name seen, fun a _ _ b hb => ?_⟩
    exact unseen_eq_empty_iff.mp hnone b (hnext a b hb)
  · intro steps seen name hnew ih hsteps hname
    have hfewer := card_unseen_cons_lt hname hnew
    have hrest : Expanded next (name :: seen)
        ((next name).foldl (visit next steps) (name :: seen)) := by
      refine expanded_foldl fun seen' hsub callee hcallee => ?_
      have hless := Finset.card_le_card (unseen_anti defs hsub)
      exact ih seen' callee (by omega) (hnext name callee hcallee)
    have hcallees : next name ++ name :: seen ⊆
        (next name).foldl (visit next steps) (name :: seen) :=
      append_subset_foldl (cons_subset_visit steps) (next name) (name :: seen)
    refine ⟨List.Subset.trans (List.subset_cons_self name seen) hrest.subset, ?_⟩
    intro a ha ha_new b hb
    -- The name itself is new too, and its callees are those visited in turn.
    by_cases haname : a = name
    · exact hcallees (List.mem_append_left _ (haname ▸ hb))
    · exact hrest.closed a ha (by simp [haname, ha_new]) b hb

end Search

/-! ## Reachable names -/

namespace CallGraph

variable {defs : List Definition}

/-- There are at most as many names to see as the graph has rows. -/
theorem card_unseen_nil_le (defs : List Definition) :
    (unseen defs []).card ≤ (ofDefinitions defs).rows.length := by
  have hnodes : unseen defs [] ⊆ (ofDefinitions defs).nodes.toFinset := by
    intro name hname
    rw [List.mem_toFinset, mem_nodes_iff]
    simpa [unseen] using hname
  calc
    (unseen defs []).card ≤ (ofDefinitions defs).nodes.toFinset.card := Finset.card_le_card hnodes
    _ ≤ (ofDefinitions defs).nodes.length := List.toFinset_card_le _
    _ = (ofDefinitions defs).rows.length := List.length_map _

/-- The search from a name sees its successors. -/
theorem successors_subset_reachable (graph : CallGraph) (name : String) :
    graph.successors name ⊆ graph.reachable name :=
  List.Subset.trans (List.subset_append_left _ [])
    (append_subset_foldl (cons_subset_visit graph.rows.length) (graph.successors name) [])

/-- The search from a name leaves nothing out. -/
theorem expanded_reachable (defs : List Definition) (name : String) :
    Expanded (ofDefinitions defs).successors [] ((ofDefinitions defs).reachable name) := by
  have hnext : ∀ a, ∀ b ∈ (ofDefinitions defs).successors a, IsDefined defs b :=
    fun a b hb => (mem_successors_iff.mp hb).2
  refine expanded_foldl fun seen hsub callee hcallee => ?_
  have hless := Finset.card_le_card (unseen_anti defs hsub)
  have hall := card_unseen_nil_le defs
  exact expanded_visit hnext (by omega) (hnext name callee hcallee)

/-- The search finds exactly the names that paths of at least one call lead to. -/
theorem mem_reachable_iff {a b : String} :
    b ∈ (ofDefinitions defs).reachable a ↔ TransGen (Calls defs) a b := by
  have hrel : (fun a b => b ∈ (ofDefinitions defs).successors a) = Calls defs := by
    funext a b
    exact propext mem_successors_iff
  constructor
  · intro h
    rcases reach_of_mem_foldl (reach_of_mem_visit _) b h with hnil | ⟨callee, hcallee, hreach⟩
    · exact absurd hnil List.not_mem_nil
    · rw [hrel] at hreach
      exact TransGen.head' (mem_successors_iff.mp hcallee) hreach
  · intro h
    induction h with
    | single hcall => exact successors_subset_reachable _ a (mem_successors_iff.mpr hcall)
    | tail _ hcall ih =>
      exact (expanded_reachable defs a).closed _ ih List.not_mem_nil _
        (mem_successors_iff.mpr hcall)

end CallGraph

end CallAtlas
