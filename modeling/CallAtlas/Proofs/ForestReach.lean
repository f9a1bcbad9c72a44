import CallAtlas.Proofs.ForestGrowth
import Mathlib.Logic.Relation

/-!
# What a forest reaches

With as many levels as there are defined names, the level limit cuts nothing off: the forest holds
exactly the names that can be reached from the entry points that get a tree, and any more levels
give the same forest.

A branch that is cut at the last level would have to go to a new name, and every level above it
has used one up (`growTree_add_level`).  So the forest may be grown with one more level than asked
for, and then every node has room below it: all its callees have been seen when its branches are
done (`mem_seen_of_mem_callees`), and what has been seen stands in the forest.
-/

set_option autoImplicit false

namespace CallAtlas

open CallTree

/-! ## Levels that make no difference -/

/-- Growing a tree loses no name seen before. -/
theorem subset_growTree_seen (defs : List Definition) (below : Nat) (seen : List String)
    (name : String) : seen ⊆ (growTree defs below seen name).2 := by
  rw [growTree_seen]
  exact List.subset_append_right _ _

/-- Branches are the same if the trees are, after all that has been seen by then. -/
theorem growBranches_congr {f g : List String → String → Option CallTree × List String}
    {seen : List String} (callees : List String)
    (hfg : ∀ seen' name, seen ⊆ seen' → f seen' name = g seen' name)
    (hg : ∀ seen' name, seen' ⊆ (g seen' name).2) :
    growBranches f seen callees = growBranches g seen callees := by
  induction callees generalizing seen with
  | nil => rfl
  | cons callee callees ih =>
    rw [growBranches_cons, growBranches_cons, hfg seen callee (List.Subset.refl seen)]
    have hmore := hg seen callee
    rw [ih fun seen' name h => hfg seen' name (List.Subset.trans hmore h)]

/-- When every defined name has been seen, no branch grows. -/
theorem growBranches_of_all_seen {defs : List Definition} {below : Nat} {seen : List String}
    (h : ∀ name, IsDefined defs name → name ∈ seen) (callees : List String) :
    growBranches (growTree defs below) seen callees = ([], seen) := by
  induction callees with
  | nil => rfl
  | cons callee callees ih =>
    have hnone : growTree defs below seen callee = (none, seen) := by
      cases hd : resolve defs callee with
      | none => exact growTree_of_undefined hd below seen
      | some d =>
        obtain ⟨hlast, hname⟩ := resolve_eq_some_iff.mp hd
        exact growTree_of_seen (h callee (hname ▸ hlast.isDefined)) below
    simp [growBranches_cons, hnone, ih]

/-- A tree depends on the level limit only through what grows below its root. -/
theorem growTree_congr {defs : List Definition} {below below' : Nat} {seen : List String}
    {name : String}
    (h : ∀ d, resolve defs name = some d → name ∉ seen →
      growBelow defs below (name :: seen) d = growBelow defs below' (name :: seen) d) :
    growTree defs below seen name = growTree defs below' seen name := by
  cases hd : resolve defs name with
  | none => rw [growTree_of_undefined hd, growTree_of_undefined hd]
  | some d =>
    by_cases hseen : name ∈ seen
    · rw [growTree_of_seen hseen, growTree_of_seen hseen]
    · rw [growTree_of_new hd hseen, growTree_of_new hd hseen, h d hd hseen]

/-- Once the levels suffice for the names not yet seen, one more level changes nothing. -/
theorem growTree_add_level {defs : List Definition} {below : Nat} {seen : List String}
    (h : (unseen defs seen).card ≤ below + 1) (name : String) :
    growTree defs (below + 1) seen name = growTree defs below seen name := by
  induction below generalizing seen name with
  | zero =>
    refine growTree_congr fun d hd hnew => ?_
    have hdefined : IsDefined defs name := isDefined_of_resolve hd
    have hfewer := card_unseen_cons_lt hdefined hnew
    have hnone : unseen defs (name :: seen) = ∅ := Finset.card_eq_zero.mp (by omega)
    exact growBranches_of_all_seen (unseen_eq_empty_iff.mp hnone) _
  | succ below ih =>
    refine growTree_congr fun d hd hnew => ?_
    have hdefined : IsDefined defs name := isDefined_of_resolve hd
    have hfewer := card_unseen_cons_lt hdefined hnew
    refine growBranches_congr _ (fun seen' callee hsub => ih ?_ callee)
      (subset_growTree_seen defs below)
    have hless := Finset.card_le_card (unseen_anti defs hsub)
    omega

/-- A defined callee has been seen when the branches are done. -/
theorem mem_seen_of_mem_callees {defs : List Definition} {below : Nat} {seen callees : List String}
    {callee : String} (hmem : callee ∈ callees) (hdefined : IsDefined defs callee) :
    callee ∈ (growBranches (growTree defs below) seen callees).2 := by
  obtain ⟨done, rest, rfl⟩ := List.append_of_mem hmem
  rw [growBranches_append, growBranches_cons, growBranches_seen (growTree_seen defs below) _ rest]
  refine List.mem_append_right _ ?_
  obtain ⟨d, hd⟩ := hdefined.exists_resolve
  generalize (growBranches (growTree defs below) seen done).2 = seen'
  by_cases hseen : callee ∈ seen'
  · rwa [growTree_of_seen hseen]
  · rw [growTree_seen, growTree_of_new hd hseen]
    simp

/-! ## Reaching and being reached -/

/-- Every name of a grown tree can be reached from its root. -/
theorem reachable_of_mem_names {defs : List Definition} {below : Nat} {seen : List String}
    {name other : String} {t : CallTree} (ht : (growTree defs below seen name).1 = some t)
    (hother : other ∈ t.names) : Relation.ReflTransGen (Step defs) name other := by
  induction below generalizing seen name t with
  | zero =>
    obtain ⟨d, -, -, rfl⟩ := growTree_eq_some ht
    obtain rfl : other = name := by simpa [growBelow] using hother
    exact Relation.ReflTransGen.refl
  | succ below ih =>
    obtain ⟨d, hd, -, rfl⟩ := growTree_eq_some ht
    rw [names_node, List.mem_cons, mem_namesBelow] at hother
    rcases hother with rfl | ⟨b, hb, hother⟩
    · exact Relation.ReflTransGen.refl
    · obtain ⟨seen', hgrown⟩ := exists_grown_of_mem_growBranches hb
      have hbelow : b ∈ (growBelow defs (below + 1) (name :: seen) d).1 := hb
      have hstep : Step defs name b.1 := step_of_mem_growBelow hd hbelow
      exact Relation.ReflTransGen.head hstep (ih hgrown hother)

namespace CallForest

variable {defs : List Definition} {maxDepth maxEntries : Nat}

/-- A level more than there are defined names gives the same forest. -/
theorem grow_add_level (h : (definedNames defs).card ≤ maxDepth) :
    grow defs ⟨maxDepth + 1, maxEntries⟩ = grow defs ⟨maxDepth, maxEntries⟩ := by
  cases maxDepth with
  | zero => rfl
  | succ below =>
    have htrees : growBranches (growTree defs (below + 1)) [] ((entryPoints defs).take maxEntries) =
        growBranches (growTree defs below) [] ((entryPoints defs).take maxEntries) := by
      refine growBranches_congr _ (fun seen name _ => growTree_add_level ?_ name)
        (subset_growTree_seen defs below)
      exact (Finset.card_le_card Finset.sdiff_subset).trans h
    simp only [grow, Nat.add_sub_cancel, growTrees_eq, htrees]

/-- All level limits from the number of defined names on give the same forest. -/
theorem grow_of_card_le (h : (definedNames defs).card ≤ maxDepth) :
    grow defs ⟨maxDepth, maxEntries⟩ = grow defs ⟨(definedNames defs).card, maxEntries⟩ := by
  induction maxDepth, h using Nat.le_induction with
  | base => rfl
  | succ maxDepth h ih => rw [grow_add_level h, ih]

/-- Every name of the forest can be reached from an entry point that gets a tree. -/
theorem exists_entry_of_mem_names {limits : ForestLimits} {name : String}
    (h : name ∈ (grow defs limits).names) :
    ∃ entry ∈ (entryPoints defs).take limits.maxEntries,
      Relation.ReflTransGen (Step defs) entry name := by
  rw [names_grow, mem_namesBelow] at h
  obtain ⟨b, hb, hname⟩ := h
  obtain ⟨seen, hgrown⟩ := exists_grown_of_mem_growBranches hb
  exact ⟨b.1, mem_callees_of_mem_growBranches hb, reachable_of_mem_names hgrown hname⟩

/-- The entry points within the cap stand in the forest. -/
theorem mem_names_of_mem_take {limits : ForestLimits} {entry : String}
    (h : entry ∈ (entryPoints defs).take limits.maxEntries) :
    entry ∈ (grow defs limits).names := by
  have hdefined := isDefined_of_mem_entryPoints (List.mem_of_mem_take h)
  have hseen : entry ∈ (growBranches (growTree defs (limits.maxDepth - 1)) []
      ((entryPoints defs).take limits.maxEntries)).2 := mem_seen_of_mem_callees h hdefined
  rw [growBranches_seen (growTree_seen defs _), List.append_nil, List.mem_reverse] at hseen
  rwa [names_grow]

/-- The forest holds all that a name leads to that stands above the last level. -/
theorem mem_names_of_room {limits : ForestLimits} {place : Nat × String × CallTree}
    (hplace : place ∈ (grow defs limits).outline) (hroom : place.1 + 1 < limits.maxDepth)
    {callee : String} (hstep : Step defs place.2.2.name callee) :
    callee ∈ (grow defs limits).names := by
  obtain ⟨level, key, n⟩ := place
  obtain ⟨before, after, hsplit⟩ := List.append_of_mem hplace
  obtain ⟨d, below, hd, hlevels, hbranches⟩ := branches_of_outline hsplit
  have hlevel : level + 1 < limits.maxDepth := hroom
  obtain ⟨left, rfl⟩ : ∃ left, below = left + 1 := ⟨below - 1, by omega⟩
  obtain ⟨e, he, hname, hcalled, hdefined⟩ := hstep
  obtain rfl : e = d := Option.some.inj ((resolve_eq_some_iff.mpr ⟨he, hname⟩).symm.trans hd)
  have hseen : callee ∈ (growBranches (growTree defs left) (n.name :: namesBack before)
      e.calls.toList).2 := mem_seen_of_mem_callees hcalled hdefined
  rw [growBranches_seen (growTree_seen defs left), List.mem_append, List.mem_reverse,
    List.mem_cons] at hseen
  refine mem_names_of_outline hsplit ?_
  rw [n.names_eq, List.mem_cons, hbranches]
  rcases hseen with hbelow | rfl | hbefore
  · exact Or.inl (Or.inr hbelow)
  · exact Or.inl (Or.inl rfl)
  · exact Or.inr hbefore

/-- Every name of a forest has a place in its outline. -/
theorem exists_place_of_mem_names {forest : CallForest} {name : String} (h : name ∈ forest.names) :
    ∃ place ∈ forest.outline, place.2.2.name = name := by
  obtain ⟨n, hn, rfl⟩ := List.mem_map.mp h
  rw [← map_outline] at hn
  obtain ⟨place, hplace, rfl⟩ := List.mem_map.mp hn
  exact ⟨place, hplace, rfl⟩

/-- No place is deeper than the limit allows. -/
theorem level_le_of_mem_outline {limits : ForestLimits} {place : Nat × String × CallTree}
    (h : place ∈ (grow defs limits).outline) : place.1 ≤ limits.maxDepth - 1 := by
  obtain ⟨level, key, n⟩ := place
  obtain ⟨before, after, hsplit⟩ := List.append_of_mem h
  obtain ⟨-, below, -, hlevels, -⟩ := branches_of_outline hsplit
  exact Nat.le.intro ((Nat.add_comm level below).trans hlevels)

/-- With levels enough for all defined names, the forest holds with a name all that it leads
to. -/
theorem mem_names_of_step (h : (definedNames defs).card ≤ maxDepth) {caller callee : String}
    (hcaller : caller ∈ (grow defs ⟨maxDepth, maxEntries⟩).names)
    (hstep : Step defs caller callee) :
    callee ∈ (grow defs ⟨maxDepth, maxEntries⟩).names := by
  obtain ⟨place, hplace, rfl⟩ := exists_place_of_mem_names hcaller
  have hlevel : place.1 ≤ maxDepth - 1 := level_le_of_mem_outline hplace
  have hpos : 0 < (definedNames defs).card := by
    obtain ⟨d, hlast, hname, -⟩ := hstep
    exact Finset.card_pos.mpr ⟨_, mem_definedNames.mpr (hname ▸ hlast.isDefined)⟩
  -- Grown with one more level, the forest is the same and the node has room below it.
  rw [← grow_add_level h] at hplace ⊢
  refine mem_names_of_room hplace ?_ hstep
  change place.1 + 1 < maxDepth + 1
  omega

/-- With at least as many levels as there are defined names, the forest holds exactly the names that
can be reached from the entry points that get a tree, and it is the same for all such limits. -/
theorem grow_covers_exactly_reachable (defs : List Definition) (maxEntries : Nat) {maxDepth : Nat}
    (h : (definedNames defs).card ≤ maxDepth) :
    (∀ name, name ∈ (grow defs ⟨maxDepth, maxEntries⟩).nodes.map (·.name) ↔
        ∃ entry ∈ (entryPoints defs).take maxEntries,
          Relation.ReflTransGen (Step defs) entry name) ∧
      grow defs ⟨maxDepth, maxEntries⟩ = grow defs ⟨(definedNames defs).card, maxEntries⟩ := by
  refine ⟨fun name => ⟨exists_entry_of_mem_names, ?_⟩, grow_of_card_le h⟩
  rintro ⟨entry, hentry, hreach⟩
  induction hreach with
  | refl => exact mem_names_of_mem_take hentry
  | tail _ hstep ih => exact mem_names_of_step h ih hstep

/-- A program with a cycle below its entry point, and another that no entry point leads to. -/
def cycleBelowEntry : List Definition :=
  [⟨"main", "m.js", 1, .declaration, .ofList ["ping"]⟩,
   ⟨"ping", "m.js", 2, .declaration, .ofList ["pong"]⟩,
   ⟨"pong", "m.js", 3, .declaration, .ofList ["ping", "print"]⟩,
   ⟨"lost", "n.js", 1, .declaration, .ofList ["found"]⟩,
   ⟨"found", "n.js", 2, .declaration, .ofList ["lost"]⟩]

/-- The forest goes around the cycle once and stays off the other one, with five levels as with
seven. -/
theorem reach_of_cycle_below_entry :
    (definedNames cycleBelowEntry).card ≤ 7 ∧
      (grow cycleBelowEntry ⟨7, 10⟩).names = ["main", "ping", "pong"] ∧
      (∀ name, name ∈ (grow cycleBelowEntry ⟨7, 10⟩).nodes.map (·.name) ↔
        ∃ entry ∈ (entryPoints cycleBelowEntry).take 10,
          Relation.ReflTransGen (Step cycleBelowEntry) entry name) ∧
      grow cycleBelowEntry ⟨7, 10⟩ =
        grow cycleBelowEntry ⟨(definedNames cycleBelowEntry).card, 10⟩ :=
  ⟨by decide, rfl, grow_covers_exactly_reachable cycleBelowEntry 10 (by decide)⟩

end CallForest

end CallAtlas
