import CallAtlas.Proofs.EntryTrees
import CallAtlas.Proofs.ForestNames
import CallAtlas.Proofs.TreeEdges

/-!
# What the level limit hides

A name that is first visited at the last level gets no branches, and it gets none later either, when
a shorter chain of calls leads to it again.  So the limit may hide a name that a short chain leads
to, and a larger limit may hide names that a smaller one shows.

The main statement, `limit_hides_only_behind_last_level`, says that this is the only way in which a
name can be hidden.  The forest holds exactly the names at the ends of those chains from the entry
points that stay above the last level until their end: such a chain is followed to its end
(`mem_names_or_atLastLevel`), and the way down to a node of the forest is one
(`exists_chain_of_mem_names`).
-/

set_option autoImplicit false

namespace CallAtlas

open CallTree

/-- A chain of calls from one name to another, with the names before the last. -/
inductive CallChain (defs : List Definition) : String → List String → String → Prop
  /-- A name is a chain without calls. -/
  | nil (name : String) : CallChain defs name [] name
  /-- A call goes before a chain from the callee. -/
  | cons {caller callee name : String} {through : List String} :
    Step defs caller callee → CallChain defs callee through name →
      CallChain defs caller (caller :: through) name

/-- The places of the nodes above a place of a tree have smaller levels, and their names are a chain
of calls to its name, one for each level. -/
theorem CallTree.exists_chain_of_mem_outline {defs : List Definition} {t : CallTree}
    (hsteps : ∀ m n, (m, n) ∈ t.edges → Step defs m.name n.name) {level : Nat} {key : String}
    {place : Nat × String × CallTree} (h : place ∈ t.outline level key) :
    ∃ through, CallChain defs t.name through place.2.2.name ∧
      place.1 = level + through.length ∧
      ∀ name ∈ through, ∃ above ∈ t.outline level key,
        above.2.2.name = name ∧ above.1 < place.1 := by
  induction t using induct generalizing level key with
  | node name file branches ih =>
    rw [outline, outlineBelow_eq, List.mem_cons, List.mem_flatMap] at h
    rcases h with rfl | ⟨b, hb, h⟩
    · exact ⟨[], CallChain.nil name, rfl, by simp⟩
    · have hbranch : (node name file branches, b.2) ∈ (node name file branches).edges :=
        mem_edges_iff.mpr ⟨self_mem_preorder _, b.1, hb⟩
      have hedges : ∀ m n, (m, n) ∈ b.2.edges → Step defs m.name n.name := by
        intro m n hedge
        apply hsteps
        rw [edges_eq, List.mem_flatMap]
        exact ⟨b, hb, List.mem_cons_of_mem _ hedge⟩
      obtain ⟨through, hchain, hlevel, habove⟩ := ih b hb hedges h
      refine ⟨name :: through, CallChain.cons (hsteps _ _ hbranch) hchain, ?_, ?_⟩
      · rw [hlevel, List.length_cons]
        omega
      · intro other hother
        rw [outline, outlineBelow_eq]
        rcases List.mem_cons.mp hother with rfl | hother
        · exact ⟨_, List.mem_cons_self, rfl, by omega⟩
        · obtain ⟨above, hplace, hname, hlt⟩ := habove other hother
          exact ⟨above, List.mem_cons_of_mem _ (List.mem_flatMap.mpr ⟨b, hb, hplace⟩), hname, hlt⟩

namespace CallForest

/-- A name stands at the last level of a forest when its node has no level below it. -/
def AtLastLevel (forest : CallForest) (maxDepth : Nat) (name : String) : Prop :=
  ∃ place ∈ forest.outline, place.2.2.name = name ∧ maxDepth ≤ place.1 + 1

section Places

variable {defs : List Definition} {limits : ForestLimits}

/-- A name has one place. -/
theorem eq_of_mem_outline {place other : Nat × String × CallTree}
    (hplace : place ∈ (grow defs limits).outline) (hother : other ∈ (grow defs limits).outline)
    (hname : place.2.2.name = other.2.2.name) : place = other := by
  have hnames := nodup_names_grow defs limits
  rw [names, ← map_outline, List.map_map] at hnames
  exact List.inj_on_of_nodup_map hnames hplace hother hname

/-- The root of a tree stands in the outline at level 0. -/
theorem root_mem_outline {forest : CallForest} {t : CallTree} (ht : t ∈ forest.trees) :
    (0, t.name, t) ∈ forest.outline := by
  refine List.mem_flatMap.mpr ⟨t, ht, ?_⟩
  cases t
  exact List.mem_cons_self

/-- Every entry point within the cap is the root of a tree. -/
theorem exists_tree_of_mem_take {entry : String}
    (h : entry ∈ (entryPoints defs).take limits.maxEntries) :
    ∃ t ∈ (grow defs limits).trees, t.name = entry := by
  rw [← entryNames_grow] at h
  exact List.mem_map.mp h

/-- A chain from a name of the forest is followed to its end, unless it meets the last level before
that. -/
theorem mem_names_or_atLastLevel {first name : String} {through : List String}
    (hchain : CallChain defs first through name) (hfirst : first ∈ (grow defs limits).names) :
    name ∈ (grow defs limits).names ∨
      ∃ other ∈ through, (grow defs limits).AtLastLevel limits.maxDepth other := by
  induction hchain with
  | nil => exact Or.inl hfirst
  | cons hstep _ ih =>
    obtain ⟨place, hplace, rfl⟩ := exists_place_of_mem_names hfirst
    by_cases hroom : place.1 + 1 < limits.maxDepth
    · rcases ih (mem_names_of_room hplace hroom hstep) with hname | ⟨other, hother, hlast⟩
      · exact Or.inl hname
      · exact Or.inr ⟨other, List.mem_cons_of_mem _ hother, hlast⟩
    · exact Or.inr ⟨_, List.mem_cons_self, place, hplace, rfl, by omega⟩

/-- The names above a node of the forest are a chain of calls that stays above the last level. -/
theorem exists_chain_of_mem_names {name : String} (h : name ∈ (grow defs limits).names) :
    ∃ entry ∈ (entryPoints defs).take limits.maxEntries, ∃ through,
      CallChain defs entry through name ∧ through.length ≤ limits.maxDepth - 1 ∧
      ∀ other ∈ through, ¬(grow defs limits).AtLastLevel limits.maxDepth other := by
  obtain ⟨place, hplace, rfl⟩ := exists_place_of_mem_names h
  have hbound := level_le_of_mem_outline hplace
  obtain ⟨t, ht, hmem⟩ := List.mem_flatMap.mp hplace
  have hsteps : ∀ m n, (m, n) ∈ t.edges → Step defs m.name n.name := by
    intro m n hedge
    obtain ⟨hm, key, hbranch⟩ := mem_edges_iff.mp (List.mem_flatMap.mpr ⟨t, ht, hedge⟩)
    exact step_of_mem_branches hm hbranch
  obtain ⟨through, hchain, hlevel, habove⟩ := t.exists_chain_of_mem_outline hsteps hmem
  have hentry : t.name ∈ (entryPoints defs).take limits.maxEntries := by
    rw [← entryNames_grow]
    exact List.mem_map_of_mem ht
  refine ⟨t.name, hentry, through, hchain, by omega, ?_⟩
  rintro other hother ⟨last, hlast, hname, hdeep⟩
  obtain ⟨above, habove, hname', hlt⟩ := habove other hother
  have hsame : above = last :=
    eq_of_mem_outline (List.mem_flatMap.mpr ⟨t, ht, habove⟩) hlast (hname'.trans hname.symm)
  rw [hsame] at hlt
  omega

/-- A chain of at most one call from an entry point cannot meet the last level too early. -/
theorem mem_names_of_short_chain {entry name : String} {through : List String}
    (hentry : entry ∈ (entryPoints defs).take limits.maxEntries)
    (hchain : CallChain defs entry through name) (hone : through.length ≤ 1)
    (hdepth : through.length ≤ limits.maxDepth - 1) : name ∈ (grow defs limits).names := by
  rcases mem_names_or_atLastLevel hchain (mem_names_of_mem_take hentry) with hname | ⟨c, hc, hlast⟩
  · exact hname
  · obtain ⟨t, ht, rfl⟩ := exists_tree_of_mem_take hentry
    obtain ⟨place, hplace, hname, hdeep⟩ := hlast
    cases hchain with
    | nil => simp at hc
    | @cons _ _ _ rest _ _ =>
      rw [List.length_cons] at hone hdepth
      obtain rfl : rest = [] := List.length_eq_zero_iff.mp (by omega)
      obtain rfl := List.mem_singleton.mp hc
      have hroot := eq_of_mem_outline hplace (root_mem_outline ht) hname
      rw [hroot] at hdeep
      omega

end Places

/-- A name that a larger limit hides stands behind the last level of the larger forest on every
chain, and the smaller limit was more than two levels. -/
theorem mem_names_or_hidden {defs : List Definition} {maxDepth more maxEntries : Nat}
    {name : String}
    (hmore : maxDepth ≤ more) (h : name ∈ (grow defs ⟨maxDepth, maxEntries⟩).names) :
    name ∈ (grow defs ⟨more, maxEntries⟩).names ∨
      2 < maxDepth ∧ ∀ entry ∈ (entryPoints defs).take maxEntries, ∀ through,
        CallChain defs entry through name →
          ∃ other ∈ through, (grow defs ⟨more, maxEntries⟩).AtLastLevel more other := by
  by_cases hname : name ∈ (grow defs ⟨more, maxEntries⟩).names
  · exact Or.inl hname
  · refine Or.inr ⟨?_, ?_⟩
    · obtain ⟨entry, hentry, through, hchain, hlength, -⟩ := exists_chain_of_mem_names h
      by_contra htwo
      have hbound : through.length ≤ maxDepth - 1 := hlength
      refine hname (mem_names_of_short_chain hentry hchain (by omega) ?_)
      change through.length ≤ more - 1
      omega
    · intro entry hentry through hchain
      have hfirst : entry ∈ (grow defs ⟨more, maxEntries⟩).names := mem_names_of_mem_take hentry
      exact (mem_names_or_atLastLevel hchain hfirst).resolve_left hname

/-- **The level limit hides only what stands behind the last level.**  A chain of calls from an
entry point with a tree leads to a name of the forest unless a name before its end stands at the
last level.  Every name of the forest is at the end of a chain within the limit that meets no such
name, and a chain of at most one call cannot meet one.  So a larger limit removes a name only if on
every chain to it a name stands at the last level, and none if the smaller limit is at most two. -/
theorem limit_hides_only_behind_last_level (defs : List Definition) (limits : ForestLimits) :
    (∀ entry ∈ (entryPoints defs).take limits.maxEntries, ∀ through name,
      CallChain defs entry through name → name ∈ (grow defs limits).names ∨
        ∃ other ∈ through, (grow defs limits).AtLastLevel limits.maxDepth other) ∧
    (∀ name ∈ (grow defs limits).names, ∃ entry ∈ (entryPoints defs).take limits.maxEntries,
      ∃ through, CallChain defs entry through name ∧ through.length ≤ limits.maxDepth - 1 ∧
        ∀ other ∈ through, ¬(grow defs limits).AtLastLevel limits.maxDepth other) ∧
    (∀ entry ∈ (entryPoints defs).take limits.maxEntries, ∀ through name,
      CallChain defs entry through name → through.length ≤ 1 →
        through.length ≤ limits.maxDepth - 1 → name ∈ (grow defs limits).names) ∧
    (∀ more, limits.maxDepth ≤ more → ∀ name ∈ (grow defs limits).names,
      name ∈ (grow defs ⟨more, limits.maxEntries⟩).names ∨
        2 < limits.maxDepth ∧ ∀ entry ∈ (entryPoints defs).take limits.maxEntries, ∀ through,
          CallChain defs entry through name →
            ∃ other ∈ through, (grow defs ⟨more, limits.maxEntries⟩).AtLastLevel more other) :=
  ⟨fun _ hentry _ _ hchain => mem_names_or_atLastLevel hchain (mem_names_of_mem_take hentry),
    fun _ hname => exists_chain_of_mem_names hname,
    fun _ hentry _ _ hchain hone hdepth => mem_names_of_short_chain hentry hchain hone hdepth,
    fun _ hmore _ hname => mem_names_or_hidden hmore hname⟩

/-- A program in which a function is called directly and also by a longer way, which comes first. -/
def longWayRound : List Definition :=
  [⟨"main", "m.js", 1, .declaration, .ofList ["load", "render"]⟩,
   ⟨"load", "m.js", 2, .declaration, .ofList ["parse"]⟩,
   ⟨"parse", "m.js", 3, .declaration, .ofList ["render"]⟩,
   ⟨"render", "m.js", 4, .declaration, .ofList ["paint"]⟩,
   ⟨"paint", "m.js", 5, .declaration, .empty⟩]

/-- Two calls lead to the last function, and four levels do not show it, though three do. -/
theorem long_way_round_hides_callee :
    "main" ∈ (entryPoints longWayRound).take 10 ∧
      CallChain longWayRound "main" ["main", "render"] "paint" ∧
      ["main", "render"].length ≤ 4 - 1 ∧
      "paint" ∉ (grow longWayRound ⟨4, 10⟩).names ∧
      "paint" ∈ (grow longWayRound ⟨3, 10⟩).names := by
  have hmain : Step longWayRound "main" "render" := by
    refine ⟨longWayRound[0], ⟨[], _, rfl, by decide⟩, rfl, by decide, longWayRound[3], ?_, rfl⟩
    exact List.getElem_mem _
  have hrender : Step longWayRound "render" "paint" := by
    refine ⟨longWayRound[3], ⟨longWayRound.take 3, _, rfl, by decide⟩, rfl, by decide,
      longWayRound[4], ?_, rfl⟩
    exact List.getElem_mem _
  exact ⟨by decide, .cons hmain (.cons hrender (.nil "paint")), by decide, by decide, by decide⟩

end CallForest

end CallAtlas
