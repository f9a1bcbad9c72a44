import CallAtlas.CallForest
import CallAtlas.Proofs.Resolution
import CallAtlas.Proofs.TreeReadings

/-!
# How a forest grows

All trees of a forest are grown with one list of seen names.  That list is never a secret: it is
always what was seen before, with the names grown since in front, latest first
(`growTree_seen`, `growBranches_seen`).  So the state of the growth can be read off the finished
trees, and every node can be described by the nodes before it.

The main statement is `grown_of_outline`: a node of the forest is the very tree that grows from
its name once exactly the nodes before it have been seen, with as many levels below it as its own
level leaves.  What is to be shown of all nodes then follows from what a single growth yields,
which `growTree_of_new` and its companions say.
-/

set_option autoImplicit false

namespace CallAtlas

open CallTree

/-! ## Branches -/

section Branches

variable {growOne : List String → String → Option CallTree × List String}

/-- The branches for a first callee and more are the tree of the first, if it has one, and the
branches for the others. -/
theorem growBranches_cons (seen : List String) (callee : String) (callees : List String) :
    growBranches growOne seen (callee :: callees) =
      ((growOne seen callee).1.toList.map (callee, ·) ++
        (growBranches growOne (growOne seen callee).2 callees).1,
       (growBranches growOne (growOne seen callee).2 callees).2) := by
  rw [growBranches]
  rcases growOne seen callee with ⟨_ | t, seen⟩ <;> rfl

/-- The branches of more callees come after those of the first, and see what these have seen. -/
theorem growBranches_append (seen callees others : List String) :
    growBranches growOne seen (callees ++ others) =
      ((growBranches growOne seen callees).1 ++
        (growBranches growOne (growBranches growOne seen callees).2 others).1,
       (growBranches growOne (growBranches growOne seen callees).2 others).2) := by
  induction callees generalizing seen with
  | nil => rfl
  | cons callee callees ih => simp [growBranches_cons, ih]

/-- The keys of the branches are some of the callees, in their order. -/
theorem growBranches_keys_sublist (seen callees : List String) :
    ((growBranches growOne seen callees).1.map (·.1)).Sublist callees := by
  induction callees generalizing seen with
  | nil => simp [growBranches]
  | cons callee callees ih =>
    rw [growBranches_cons]
    cases (growOne seen callee).1 with
    | none => simpa using (ih (growOne seen callee).2).cons callee
    | some t => simpa using (ih (growOne seen callee).2).cons_cons callee

/-- The key of a branch is one of the callees. -/
theorem mem_callees_of_mem_growBranches {seen callees : List String} {b : String × CallTree}
    (h : b ∈ (growBranches growOne seen callees).1) : b.1 ∈ callees :=
  (growBranches_keys_sublist seen callees).subset (List.mem_map.mpr ⟨b, h, rfl⟩)

/-- A branch was grown for its key after the branches before it. -/
theorem growBranches_eq_append_cons {seen callees : List String} {key : String} {t : CallTree}
    {earlier later : List (String × CallTree)}
    (h : (growBranches growOne seen callees).1 = earlier ++ (key, t) :: later) :
    ∃ done rest, callees = done ++ key :: rest ∧ (growBranches growOne seen done).1 = earlier ∧
      (growOne (growBranches growOne seen done).2 key).1 = some t := by
  induction callees generalizing seen earlier with
  | nil => simp [growBranches] at h
  | cons callee callees ih =>
    rw [growBranches_cons] at h
    cases hgrown : (growOne seen callee).1 with
    | none =>
      obtain ⟨done, rest, rfl, hdone, ht⟩ := ih (by simpa [hgrown] using h)
      refine ⟨callee :: done, rest, rfl, ?_, ?_⟩
      · simpa [growBranches_cons, hgrown] using hdone
      · simpa [growBranches_cons] using ht
    | some u =>
      cases earlier with
      | nil =>
        simp only [hgrown, Option.toList_some, List.map_cons, List.map_nil, List.nil_append,
          List.singleton_append, List.cons.injEq, Prod.mk.injEq] at h
        obtain ⟨⟨rfl, rfl⟩, -⟩ := h
        exact ⟨[], callees, rfl, rfl, hgrown⟩
      | cons b earlier =>
        simp only [hgrown, Option.toList_some, List.map_cons, List.map_nil,
          List.cons_append, List.cons.injEq] at h
        obtain ⟨rfl, hrest⟩ := h
        obtain ⟨done, rest, rfl, hdone, ht⟩ := ih hrest
        refine ⟨callee :: done, rest, rfl, ?_, ?_⟩
        · simpa [growBranches_cons, hgrown] using hdone
        · simpa [growBranches_cons] using ht

/-- The tree of a branch has been grown from its key. -/
theorem exists_grown_of_mem_growBranches {seen callees : List String} {b : String × CallTree}
    (h : b ∈ (growBranches growOne seen callees).1) :
    ∃ seen', (growOne seen' b.1).1 = some b.2 := by
  obtain ⟨earlier, later, hsplit⟩ := List.append_of_mem h
  obtain ⟨done, -, -, -, ht⟩ := growBranches_eq_append_cons hsplit
  exact ⟨_, ht⟩

/-- If growing one tree adds its names to the names seen, so does growing branches. -/
theorem growBranches_seen
    (hone : ∀ seen name,
      (growOne seen name).2 = ((growOne seen name).1.toList.flatMap names).reverse ++ seen)
    (seen callees : List String) :
    (growBranches growOne seen callees).2 =
      (namesBelow (growBranches growOne seen callees).1).reverse ++ seen := by
  induction callees generalizing seen with
  | nil => rfl
  | cons callee callees ih =>
    rw [growBranches_cons, namesBelow_append, List.reverse_append, List.append_assoc, ih]
    congr 1
    rw [hone seen callee]
    cases (growOne seen callee).1 <;> simp

/-- If growing one tree sees no name twice, growing several does not. -/
theorem growBranches_nodup
    (hone : ∀ seen name, seen.Nodup → (growOne seen name).2.Nodup)
    {seen : List String} (callees : List String) (h : seen.Nodup) :
    (growBranches growOne seen callees).2.Nodup := by
  induction callees generalizing seen with
  | nil => exact h
  | cons callee callees ih =>
    rw [growBranches_cons]
    exact ih (hone seen callee h)

end Branches

/-! ## Trees -/

/-- Grows what stands below a definition, with at most `below` levels. -/
def growBelow (defs : List Definition) :
    Nat → List String → Definition → List (String × CallTree) × List String
  | 0, seen, _ => ([], seen)
  | below + 1, seen, d => growBranches (growTree defs below) seen d.calls.toList

/-- A name that is not defined grows nothing. -/
theorem growTree_of_undefined {defs : List Definition} {name : String}
    (h : resolve defs name = none) (below : Nat) (seen : List String) :
    growTree defs below seen name = (none, seen) := by
  unfold growTree
  rw [h]

/-- A name seen before grows nothing. -/
theorem growTree_of_seen {defs : List Definition} {seen : List String} {name : String}
    (h : name ∈ seen) (below : Nat) : growTree defs below seen name = (none, seen) := by
  unfold growTree
  cases hd : resolve defs name with
  | none => rfl
  | some d =>
    have hname : d.name = name := (resolve_eq_some_iff.mp hd).2
    simp [hname, h]

/-- A defined name that has not been seen gets a tree of its name and file, and below it what
grows there once the name itself has been seen. -/
theorem growTree_of_new {defs : List Definition} {seen : List String} {name : String}
    {d : Definition} (hd : resolve defs name = some d) (h : name ∉ seen) (below : Nat) :
    growTree defs below seen name =
      (some (.node name d.file (growBelow defs below (name :: seen) d).1),
       (growBelow defs below (name :: seen) d).2) := by
  have hname : d.name = name := (resolve_eq_some_iff.mp hd).2
  unfold growTree
  cases below <;> simp [hd, hname, h, growBelow]

/-- A name either gets no tree, and then nothing more has been seen, or it is defined and new and
gets the tree of `growTree_of_new`. -/
theorem growTree_cases (defs : List Definition) (below : Nat) (seen : List String)
    (name : String) :
    growTree defs below seen name = (none, seen) ∨
      ∃ d, resolve defs name = some d ∧ name ∉ seen ∧
        growTree defs below seen name =
          (some (.node name d.file (growBelow defs below (name :: seen) d).1),
           (growBelow defs below (name :: seen) d).2) := by
  cases hd : resolve defs name with
  | none => exact Or.inl (growTree_of_undefined hd below seen)
  | some d =>
    by_cases h : name ∈ seen
    · exact Or.inl (growTree_of_seen h below)
    · exact Or.inr ⟨d, rfl, h, growTree_of_new hd h below⟩

/-- The tree that a name gets is that of its definition, and the name was new. -/
theorem growTree_eq_some {defs : List Definition} {below : Nat} {seen : List String}
    {name : String} {t : CallTree} (ht : (growTree defs below seen name).1 = some t) :
    ∃ d, resolve defs name = some d ∧ name ∉ seen ∧
      t = .node name d.file (growBelow defs below (name :: seen) d).1 := by
  rcases growTree_cases defs below seen name with h | ⟨d, hd, hnew, h⟩
  · simp [h] at ht
  · exact ⟨d, hd, hnew, by simpa [h, eq_comm] using ht⟩

/-- The root of a tree has the name that it was grown from. -/
theorem name_of_growTree {defs : List Definition} {below : Nat} {seen : List String}
    {name : String} {t : CallTree} (ht : (growTree defs below seen name).1 = some t) :
    t.name = name := by
  obtain ⟨d, -, -, rfl⟩ := growTree_eq_some ht
  rfl

/-- What hangs below a name is called by its definition and defined. -/
theorem step_of_mem_growBelow {defs : List Definition} {below : Nat} {seen : List String}
    {name : String} {d : Definition} (hd : resolve defs name = some d) {b : String × CallTree}
    (h : b ∈ (growBelow defs below seen d).1) : Step defs name b.1 := by
  obtain ⟨hlast, hname⟩ := resolve_eq_some_iff.mp hd
  cases below with
  | zero => simp [growBelow] at h
  | succ below =>
    obtain ⟨seen', hgrown⟩ := exists_grown_of_mem_growBranches h
    obtain ⟨e, he, -⟩ := growTree_eq_some hgrown
    exact ⟨d, hlast, hname, mem_callees_of_mem_growBranches h, isDefined_of_resolve he⟩

/-- The names seen after a tree has grown are those of the tree, the latest first, and those seen
before. -/
theorem growTree_seen (defs : List Definition) (below : Nat) (seen : List String)
    (name : String) :
    (growTree defs below seen name).2 =
      ((growTree defs below seen name).1.toList.flatMap names).reverse ++ seen := by
  induction below generalizing seen name with
  | zero => rcases growTree_cases defs 0 seen name with h | ⟨d, -, -, h⟩ <;> simp [h, growBelow]
  | succ below ih =>
    rcases growTree_cases defs (below + 1) seen name with h | ⟨d, -, -, h⟩
    · simp [h]
    · simp [h, growBelow, growBranches_seen ih]

/-- Growing a tree sees no name twice. -/
theorem growTree_nodup (defs : List Definition) (below : Nat) (seen : List String)
    (name : String) (hseen : seen.Nodup) : (growTree defs below seen name).2.Nodup := by
  induction below generalizing seen name with
  | zero =>
    rcases growTree_cases defs 0 seen name with h | ⟨d, -, hnew, h⟩
    · rwa [h]
    · rw [h]
      exact List.nodup_cons.mpr ⟨hnew, hseen⟩
  | succ below ih =>
    rcases growTree_cases defs (below + 1) seen name with h | ⟨d, -, hnew, h⟩
    · rwa [h]
    · rw [h]
      exact growBranches_nodup ih _ (List.nodup_cons.mpr ⟨hnew, hseen⟩)

/-! ## Places of an outline -/

/-- The names of the nodes that an outline lists, the latest first. -/
def namesBack (outline : List (Nat × String × CallTree)) : List String :=
  (outline.map (·.2.2.name)).reverse

/-- A place of an outline is grown after `seen` when its tree is what its key grows into then,
with the levels below it that its own level leaves of `levels`. -/
def GrownAfter (defs : List Definition) (levels : Nat) (seen : List String)
    (place : Nat × String × CallTree) : Prop :=
  ∃ below, below + place.1 = levels ∧ (growTree defs below seen place.2.1).1 = some place.2.2

/-- If every place in a grown tree is grown after the places before it, so is every place in grown
branches. -/
theorem grownAfter_of_outlineBelow {defs : List Definition} {below : Nat}
    (htree : ∀ {seen key t level before place after},
      (growTree defs below seen key).1 = some t →
      t.outline level key = before ++ place :: after →
      GrownAfter defs (below + level) (namesBack before ++ seen) place)
    {seen callees : List String} {level : Nat} {before after : List (Nat × String × CallTree)}
    {place : Nat × String × CallTree}
    (h : outlineBelow level (growBranches (growTree defs below) seen callees).1 =
      before ++ place :: after) :
    GrownAfter defs (below + level) (namesBack before ++ seen) place := by
  rw [outlineBelow_eq] at h
  obtain ⟨earlier, ⟨key, t⟩, later, inside, rest, hbranches, hinside, rfl⟩ :=
    flatMap_eq_append_cons h
  obtain ⟨done, -, -, hdone, ht⟩ := growBranches_eq_append_cons hbranches
  -- The names seen before the branch are those of the branches before it.
  rw [growBranches_seen (growTree_seen defs below), hdone] at ht
  have hplace := htree ht hinside
  have hnames : namesBack (earlier.flatMap (fun b => b.2.outline level b.1) ++ inside) =
      namesBack inside ++ (namesBelow earlier).reverse := by
    rw [namesBack, List.map_append, ← outlineBelow_eq, map_outlineBelow_name,
      List.reverse_append, namesBack]
  rwa [hnames, List.append_assoc]

/-- Every place in a grown tree is grown after the places before it. -/
theorem grownAfter_of_outline {defs : List Definition} {below level : Nat} {seen : List String}
    {key : String} {t : CallTree} {before after : List (Nat × String × CallTree)}
    {place : Nat × String × CallTree} (ht : (growTree defs below seen key).1 = some t)
    (h : t.outline level key = before ++ place :: after) :
    GrownAfter defs (below + level) (namesBack before ++ seen) place := by
  induction below generalizing seen key t level before place after with
  | zero =>
    obtain ⟨d, -, -, rfl⟩ := growTree_eq_some ht
    rw [outline] at h
    cases before with
    | nil =>
      obtain ⟨rfl, -⟩ := List.cons.inj h
      exact ⟨0, rfl, ht⟩
    | cons root before => simp [growBelow, outlineBelow] at h
  | succ below ih =>
    obtain ⟨d, -, -, rfl⟩ := growTree_eq_some ht
    rw [outline] at h
    cases before with
    | nil =>
      obtain ⟨rfl, -⟩ := List.cons.inj h
      exact ⟨below + 1, rfl, ht⟩
    | cons root before =>
      obtain ⟨rfl, hbelow⟩ := List.cons.inj h
      obtain ⟨left, hleft, hplace⟩ := grownAfter_of_outlineBelow ih hbelow
      refine ⟨left, by omega, ?_⟩
      simpa [namesBack, CallTree.name] using hplace

/-! ## Forests -/

/-- Trees of entry points are grown as the branches of a node are. -/
theorem growTrees_eq (defs : List Definition) (below : Nat) (seen entries : List String) :
    growTrees defs below seen entries =
      (growBranches (growTree defs below) seen entries).1.map (·.2) := by
  induction entries generalizing seen with
  | nil => rfl
  | cons entry entries ih =>
    rw [growTrees, growBranches_cons]
    rcases growTree defs below seen entry with ⟨_ | t, seen'⟩ <;> simp [ih]

namespace CallForest

/-- The names of all nodes, tree by tree in preorder. -/
def names (forest : CallForest) : List String :=
  forest.nodes.map (·.name)

/-- The nodes with their levels and the keys they are held by, tree by tree in preorder; a root
is held by its own name. -/
def outline (forest : CallForest) : List (Nat × String × CallTree) :=
  forest.trees.flatMap fun t => t.outline 0 t.name

/-- The outline of a forest goes through its nodes. -/
theorem map_outline (forest : CallForest) : forest.outline.map (·.2.2) = forest.nodes := by
  rw [outline, List.map_flatMap, nodes]
  exact List.flatMap_congr fun t _ => CallTree.map_outline 0 t.name t

/-- What stands before a place of the outline, or in its tree, stands in the forest. -/
theorem mem_names_of_outline {forest : CallForest} {before after : List (Nat × String × CallTree)}
    {level : Nat} {key : String} {n : CallTree}
    (h : forest.outline = before ++ (level, key, n) :: after) {name : String}
    (hname : name ∈ n.names ∨ name ∈ namesBack before) : name ∈ forest.names := by
  rcases hname with hname | hname
  · have hn : n ∈ forest.nodes := by simp [← map_outline, h]
    obtain ⟨t, ht, hn⟩ := List.mem_flatMap.mp hn
    obtain ⟨m, hm, rfl⟩ := List.mem_map.mp hname
    exact List.mem_map.mpr ⟨m, List.mem_flatMap.mpr ⟨t, ht, preorder_trans hm hn⟩, rfl⟩
  · obtain ⟨place, hplace, rfl⟩ := List.mem_map.mp (List.mem_reverse.mp hname)
    refine List.mem_map.mpr ⟨place.2.2, ?_, rfl⟩
    rw [← map_outline, h]
    exact List.mem_map.mpr ⟨place, List.mem_append_left _ hplace, rfl⟩

/-- The size of a forest is the number of its nodes. -/
theorem length_nodes (forest : CallForest) : forest.nodes.length = forest.size := by
  rw [nodes, size]
  induction forest.trees with
  | nil => rfl
  | cons t trees ih => simp [ih, length_preorder]

/-- The branches that a forest is made of, keyed by the entry points. -/
def roots (defs : List Definition) (limits : ForestLimits) : List (String × CallTree) :=
  (growBranches (growTree defs (limits.maxDepth - 1)) []
    ((entryPoints defs).take limits.maxEntries)).1

/-- The trees of a grown forest are those of its roots. -/
theorem trees_grow (defs : List Definition) (limits : ForestLimits) :
    (grow defs limits).trees = (roots defs limits).map (·.2) :=
  growTrees_eq _ _ _ _

/-- A root has the name of its entry point. -/
theorem name_of_mem_roots {defs : List Definition} {limits : ForestLimits}
    {b : String × CallTree} (h : b ∈ roots defs limits) : b.2.name = b.1 := by
  obtain ⟨seen, ht⟩ := exists_grown_of_mem_growBranches h
  exact name_of_growTree ht

/-- The outline of a grown forest begins with its roots at level 0. -/
theorem outline_grow (defs : List Definition) (limits : ForestLimits) :
    (grow defs limits).outline = outlineBelow 0 (roots defs limits) := by
  rw [outline, trees_grow, List.flatMap_map, outlineBelow_eq]
  exact List.flatMap_congr fun b hb => by rw [name_of_mem_roots hb]

/-- The names of a grown forest are those of its roots and below them. -/
theorem names_grow (defs : List Definition) (limits : ForestLimits) :
    (grow defs limits).names = namesBelow (roots defs limits) := by
  rw [names, nodes, trees_grow, List.flatMap_map, List.map_flatMap, namesBelow]
  rfl

/-- Every place of the grown forest is grown after the places before it. -/
theorem grown_of_outline {defs : List Definition} {limits : ForestLimits}
    {before after : List (Nat × String × CallTree)} {place : Nat × String × CallTree}
    (h : (grow defs limits).outline = before ++ place :: after) :
    GrownAfter defs (limits.maxDepth - 1) (namesBack before) place := by
  rw [outline_grow] at h
  simpa using grownAfter_of_outlineBelow (fun ht hsplit => grownAfter_of_outline ht hsplit) h

/-- The branches of a node are what grows below the definition of its name, with the levels that
are left, once the node and those before it have been seen. -/
theorem branches_of_outline {defs : List Definition} {limits : ForestLimits}
    {before after : List (Nat × String × CallTree)} {level : Nat} {key : String} {n : CallTree}
    (h : (grow defs limits).outline = before ++ (level, key, n) :: after) :
    ∃ d below, resolve defs n.name = some d ∧ below + level = limits.maxDepth - 1 ∧
      n.branches = (growBelow defs below (n.name :: namesBack before) d).1 := by
  obtain ⟨below, hlevels, hgrown⟩ := grown_of_outline h
  obtain ⟨d, hd, -, hn⟩ := growTree_eq_some hgrown
  have hname : n.name = key := name_of_growTree hgrown
  refine ⟨d, below, by rw [hname]; exact hd, hlevels, ?_⟩
  rw [hname]
  exact congrArg CallTree.branches hn

/-- Every node of the grown forest was grown for its own name. -/
theorem exists_grown_of_mem_nodes {defs : List Definition} {limits : ForestLimits} {n : CallTree}
    (h : n ∈ (grow defs limits).nodes) :
    ∃ below seen, (growTree defs below seen n.name).1 = some n := by
  rw [← map_outline] at h
  obtain ⟨⟨level, key, m⟩, hplace, rfl⟩ := List.mem_map.mp h
  obtain ⟨before, after, hsplit⟩ := List.append_of_mem hplace
  obtain ⟨below, -, hgrown⟩ := grown_of_outline hsplit
  have hname : m.name = key := name_of_growTree hgrown
  exact ⟨below, namesBack before, by rw [hname]; exact hgrown⟩

/-- The names of the grown forest are distinct. -/
theorem nodup_names_grow (defs : List Definition) (limits : ForestLimits) :
    (grow defs limits).names.Nodup := by
  have hseen := growBranches_nodup (growTree_nodup defs (limits.maxDepth - 1))
    ((entryPoints defs).take limits.maxEntries) (List.nodup_nil (α := String))
  rw [growBranches_seen (growTree_seen defs _), List.append_nil, List.nodup_reverse] at hseen
  rw [names_grow]
  exact hseen

end CallForest

end CallAtlas
