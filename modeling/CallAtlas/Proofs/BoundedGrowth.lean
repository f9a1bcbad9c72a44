import CallAtlas.Proofs.ForestNames
import CallAtlas.Proofs.TreeEdges

/-!
# Growth within bounds

The trees of a forest are grown by a recursion on the levels left below a root.  With a large limit
that is not what ends the growth: it ends because every name that gets a tree has been seen from
then on.  Here the same forest is grown once more, the way a machine does it.  Levels are counted
from the root down in words of 64 bits, with a count that can fail, and the recursion is on the
names not yet seen (`expand`, `expandAll`).

The main statement, `growth_stays_within_bounds`, says that the count never fails and that the
result is the forest (`growInWords_eq`), whatever limit a word can hold.  It also bounds the levels
of the trees by the limit and by the number of defined names.
-/

set_option autoImplicit false

namespace CallAtlas

open CallTree

/-! ## Growth in words -/

/-- The level below a level, unless 64 bits cannot hold it. -/
def nextLevel? (level : UInt64) : Option UInt64 :=
  if level.toNat + 1 < UInt64.size then some (level + 1) else none

/-- What has been grown and the names seen after it, among which are those seen before. -/
abbrev Grown (α : Type) (seen : List String) : Type :=
  { grown : α × List String // seen ⊆ grown.2 }

mutual

/-- Grows the tree of a name at a level, unless the name is not defined or has been seen. -/
def expand (defs : List Definition) (maxDepth level : UInt64) (seen : List String)
    (name : String) : Option (Grown (Option CallTree) seen) :=
  match hd : resolve defs name with
  | none => some ⟨(none, seen), List.Subset.refl seen⟩
  | some d =>
    if hseen : d.name ∈ seen then some ⟨(none, seen), List.Subset.refl seen⟩
    else
      have : (unseen defs (d.name :: seen)).card < (unseen defs seen).card :=
        card_unseen_cons_lt (resolve_eq_some_iff.mp hd).1.isDefined hseen
      (nextLevel? level).bind fun next =>
        if next < maxDepth then
          (expandAll defs maxDepth next (d.name :: seen) d.calls.toList).map fun below =>
            ⟨(some (.node d.name d.file below.1.1), below.1.2),
              List.Subset.trans (List.subset_cons_self d.name seen) below.2⟩
        else
          some ⟨(some (.node d.name d.file []), d.name :: seen), List.subset_cons_self d.name seen⟩
termination_by ((unseen defs seen).card, 0)
decreasing_by exact Prod.Lex.left _ _ this

/-- Grows the trees of some callees one after the other, all at one level. -/
def expandAll (defs : List Definition) (maxDepth level : UInt64) (seen : List String)
    (callees : List String) : Option (Grown (List (String × CallTree)) seen) :=
  match callees with
  | [] => some ⟨([], seen), List.Subset.refl seen⟩
  | callee :: callees =>
    (expand defs maxDepth level seen callee).bind fun first =>
      (expandAll defs maxDepth level first.1.2 callees).map fun rest =>
        ⟨(first.1.1.toList.map (callee, ·) ++ rest.1.1, rest.1.2),
          List.Subset.trans first.2 rest.2⟩
termination_by ((unseen defs seen).card, callees.length + 1)
decreasing_by
  · exact Prod.Lex.right _ (Nat.succ_pos _)
  · -- What the first callee has added leaves no more names unseen than there were.
    rcases Nat.lt_or_eq_of_le (Finset.card_le_card (unseen_anti defs first.2)) with hlt | heq
    · exact Prod.Lex.left _ _ hlt
    · rw [heq]
      exact Prod.Lex.right _ (Nat.lt_succ_self _)

end

/-- Grows what stands below a definition, if the level below it is within the limit. -/
def expandBelow (defs : List Definition) (maxDepth level : UInt64) (seen : List String)
    (d : Definition) : Option (List (String × CallTree) × List String) :=
  if level < maxDepth then
    (expandAll defs maxDepth level seen d.calls.toList).map (·.1)
  else some ([], seen)

/-- The forest of the first entry points of a program, or nothing if a level was too large to
count. -/
def growInWords (defs : List Definition) (maxDepth : UInt64) (maxEntries : Nat) :
    Option CallForest :=
  (expandAll defs maxDepth 0 [] ((entryPoints defs).take maxEntries)).map fun grown =>
    ⟨grown.1.1.map (·.2)⟩

/-! ## The count never fails -/

/-- The level below is one more, as long as the number does not overflow. -/
theorem nextLevel?_eq_some_iff {level next : UInt64} :
    nextLevel? level = some next ↔ next.toNat = level.toNat + 1 := by
  have hnext : next.toNat < UInt64.size := next.toNat_lt
  unfold nextLevel?
  split
  · next hlt =>
    have hsucc : (level + 1).toNat = level.toNat + 1 := Nat.mod_eq_of_lt hlt
    rw [Option.some.injEq, ← UInt64.toNat_inj, hsucc]
    exact eq_comm
  · next hge =>
    simp only [reduceCtorEq, false_iff]
    omega

/-- Below a word there is always a next level. -/
theorem exists_nextLevel {level limit : UInt64} (h : level.toNat ≤ limit.toNat - 1) :
    ∃ next, nextLevel? level = some next ∧ next.toNat = level.toNat + 1 := by
  have hlimit : limit.toNat < UInt64.size := limit.toNat_lt
  have hsize : UInt64.size = 2 ^ 64 := rfl
  have hlt : level.toNat + 1 < UInt64.size := by omega
  have hsucc : (level + 1).toNat = level.toNat + 1 := Nat.mod_eq_of_lt hlt
  exact ⟨level + 1, nextLevel?_eq_some_iff.mpr hsucc, hsucc⟩

/-- A call either returns at once, or leaves strictly fewer names unseen to the calls it makes. -/
theorem expand_cases (defs : List Definition) (maxDepth level : UInt64) (seen : List String)
    (name : String) :
    (resolve defs name = none ∨ name ∈ seen) ∧
        (expand defs maxDepth level seen name).map (·.1) = some (none, seen) ∨
      unseen defs (name :: seen) ⊂ unseen defs seen ∧ ∃ d, resolve defs name = some d ∧
        name ∉ seen ∧ (expand defs maxDepth level seen name).map (·.1) =
          (nextLevel? level).bind fun next =>
            (expandBelow defs maxDepth next (name :: seen) d).map fun below =>
              (some (.node name d.file below.1), below.2) := by
  rw [expand]
  split
  · next hd => exact Or.inl ⟨Or.inl hd, rfl⟩
  · next d hd =>
    obtain ⟨hlast, rfl⟩ := resolve_eq_some_iff.mp hd
    split
    · next hseen => exact Or.inl ⟨Or.inr hseen, rfl⟩
    · next hseen =>
      refine Or.inr ⟨?_, d, hd, hseen, ?_⟩
      · refine ⟨unseen_anti defs (List.subset_cons_self d.name seen), fun hsub => ?_⟩
        have hless := card_unseen_cons_lt hlast.isDefined hseen
        exact absurd (Finset.card_le_card hsub) (Nat.not_le_of_lt hless)
      · rw [Option.map_bind]
        congr 1
        funext next
        rw [Function.comp_apply, expandBelow]
        split
        · rw [Option.map_map, Option.map_map]
          rfl
        · rfl

section Counted

variable {defs : List Definition} {maxDepth : UInt64}

/-- If every callee gets the tree that it gets with `below` levels left, the callees get the
branches. -/
theorem expandAll_eq {level : UInt64} {below : Nat}
    (hone : ∀ seen name,
      (expand defs maxDepth level seen name).map (·.1) = some (growTree defs below seen name))
    (seen callees : List String) :
    (expandAll defs maxDepth level seen callees).map (·.1) =
      some (growBranches (growTree defs below) seen callees) := by
  induction callees generalizing seen with
  | nil =>
    rw [expandAll]
    rfl
  | cons callee callees ih =>
    obtain ⟨first, hfirst, heq⟩ := Option.map_eq_some_iff.mp (hone seen callee)
    obtain ⟨rest, hrest, heq'⟩ := Option.map_eq_some_iff.mp (ih first.1.2)
    rw [expandAll, hfirst, Option.bind_some, hrest, growBranches_cons, ← heq, ← heq']
    rfl

/-- If what stands below a definition is the same, the count does not fail and a name gets the same
tree. -/
theorem expand_eq_of_below {level next : UInt64} {below : Nat}
    (hnext : nextLevel? level = some next)
    (hbelow : ∀ seen d, expandBelow defs maxDepth next seen d = some (growBelow defs below seen d))
    (seen : List String) (name : String) :
    (expand defs maxDepth level seen name).map (·.1) = some (growTree defs below seen name) := by
  rcases expand_cases defs maxDepth level seen name with
    ⟨hnone | hseen, hexpand⟩ | ⟨-, d, hd, hnew, hexpand⟩
  · rw [hexpand, growTree_of_undefined hnone]
  · rw [hexpand, growTree_of_seen hseen]
  · rw [hexpand, hnext, Option.bind_some, hbelow, growTree_of_new hd hnew]
    rfl

/-- A level counted from the root and the levels left below it make up the limit, and so the trees
are the same. -/
theorem expand_eq {below : Nat} {level : UInt64} (h : below + level.toNat = maxDepth.toNat - 1)
    (seen : List String) (name : String) :
    (expand defs maxDepth level seen name).map (·.1) = some (growTree defs below seen name) := by
  have hlevel : level.toNat ≤ maxDepth.toNat - 1 := by omega
  obtain ⟨next, hnext, hcount⟩ := exists_nextLevel hlevel
  induction below generalizing level seen name next with
  | zero =>
    refine expand_eq_of_below hnext (fun seen d => ?_) seen name
    have hlast : ¬next < maxDepth := by
      rw [UInt64.lt_iff_toNat_lt]
      omega
    rw [expandBelow, if_neg hlast, growBelow]
  | succ below ih =>
    refine expand_eq_of_below hnext (fun seen d => ?_) seen name
    have hroom : next < maxDepth := by
      rw [UInt64.lt_iff_toNat_lt]
      omega
    rw [expandBelow, if_pos hroom, growBelow]
    refine expandAll_eq (fun seen name => ?_) seen d.calls.toList
    have hmore : next.toNat ≤ maxDepth.toNat - 1 := by omega
    obtain ⟨further, hfurther, hcount'⟩ := exists_nextLevel hmore
    exact ih (by omega) seen name hmore further hfurther hcount'

/-- Whatever limit a word can hold, the count does not fail and the forest is the same. -/
theorem growInWords_eq (defs : List Definition) (maxDepth : UInt64) (maxEntries : Nat) :
    growInWords defs maxDepth maxEntries =
      some (CallForest.grow defs ⟨maxDepth.toNat, maxEntries⟩) := by
  have hroots : (expandAll defs maxDepth 0 [] ((entryPoints defs).take maxEntries)).map (·.1) =
      some (growBranches (growTree defs (maxDepth.toNat - 1)) []
        ((entryPoints defs).take maxEntries)) := by
    refine expandAll_eq (expand_eq ?_) _ _
    rfl
  obtain ⟨grown, hgrown, heq⟩ := Option.map_eq_some_iff.mp hroots
  rw [growInWords, hgrown, CallForest.grow, growTrees_eq, ← heq]
  rfl

end Counted

/-! ## Levels of the trees -/

/-- A tree has at most the levels that may stand below its root, and the root's level. -/
theorem depth_growTree_le {defs : List Definition} {below : Nat} {seen : List String}
    {name : String} {t : CallTree} (ht : (growTree defs below seen name).1 = some t) :
    t.depth ≤ below + 1 := by
  induction below generalizing seen name t with
  | zero =>
    obtain ⟨d, -, -, rfl⟩ := growTree_eq_some ht
    simp [growBelow, depth, depthBelow]
  | succ below ih =>
    obtain ⟨d, -, -, rfl⟩ := growTree_eq_some ht
    have hbelow :
        depthBelow (growBelow defs (below + 1) (name :: seen) d).1 ≤ below + 1 := by
      refine depthBelow_le_iff.mpr fun b hb => ?_
      obtain ⟨seen', hgrown⟩ := exists_grown_of_mem_growBranches hb
      exact ih hgrown
    rw [depth]
    omega

namespace CallForest

/-- No tree has more nodes than the forest. -/
theorem size_le_of_mem_trees {forest : CallForest} {t : CallTree} (ht : t ∈ forest.trees) :
    t.size ≤ forest.size := by
  rw [← length_preorder, ← length_nodes]
  exact (sublist_flatMap_of_mem (·.preorder) ht).length_le

/-- A tree of the grown forest was grown with all the levels that the limit leaves below a root. -/
theorem exists_grown_of_mem_trees {defs : List Definition} {limits : ForestLimits} {t : CallTree}
    (ht : t ∈ (grow defs limits).trees) :
    ∃ seen name, (growTree defs (limits.maxDepth - 1) seen name).1 = some t := by
  rw [trees_grow] at ht
  obtain ⟨b, hb, rfl⟩ := List.mem_map.mp ht
  obtain ⟨seen, hgrown⟩ := exists_grown_of_mem_growBranches hb
  exact ⟨seen, b.1, hgrown⟩

/-- A tree has at most as many levels as the depth limit allows, and always the first. -/
theorem depth_le_maxDepth {defs : List Definition} {limits : ForestLimits} {t : CallTree}
    (ht : t ∈ (grow defs limits).trees) : t.depth ≤ max 1 limits.maxDepth := by
  obtain ⟨seen, name, hgrown⟩ := exists_grown_of_mem_trees ht
  have := depth_growTree_le hgrown
  omega

/-- A tree has at most as many levels as there are defined names. -/
theorem depth_le_card {defs : List Definition} {limits : ForestLimits} {t : CallTree}
    (ht : t ∈ (grow defs limits).trees) : t.depth ≤ (definedNames defs).card :=
  calc
    t.depth ≤ t.size := t.depth_le_size
    _ ≤ (grow defs limits).size := size_le_of_mem_trees ht
    _ ≤ (definedNames defs).card := size_grow_le defs limits

/-- With one level the nodes are the roots, and nothing hangs below them. -/
theorem childless_of_one_level {defs : List Definition} {maxEntries : Nat} {n : CallTree}
    (hn : n ∈ (grow defs ⟨1, maxEntries⟩).nodes) :
    n ∈ (grow defs ⟨1, maxEntries⟩).trees ∧ n.branches = [] := by
  obtain ⟨t, ht, hn⟩ := List.mem_flatMap.mp hn
  obtain ⟨seen, name, hgrown⟩ := exists_grown_of_mem_trees ht
  obtain ⟨d, -, -, rfl⟩ := growTree_eq_some hgrown
  obtain rfl : n = _ := List.mem_singleton.mp hn
  exact ⟨ht, rfl⟩

end CallForest

/-- Growing a forest stays within its bounds, whatever the definitions call.  A call returns at once
or leaves strictly fewer names unseen to the calls it makes; no level is too large to count in 64
bits, and so the growth in words yields the forest.  A tree has at most as many levels as the limit
says, of which the root's always exists, and at most as many as there are defined names.  The limits
0 and 1 yield the same forest, whose nodes are roots without branches. -/
theorem growth_stays_within_bounds (defs : List Definition) (maxDepth : UInt64)
    (maxEntries : Nat) :
    (∀ (level : UInt64) (seen : List String) (name : String),
      (resolve defs name = none ∨ name ∈ seen) ∧
          (expand defs maxDepth level seen name).map (·.1) = some (none, seen) ∨
        unseen defs (name :: seen) ⊂ unseen defs seen ∧ ∃ d, resolve defs name = some d ∧
          name ∉ seen ∧ (expand defs maxDepth level seen name).map (·.1) =
            (nextLevel? level).bind fun next =>
              (expandBelow defs maxDepth next (name :: seen) d).map fun below =>
                (some (.node name d.file below.1), below.2)) ∧
      growInWords defs maxDepth maxEntries =
        some (CallForest.grow defs ⟨maxDepth.toNat, maxEntries⟩) ∧
      (∀ t ∈ (CallForest.grow defs ⟨maxDepth.toNat, maxEntries⟩).trees,
        t.depth ≤ max 1 maxDepth.toNat ∧ t.depth ≤ (definedNames defs).card) ∧
      CallForest.grow defs ⟨0, maxEntries⟩ = CallForest.grow defs ⟨1, maxEntries⟩ ∧
      ∀ n ∈ (CallForest.grow defs ⟨1, maxEntries⟩).nodes,
        n ∈ (CallForest.grow defs ⟨1, maxEntries⟩).trees ∧ n.branches = [] :=
  ⟨expand_cases defs maxDepth, growInWords_eq defs maxDepth maxEntries,
    fun _ ht => ⟨CallForest.depth_le_maxDepth ht, CallForest.depth_le_card ht⟩, rfl,
    fun _ hn => CallForest.childless_of_one_level hn⟩

end CallAtlas
