import CallAtlas.Proofs.ForestGrowth

/-!
# The forest is a first-visit expansion

Which caller gets a shared callee depends on everything grown earlier.  The main statement,
`grow_is_first_visit_expansion`, says it node by node: at a level with room below, the branches
of a node are, in the order of names, exactly those defined names that its last definition calls
and that have not been met (`MetBefore`): they are not the node, do not stand before it in the
forest, and do not stand under a smaller branch of it.

The list of names seen when a callee comes up consists of just these names (`mem_seen_iff`); for
that the callees must come in increasing order, which a `NameSet` guarantees.
-/

set_option autoImplicit false

namespace CallAtlas

open CallTree

/-- A name has been met when the callee of that name comes up for a node: it is the node's own
name, or that of a node before it, or stands under a smaller branch of the node. -/
def MetBefore (before : List (Nat × String × CallTree)) (n : CallTree) (name : String) : Prop :=
  name = n.name ∨ (∃ m ∈ before, m.2.2.name = name) ∨
    ∃ b ∈ n.branches, b.1 < name ∧ ∃ m ∈ b.2.preorder, m.name = name

/-- The first-visit rule at a node: its branches come in the order of names, there are none at the
last level, and at any other level they are the callees of its definition that are defined and
have not been met. -/
structure FirstVisit (defs : List Definition) (limits : ForestLimits)
    (before : List (Nat × String × CallTree)) (level : Nat) (n : CallTree) (d : Definition) :
    Prop where
  /-- The keys of the branches increase. -/
  increasing : (n.branches.map (·.1)).Pairwise (· < ·)
  /-- There is nothing below the last level. -/
  leaf : limits.maxDepth ≤ level + 1 → n.branches = []
  /-- Above it, a name has a branch exactly when it is called, defined and new. -/
  branch_iff : level + 1 < limits.maxDepth → ∀ callee,
    (∃ b ∈ n.branches, b.1 = callee) ↔
      callee ∈ d.calls ∧ IsDefined defs callee ∧ ¬MetBefore before n callee

section Branches

variable {growOne : List String → String → Option CallTree × List String}

/-- If the callees come in increasing order, so do the keys of the branches. -/
theorem growBranches_increasing {callees : List String} (h : callees.Pairwise (· < ·))
    (seen : List String) :
    ((growBranches growOne seen callees).1.map (·.1)).Pairwise (· < ·) :=
  h.sublist (growBranches_keys_sublist seen callees)

/-- The branches for a list of callees are those for the callees before one of them, then the
branch of that one, if it has one, and then those for the callees after it. -/
theorem growBranches_split (seen done rest : List String) (callee : String) :
    (growBranches growOne seen (done ++ callee :: rest)).1 =
      (growBranches growOne seen done).1 ++
        ((growOne (growBranches growOne seen done).2 callee).1.toList.map (callee, ·) ++
          (growBranches growOne (growOne (growBranches growOne seen done).2 callee).2 rest).1) := by
  rw [growBranches_append, growBranches_cons]

/-- When the callees increase, the branches grown before one of them are those with smaller
keys. -/
theorem mem_growBranches_done_iff {seen done rest : List String} {callee : String}
    (h : (done ++ callee :: rest).Pairwise (· < ·)) {b : String × CallTree} :
    b ∈ (growBranches growOne seen done).1 ↔
      b ∈ (growBranches growOne seen (done ++ callee :: rest)).1 ∧ b.1 < callee := by
  rw [List.pairwise_append, List.pairwise_cons] at h
  obtain ⟨-, ⟨hrest, -⟩, hdone⟩ := h
  rw [growBranches_split, List.mem_append, List.mem_append]
  constructor
  · intro hb
    exact ⟨Or.inl hb, hdone _ (mem_callees_of_mem_growBranches hb) _ List.mem_cons_self⟩
  · rintro ⟨hb | hb | hb, hlt⟩
    · exact hb
    · obtain ⟨t, -, rfl⟩ := List.mem_map.mp hb
      exact absurd hlt (String.lt_irrefl callee)
    · have := hrest _ (mem_callees_of_mem_growBranches hb)
      exact absurd (String.lt_trans this hlt) (String.lt_irrefl callee)

end Branches

/-- When a callee comes up, the names seen are those seen before the branches and those that
stand under a smaller branch. -/
theorem mem_seen_iff {defs : List Definition} {below : Nat} {seen done rest : List String}
    {callee name : String} (h : (done ++ callee :: rest).Pairwise (· < ·)) :
    name ∈ (growBranches (growTree defs below) seen done).2 ↔
      name ∈ seen ∨
        ∃ b ∈ (growBranches (growTree defs below) seen (done ++ callee :: rest)).1,
          b.1 < callee ∧ name ∈ b.2.names := by
  rw [growBranches_seen (growTree_seen defs below), List.mem_append, List.mem_reverse,
    mem_namesBelow, or_comm]
  simp only [mem_growBranches_done_iff h, and_assoc]

/-- Where there is room below a definition, a name gets a branch exactly when the definition calls
it, it is defined, and it has neither been seen before nor grown under a smaller branch. -/
theorem exists_branch_iff {defs : List Definition} {below : Nat} {seen : List String}
    {d : Definition} {name : String} :
    (∃ b ∈ (growBelow defs (below + 1) seen d).1, b.1 = name) ↔
      name ∈ d.calls ∧ IsDefined defs name ∧
        ¬(name ∈ seen ∨
          ∃ b ∈ (growBelow defs (below + 1) seen d).1, b.1 < name ∧ name ∈ b.2.names) := by
  rw [growBelow]
  constructor
  · rintro ⟨⟨key, t⟩, hb, rfl⟩
    obtain ⟨earlier, later, hsplit⟩ := List.append_of_mem hb
    obtain ⟨done, rest, hcallees, -, ht⟩ := growBranches_eq_append_cons hsplit
    obtain ⟨e, he, hnew, -⟩ := growTree_eq_some ht
    obtain ⟨hlast, hname⟩ := resolve_eq_some_iff.mp he
    have hsorted : (done ++ key :: rest).Pairwise (· < ·) := hcallees ▸ d.calls.increasing
    rw [mem_seen_iff hsorted, ← hcallees] at hnew
    exact ⟨mem_callees_of_mem_growBranches hb, ⟨e, hlast.mem, hname⟩, hnew⟩
  · rintro ⟨hcalled, hdefined, hnew⟩
    obtain ⟨done, rest, hcallees⟩ := List.append_of_mem (show name ∈ d.calls.toList from hcalled)
    obtain ⟨e, he⟩ := hdefined.exists_resolve
    have hsorted : (done ++ name :: rest).Pairwise (· < ·) := hcallees ▸ d.calls.increasing
    rw [hcallees, ← mem_seen_iff hsorted] at hnew
    rw [hcallees, growBranches_split, growTree_of_new he hnew]
    exact ⟨_, List.mem_append_right _ (List.mem_append_left _ List.mem_cons_self), rfl⟩

/-- The keys of the branches of a node come in increasing order. -/
theorem growBelow_increasing (defs : List Definition) (below : Nat) (seen : List String)
    (d : Definition) : ((growBelow defs below seen d).1.map (·.1)).Pairwise (· < ·) := by
  cases below with
  | zero => exact List.Pairwise.nil
  | succ below => exact growBranches_increasing d.calls.increasing seen

/-- Met before are the names seen before the branches and those under a smaller branch. -/
theorem metBefore_iff {before : List (Nat × String × CallTree)} {n : CallTree} {name : String} :
    MetBefore before n name ↔
      name ∈ n.name :: namesBack before ∨ ∃ b ∈ n.branches, b.1 < name ∧ name ∈ b.2.names := by
  simp [MetBefore, namesBack, CallTree.names, or_assoc]

namespace CallForest

/-- Every node of the grown forest obeys the first-visit rule with the last definition of its
name. -/
theorem grow_is_first_visit_expansion {defs : List Definition} {limits : ForestLimits}
    {before after : List (Nat × String × CallTree)} {level : Nat} {key : String} {n : CallTree}
    (h : (grow defs limits).outline = before ++ (level, key, n) :: after) :
    ∃ d, IsLast defs d ∧ d.name = n.name ∧ FirstVisit defs limits before level n d := by
  obtain ⟨d, below, hd, hlevels, hbranches⟩ := branches_of_outline h
  obtain ⟨hlast, hname⟩ := resolve_eq_some_iff.mp hd
  refine ⟨d, hlast, hname, ?_, ?_, ?_⟩
  · rw [hbranches]
    exact growBelow_increasing defs below _ d
  · intro hdeep
    obtain rfl : below = 0 := by omega
    exact hbranches
  · intro hroom callee
    obtain ⟨left, rfl⟩ : ∃ left, below = left + 1 := ⟨below - 1, by omega⟩
    rw [metBefore_iff, hbranches]
    exact exists_branch_iff

/-- A function that calls two others, of which the first calls the second, which calls back; the
second is defined twice. -/
def sharedCallee : List Definition :=
  [⟨"main", "m.js", 1, .declaration, .ofList ["a", "b"]⟩,
   ⟨"a", "a.js", 1, .declaration, .ofList ["b", "print"]⟩,
   ⟨"b", "a.js", 2, .declaration, .empty⟩,
   ⟨"b", "b.js", 1, .declaration, .ofList ["a"]⟩]

/-- The shared callee hangs below the one that is visited first, so the root has one branch. -/
theorem first_visit_of_shared_callee :
    let b : CallTree := .node "b" "b.js" []
    let a : CallTree := .node "a" "a.js" [("b", b)]
    let main : CallTree := .node "main" "m.js" [("a", a)]
    (grow sharedCallee {}).outline = [] ++ (0, "main", main) :: [(1, "a", a), (2, "b", b)] ∧
      ∃ d, IsLast sharedCallee d ∧ d.name = "main" ∧ FirstVisit sharedCallee {} [] 0 main d := by
  intro b a main
  exact ⟨rfl, grow_is_first_visit_expansion (n := main) rfl⟩

end CallForest

end CallAtlas
