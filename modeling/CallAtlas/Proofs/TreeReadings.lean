import CallAtlas.CallTree
import Mathlib.Data.List.Basic

/-!
# Readings of a call tree

A call tree is read in several ways: as the list of its nodes in preorder, as that list with
levels and keys, as a number of nodes.  Each reading is a recursion over branches; here it becomes
an equation over the list of branches, so that proofs about a tree need one induction
(`CallTree.induct`) and no second one over branches.

`flatMap_eq_append_cons` finds the branch that holds a given place of a reading.
-/

set_option autoImplicit false

namespace CallAtlas

/-- A place in a concatenation lies in one of the parts, after the parts before it. -/
theorem flatMap_eq_append_cons {α β : Type} {f : α → List β} {xs : List α} {before after : List β}
    {y : β} (h : xs.flatMap f = before ++ y :: after) :
    ∃ earlier x later inside rest, xs = earlier ++ x :: later ∧ f x = inside ++ y :: rest ∧
      before = earlier.flatMap f ++ inside := by
  induction xs generalizing before with
  | nil => simp at h
  | cons x xs ih =>
    rw [List.flatMap_cons, List.append_eq_append_iff] at h
    rcases h with ⟨mid, hbefore, hrest⟩ | ⟨mid, hx, hrest⟩
    · obtain ⟨earlier, x', later, inside, rest, rfl, hx', rfl⟩ := ih hrest
      exact ⟨x :: earlier, x', later, inside, rest, rfl, hx', by simp [hbefore]⟩
    · cases mid with
      | nil =>
        have hlater : xs.flatMap f = [] ++ y :: after := hrest.symm
        obtain ⟨earlier, x', later, inside, rest, rfl, hx', hempty⟩ := ih hlater
        refine ⟨x :: earlier, x', later, inside, rest, rfl, hx', ?_⟩
        simpa [← hempty] using hx.symm
      | cons z mid =>
        obtain ⟨rfl, -⟩ := List.cons.inj hrest
        exact ⟨[], x, xs, before, mid, rfl, hx, by simp⟩

namespace CallTree

/-- What holds of a node whenever it holds of all its branches holds of every tree. -/
theorem induct {P : CallTree → Prop}
    (node : ∀ name file branches, (∀ b ∈ branches, P b.2) → P (.node name file branches)) :
    ∀ t, P t
  | .node name file branches => node name file branches fun b _ => induct node b.2
decreasing_by
  have hmem : sizeOf b < sizeOf branches := List.sizeOf_lt_of_mem ‹b ∈ branches›
  have hsnd : sizeOf b.2 < sizeOf b := by
    obtain ⟨key, t⟩ := b
    change sizeOf t < sizeOf (key, t)
    rw [Prod.mk.sizeOf_spec]
    omega
  rw [CallTree.node.sizeOf_spec]
  omega

/-- The names of the nodes in preorder. -/
def names (t : CallTree) : List String :=
  t.preorder.map (·.name)

/-- The names of the nodes of all branches, in the same order. -/
def namesBelow (branches : List (String × CallTree)) : List String :=
  branches.flatMap (·.2.names)

/-- The nodes below some branches are those of each of them in preorder. -/
theorem preorderBelow_eq (branches : List (String × CallTree)) :
    preorderBelow branches = branches.flatMap (·.2.preorder) := by
  induction branches with
  | nil => rfl
  | cons b branches ih => simp [preorderBelow, ih]

/-- The outline of some branches is that of each of them in turn. -/
theorem outlineBelow_eq (level : Nat) (branches : List (String × CallTree)) :
    outlineBelow level branches = branches.flatMap fun b => b.2.outline level b.1 := by
  induction branches with
  | nil => rfl
  | cons b branches ih => simp [outlineBelow, ih]

/-- The name of the root comes before those below it. -/
@[simp] theorem names_node (name file : String) (branches : List (String × CallTree)) :
    (node name file branches).names = name :: namesBelow branches := by
  simp [names, namesBelow, preorder, preorderBelow_eq, List.map_flatMap, CallTree.name]

/-- The names of a tree are that of its root and those of its branches. -/
theorem names_eq (t : CallTree) : t.names = t.name :: namesBelow t.branches := by
  cases t
  exact names_node _ _ _

/-- Without branches there are no names. -/
@[simp] theorem namesBelow_nil : namesBelow [] = [] := rfl

/-- The names of the first branch come before those of the others. -/
@[simp] theorem namesBelow_cons (b : String × CallTree) (branches : List (String × CallTree)) :
    namesBelow (b :: branches) = b.2.names ++ namesBelow branches := rfl

/-- The names of two lists of branches follow each other. -/
@[simp] theorem namesBelow_append (branches others : List (String × CallTree)) :
    namesBelow (branches ++ others) = namesBelow branches ++ namesBelow others := by
  simp [namesBelow]

/-- The names below are those in one of the branches. -/
theorem mem_namesBelow {name : String} {branches : List (String × CallTree)} :
    name ∈ namesBelow branches ↔ ∃ b ∈ branches, name ∈ b.2.names := by
  simp [namesBelow]

/-- The nodes below a node are nodes of every tree that holds it. -/
theorem preorder_trans {t m n : CallTree} (hm : m ∈ n.preorder) (hn : n ∈ t.preorder) :
    m ∈ t.preorder := by
  induction t using induct with
  | node name file branches ih =>
    rw [preorder, preorderBelow_eq, List.mem_cons, List.mem_flatMap] at hn
    rcases hn with rfl | ⟨b, hb, hn⟩
    · exact hm
    · rw [preorder, preorderBelow_eq]
      exact List.mem_cons_of_mem _ (List.mem_flatMap.mpr ⟨b, hb, ih b hb hn⟩)

/-- Branches have as many nodes in preorder as their size says. -/
theorem length_preorderBelow {branches : List (String × CallTree)}
    (h : ∀ b ∈ branches, b.2.preorder.length = b.2.size) :
    (preorderBelow branches).length = sizeBelow branches := by
  induction branches with
  | nil => rfl
  | cons b branches ih =>
    have hb := h b List.mem_cons_self
    have hrest := ih fun c hc => h c (List.mem_cons_of_mem b hc)
    rw [preorderBelow, sizeBelow, List.length_append]
    omega

/-- A tree has as many nodes as its preorder lists. -/
theorem length_preorder (t : CallTree) : t.preorder.length = t.size := by
  induction t using induct with
  | node name file branches ih =>
    have hbelow := length_preorderBelow ih
    rw [preorder, size, List.length_cons]
    omega

/-- The depth below is the greatest of those of the branches. -/
theorem depthBelow_le_iff {branches : List (String × CallTree)} {n : Nat} :
    depthBelow branches ≤ n ↔ ∀ b ∈ branches, b.2.depth ≤ n := by
  induction branches with
  | nil => simp [depthBelow]
  | cons b branches ih => rw [depthBelow, Nat.max_le, ih, List.forall_mem_cons]

/-- No branch is larger than all of them. -/
theorem size_le_sizeBelow {branches : List (String × CallTree)} {b : String × CallTree}
    (h : b ∈ branches) : b.2.size ≤ sizeBelow branches := by
  induction branches with
  | nil => simp at h
  | cons c branches ih =>
    rw [sizeBelow]
    rcases List.mem_cons.mp h with rfl | h
    · omega
    · have := ih h
      omega

/-- A tree has at most as many levels as nodes. -/
theorem depth_le_size (t : CallTree) : t.depth ≤ t.size := by
  induction t using induct with
  | node name file branches ih =>
    have hbelow : depthBelow branches ≤ sizeBelow branches :=
      depthBelow_le_iff.mpr fun b hb => Nat.le_trans (ih b hb) (size_le_sizeBelow hb)
    rw [depth, size]
    omega

/-- Without levels and keys, an outline is the preorder. -/
theorem map_outline (level : Nat) (key : String) (t : CallTree) :
    (t.outline level key).map (·.2.2) = t.preorder := by
  induction t using induct generalizing level key with
  | node name file branches ih =>
    simp only [outline, outlineBelow_eq, preorder, preorderBelow_eq, List.map_cons,
      List.map_flatMap]
    congr 1
    exact List.flatMap_congr fun b hb => ih b hb (level + 1) b.1

/-- The names of an outline of branches are those of the branches. -/
theorem map_outlineBelow_name (level : Nat) (branches : List (String × CallTree)) :
    (outlineBelow level branches).map (·.2.2.name) = namesBelow branches := by
  rw [outlineBelow_eq, List.map_flatMap, namesBelow]
  refine List.flatMap_congr fun b _ => ?_
  rw [names, ← map_outline level b.1 b.2, List.map_map]
  rfl

end CallTree

end CallAtlas
