import CallAtlas.Proofs.Resolution
import Mathlib.Data.List.Basic
import Mathlib.Data.List.Induction

/-!
# First occurrences

Erasing duplicates keeps the first occurrence of every element, so the kept elements come in the
order of their first occurrences.  `pairwise_eraseDups` says this without positions: what holds
between an element that occurs for the first time and all that is before it, holds along the kept
list.  The entry points are such a list, and `pairwise_entryPoints` reads their order off it.
-/

set_option autoImplicit false

namespace CallAtlas

section Duplicates

variable {α : Type} [BEq α] [LawfulBEq α]

/-- A further occurrence at the end is removed. -/
theorem eraseDups_concat_of_mem {xs : List α} {x : α} (h : x ∈ xs) :
    (xs ++ [x]).eraseDups = xs.eraseDups := by
  simp [List.eraseDups_append, List.removeAll, h]

/-- A first occurrence at the end is kept. -/
theorem eraseDups_concat_of_not_mem {xs : List α} {x : α} (h : x ∉ xs) :
    (xs ++ [x]).eraseDups = xs.eraseDups ++ [x] := by
  simp [List.eraseDups_append, List.removeAll, h, List.eraseDups_cons]

/-- If every element that occurs for the first time is related to all elements before it, then the
list without its duplicates is in the order of the relation. -/
theorem pairwise_eraseDups {R : α → α → Prop} {xs : List α}
    (h : ∀ before x after, xs = before ++ x :: after → x ∉ before → ∀ y ∈ before, R y x) :
    xs.eraseDups.Pairwise R := by
  induction xs using List.reverseRecOn with
  | nil => simp
  | append_singleton xs x ih =>
    have hxs : xs.eraseDups.Pairwise R := by
      refine ih fun before y after hsplit hfirst => ?_
      have hlonger : xs ++ [x] = before ++ y :: (after ++ [x]) := by rw [hsplit]; simp
      exact h before y (after ++ [x]) hlonger hfirst
    by_cases hx : x ∈ xs
    · rwa [eraseDups_concat_of_mem hx]
    · rw [eraseDups_concat_of_not_mem hx, List.pairwise_append]
      refine ⟨hxs, List.pairwise_singleton R x, fun y hy z hz => ?_⟩
      obtain rfl := List.mem_singleton.mp hz
      exact h xs z [] rfl hx y (List.mem_eraseDups.mp hy)

/-- Without duplicates no member occurs twice. -/
theorem nodup_eraseDups (xs : List α) : xs.eraseDups.Nodup := by
  refine pairwise_eraseDups fun before x after _ hfirst y hy => ?_
  rintro rfl
  exact hfirst hy

/-- A list without duplicates stays as it is. -/
theorem eraseDups_of_nodup {xs : List α} (h : xs.Nodup) : xs.eraseDups = xs := by
  induction xs using List.reverseRecOn with
  | nil => simp
  | append_singleton xs x ih =>
    obtain ⟨hxs, -, hne⟩ := List.nodup_append.mp h
    have hx : x ∉ xs := fun hmem => hne x hmem x List.mem_cons_self rfl
    rw [eraseDups_concat_of_not_mem hx, ih hxs]

/-- Of two elements that pass a test, the one that occurs first is kept first. -/
theorem pairwise_idxOf_eraseDups_filter (xs : List α) (test : α → Bool) :
    (xs.filter test).eraseDups.Pairwise fun a b => xs.idxOf a < xs.idxOf b := by
  refine pairwise_eraseDups fun before b after hsplit hfirst a ha => ?_
  -- The place of `b` among the elements that pass comes from a place among all of them.
  obtain ⟨early, late, hxs, hearly, hlate⟩ := List.filter_eq_append_iff.mp hsplit
  obtain ⟨between, rest, rfl, hbetween, hb, -⟩ := List.filter_eq_cons_iff.mp hlate
  have ha_early : a ∈ early ++ between := by
    rw [← hearly] at ha
    exact List.mem_append_left between (List.mem_filter.mp ha).1
  have hb_early : b ∉ early ++ between := by
    intro hmem
    rcases List.mem_append.mp hmem with hmem | hmem
    · exact hfirst (hearly ▸ List.mem_filter.mpr ⟨hmem, hb⟩)
    · exact hbetween b hmem hb
  have hlt : (early ++ between).idxOf a < (early ++ between).length :=
    List.idxOf_lt_length_of_mem ha_early
  rw [hxs, ← List.append_assoc, List.idxOf_append_of_mem ha_early,
    List.idxOf_append_of_notMem hb_early]
  omega

end Duplicates

/-! ## Entry points -/

/-- No entry point is listed twice. -/
theorem nodup_entryPoints (defs : List Definition) : (entryPoints defs).Nodup :=
  nodup_eraseDups _

/-- Of two entry points, the one that occurs first as a name is listed first. -/
theorem pairwise_entryPoints (defs : List Definition) :
    (entryPoints defs).Pairwise fun a b =>
      (defs.map (·.name)).idxOf a < (defs.map (·.name)).idxOf b :=
  pairwise_idxOf_eraseDups_filter _ _

end CallAtlas
