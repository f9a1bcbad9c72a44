import Mathlib.Data.List.Basic

/-!
# Addresses below numbered parts

A place in a tree has an address: the numbers of the parts that lead to it from the root.  Where
each part of a whole has a list of addresses, those of the whole are these with the number of the
part in front.  They come in the order of words if those of each part do (`pairwise_numbered`), and
each of them leads into one part (`cons_mem_numbered_iff`).
-/

set_option autoImplicit false

namespace CallAtlas

variable {α : Type} {f : α → List (List Nat)} {xs : List α}

/-- If the lists of each part increase, so do those with the number of the part in front. -/
theorem pairwise_numbered (h : ∀ x ∈ xs, (f x).Pairwise (· < ·)) :
    ([] :: xs.zipIdx.flatMap fun c => (f c.1).map (c.2 :: ·)).Pairwise (· < ·) := by
  rw [List.pairwise_cons, List.pairwise_flatMap]
  refine ⟨fun p hp => ?_, fun c hc => ?_, ?_⟩
  · obtain ⟨c, -, hp⟩ := List.mem_flatMap.mp hp
    obtain ⟨rest, -, rfl⟩ := List.mem_map.mp hp
    exact List.nil_lt_cons c.2 rest
  · rw [List.pairwise_map]
    exact (h c.1 (List.fst_mem_of_mem_zipIdx hc)).imp fun hlt =>
      List.cons_lt_cons_iff.mpr (Or.inr ⟨rfl, hlt⟩)
  · have hnumbers : (xs.zipIdx.map (·.2)).Pairwise (· < ·) := by
      rw [List.zipIdx_map_snd]
      exact List.pairwise_lt_range'
    rw [List.pairwise_map] at hnumbers
    refine hnumbers.imp fun {c d} hlt p hp q hq => ?_
    obtain ⟨rest, -, rfl⟩ := List.mem_map.mp hp
    obtain ⟨rest', -, rfl⟩ := List.mem_map.mp hq
    exact List.cons_lt_cons_iff.mpr (Or.inl hlt)

/-- A numbered list belongs to the part with that number. -/
theorem cons_mem_numbered_iff {i : Nat} {rest : List Nat} :
    i :: rest ∈ xs.zipIdx.flatMap (fun c => (f c.1).map (c.2 :: ·)) ↔
      ∃ x, xs[i]? = some x ∧ rest ∈ f x := by
  simp only [List.mem_flatMap, List.mem_map]
  constructor
  · rintro ⟨⟨x, n⟩, hx, rest', hrest, heq⟩
    obtain ⟨rfl, rfl⟩ := List.cons.inj heq
    exact ⟨x, List.mem_zipIdx_iff_getElem?.mp hx, hrest⟩
  · rintro ⟨x, hx, hrest⟩
    exact ⟨(x, i), List.mem_zipIdx_iff_getElem?.mpr hx, rest, hrest, rfl⟩

end CallAtlas
