import CallAtlas.Proofs.PatternCuts

/-!
# From match to match

A scan passes over what lies within a match and over places where there is none
(`matchesAfter_of_match`, `matchesAfter_of_none`), so it may be followed from match to match rather
than from symbol to symbol.  The matches come in the order in which they begin
(`findAll_ordered`).  A pattern that looks at no neighbours of a place takes the same runs whatever
stands before it (`cuts_congr_before`), and a probe of such patterns finds the same matches in a
text on its own as at the end of a longer one (`map_matchesAfter_congr`).
-/

set_option autoImplicit false

namespace CallAtlas.Text

variable {α : Type}

/-! ## Patterns that look at no neighbours -/

namespace Pattern

/-- Whether a pattern looks at no neighbours of a place. -/
def isEdgeless : Pattern α → Bool
  | empty => true
  | one _ => true
  | edge _ => false
  | seq p q => p.isEdgeless && q.isEdgeless
  | alt p q => p.isEdgeless && q.isEdgeless
  | star p => p.isEdgeless

/-- A repeated step that ignores the symbol before it ignores that before the first one. -/
theorem repeated_congr_before {step : Option α → List α → List (Cut α)}
    (h : ∀ before before' input, step before input = step before' input) (bound : List α)
    (before before' : Option α) (input : List α) :
    repeated step bound before input = repeated step bound before' input := by
  induction bound generalizing before before' input with
  | nil => rfl
  | cons x bound ih =>
    simp only [repeated, chain]
    rw [h before before' input]
    congr 2
    funext c
    rw [ih (lastOf before c.1) (lastOf before' c.1) c.2]

/-- What stands before the input makes no difference to a pattern without edges. -/
theorem cuts_congr_before {p : Pattern α} (h : p.isEdgeless) (before before' : Option α)
    (input : List α) : p.cuts before input = p.cuts before' input := by
  induction p generalizing before before' input with
  | empty => rfl
  | one test => rfl
  | edge test => exact absurd h (by simp [isEdgeless])
  | seq p q ihp ihq =>
    rw [isEdgeless, Bool.and_eq_true] at h
    simp only [cuts, chain]
    rw [ihp h.1 before before' input]
    congr 1
    funext c
    rw [ihq h.2 (lastOf before c.1) (lastOf before' c.1) c.2]
  | alt p q ihp ihq =>
    rw [isEdgeless, Bool.and_eq_true] at h
    simp only [cuts]
    rw [ihp h.1 before before' input, ihq h.2 before before' input]
  | star p ih => exact repeated_congr_before (ih h) input before before' input

end Pattern

namespace Probe

variable {p : Probe α}

/-- Whether none of the three patterns of a probe looks at the neighbours of a place. -/
def isEdgeless (p : Probe α) : Bool :=
  p.lead.isEdgeless && p.target.isEdgeless && p.tail.isEdgeless

/-- What stands before the input is recorded in a match of such a probe, and no more. -/
theorem matchHere_congr_past (h : p.isEdgeless) (past past' input : List α) :
    p.matchHere past input = (p.matchHere past' input).map fun f => { f with past := past } := by
  simp only [isEdgeless, Bool.and_eq_true] at h
  obtain ⟨⟨hlead, htarget⟩, htail⟩ := h
  simp only [matchHere, Pattern.search_eq, List.map_findSome?, List.append_nil, List.head?_nil,
    Option.none_or]
  rw [Pattern.cuts_congr_before hlead past.head? past'.head?]
  congr 1
  funext c
  rw [Function.comp_apply, List.map_findSome?,
    Pattern.cuts_congr_before htarget _ (c.1.reverse.head?.or past'.head?)]
  congr 1
  funext d
  rw [Function.comp_apply, List.map_findSome?,
    Pattern.cuts_congr_before htail _ (d.1.reverse.head?.or (c.1.reverse.head?.or past'.head?))]
  rfl

/-- A probe without edges finds the same matches whatever stands before the input. -/
theorem map_matchesAfter_congr (h : p.isEdgeless) {β : Type} {view : Found α → β}
    (hview : ∀ f past, view { f with past := past } = view f) (skip : Nat)
    (past past' input : List α) :
    (p.matchesAfter skip past input).map view = (p.matchesAfter skip past' input).map view := by
  induction input generalizing skip past past' with
  | nil => simp [matchesAfter]
  | cons a rest ih =>
    cases skip with
    | succ skip => exact ih skip (a :: past) (a :: past')
    | zero =>
      rw [matchesAfter, matchesAfter, matchHere_congr_past h past past']
      cases p.matchHere past' (a :: rest) with
      | none => exact ih 0 (a :: past) (a :: past')
      | some f =>
        simp only [Option.map_some, List.map_cons, hview]
        exact congrArg (view f :: ·) (ih _ (a :: past) (a :: past'))

/-! ## From match to match -/

/-- Symbols to be skipped have no matches, and are behind the scan from there on. -/
theorem matchesAfter_skipped (skipped past rest : List α) :
    p.matchesAfter skipped.length past (skipped ++ rest) =
      p.matchesAfter 0 (skipped.reverse ++ past) rest := by
  induction skipped generalizing past with
  | nil => rfl
  | cons a skipped ih =>
    rw [List.length_cons, List.cons_append, matchesAfter, ih, List.reverse_cons, List.append_assoc,
      List.singleton_append]

/-- A scan that comes to a match goes on behind it. -/
theorem matchesAfter_of_match {past input : List α} {f : Found α}
    (h : p.matchHere past input = some f) (hne : f.whole ≠ []) :
    p.matchesAfter 0 past input = f :: p.matchesAfter 0 (f.whole.reverse ++ past) f.rest := by
  obtain ⟨a, whole, hwhole⟩ := List.exists_cons_of_ne_nil hne
  have hinput : input = a :: (whole ++ f.rest) := by
    rw [← onward_of_matchHere h, Found.onward, hwhole, List.cons_append]
  subst hinput
  have hlength : f.whole.length - 1 = whole.length := by
    rw [hwhole, List.length_cons, Nat.add_sub_cancel]
  rw [matchesAfter, h]
  simp only [hlength]
  rw [matchesAfter_skipped, hwhole, List.reverse_cons, List.append_assoc, List.singleton_append]

/-- A scan that comes to a place without a match goes on behind the next symbol. -/
theorem matchesAfter_of_none {past rest : List α} {a : α}
    (h : p.matchHere past (a :: rest) = none) :
    p.matchesAfter 0 past (a :: rest) = p.matchesAfter 0 (a :: past) rest := by
  rw [matchesAfter, h]

/-- A scan passes over a beginning of the text in which no match starts. -/
theorem matchesAfter_append_of_none {head rest : List α}
    (h : ∀ a later, a :: later <:+ head → ∀ past, p.matchHere past (a :: later ++ rest) = none)
    (past : List α) :
    p.matchesAfter 0 past (head ++ rest) = p.matchesAfter 0 (head.reverse ++ past) rest := by
  induction head generalizing past with
  | nil => rfl
  | cons a head ih =>
    have hnone := h a head (List.suffix_refl _) past
    rw [List.cons_append] at hnone
    rw [List.cons_append, matchesAfter_of_none hnone,
      ih fun b later hb => h b later (hb.trans (List.suffix_cons a head)), List.reverse_cons,
      List.append_assoc, List.singleton_append]

/-! ## The order of the matches -/

/-- What the scan had passed is still behind every later match. -/
theorem past_suffix_of_mem {skip : Nat} {past input : List α} {f : Found α}
    (h : f ∈ p.matchesAfter skip past input) : past <:+ f.past := by
  induction input generalizing skip past with
  | nil => simp [matchesAfter] at h
  | cons a rest ih =>
    have hnext : ∀ {skip}, f ∈ p.matchesAfter skip (a :: past) rest → past <:+ f.past :=
      fun hmem => (List.suffix_cons a past).trans (ih hmem)
    cases skip with
    | succ skip => exact hnext h
    | zero =>
      rw [matchesAfter] at h
      split at h
      · rename_i g hfound
        rcases List.mem_cons.mp h with rfl | h
        · have hpast : past = f.past := (matchHere_eq_some hfound).1.symm
          exact hpast ▸ List.suffix_refl past
        · exact hnext h
      · exact hnext h

/-- What stands before a match that a scan finds stands before all later ones as well. -/
theorem findAll_ordered (p : Probe α) (text : List α) :
    (p.findAll text).Pairwise fun f g => f.past <:+ g.past := by
  have hafter : ∀ input skip past,
      (p.matchesAfter skip past input).Pairwise fun f g => f.past <:+ g.past := by
    intro input
    induction input with
    | nil => intro skip past; simp [matchesAfter]
    | cons a rest ih =>
      intro skip past
      cases skip with
      | succ skip => exact ih skip (a :: past)
      | zero =>
        rw [matchesAfter]
        split
        · rename_i f hfound
          refine List.pairwise_cons.mpr ⟨fun g hg => ?_, ih _ _⟩
          rw [(matchHere_eq_some hfound).1]
          exact (List.suffix_cons a past).trans (past_suffix_of_mem hg)
        · exact ih 0 (a :: past)
  exact hafter text 0 []

end Probe

end CallAtlas.Text
