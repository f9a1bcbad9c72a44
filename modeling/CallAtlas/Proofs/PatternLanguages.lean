import CallAtlas.Proofs.PatternSymbols

/-!
# Languages of patterns

A pattern that does not look at the neighbours of a place spans a language: wherever it is tried,
its cuts are the ways to take a run of the language (`Spans`).  Whether such a pattern accepts an
input is a question about the language alone (`Spans.accepts_iff`), and the language is read off
the form of the pattern.
-/

set_option autoImplicit false

namespace CallAtlas.Text.Pattern

variable {α : Type} {p q : Pattern α} {L M : List α → Prop} {input : List α}

/-- A pattern spans a language if its cuts take off exactly the runs of the language, whatever
stands before them. -/
def Spans (p : Pattern α) (L : List α → Prop) : Prop :=
  ∀ before input run rest, (run, rest) ∈ p.cuts before input ↔ run ++ rest = input ∧ L run

/-- A language may be told in other words. -/
theorem Spans.congr (h : p.Spans L) (hLM : ∀ run, L run ↔ M run) : p.Spans M :=
  fun before input run rest => (h before input run rest).trans (and_congr_right fun _ => hLM run)

/-- A pattern accepts the inputs of the language that it spans. -/
theorem Spans.accepts_iff (h : p.Spans L) : p.accepts input ↔ L input := by
  rw [accepts, search_eq, List.findSome?_isSome_iff]
  constructor
  · rintro ⟨⟨run, rest⟩, hcut, hempty⟩
    obtain ⟨hsplit, hrun⟩ := (h _ _ _ _).mp hcut
    obtain rfl : rest = [] := by
      cases rest with
      | nil => rfl
      | cons a rest => exact absurd hempty (by simp)
    rwa [← hsplit, List.append_nil]
  · intro hinput
    exact ⟨(input, []), (h _ _ _ _).mpr ⟨List.append_nil input, hinput⟩, rfl⟩

/-- The empty pattern spans the empty run. -/
theorem spans_empty : (empty : Pattern α).Spans (· = []) := by
  intro before input run rest
  rw [mem_cuts_empty_iff]
  constructor
  · rintro ⟨rfl, rfl⟩
    exact ⟨rfl, rfl⟩
  · rintro ⟨rfl, rfl⟩
    exact ⟨rfl, rfl⟩

/-- A test spans the runs of one symbol that passes it. -/
theorem spans_one (test : α → Bool) : (one test).Spans fun run => ∃ a, test a ∧ run = [a] := by
  intro before input run rest
  rw [mem_cuts_one_iff]
  constructor
  · rintro ⟨a, ha, rfl, rfl⟩
    exact ⟨rfl, a, ha, rfl⟩
  · rintro ⟨rfl, a, ha, rfl⟩
    exact ⟨a, ha, rfl, rfl⟩

/-- A repeated test spans the runs of symbols that pass it. -/
theorem spans_star_one (test : α → Bool) : (star (one test)).Spans fun run => ∀ a ∈ run, test a :=
  fun _ _ _ _ => mem_cuts_star_one_iff

/-- A choice spans what either of the two spans. -/
theorem Spans.alt (hp : p.Spans L) (hq : q.Spans M) : (p.alt q).Spans fun run => L run ∨ M run := by
  intro before input run rest
  rw [mem_cuts_alt_iff, hp, hq, and_or_left]

/-- Patterns in a row span the runs of the first followed by runs of the second. -/
theorem Spans.seq (hp : p.Spans L) (hq : q.Spans M) :
    (p.seq q).Spans fun run => ∃ first second, run = first ++ second ∧ L first ∧ M second := by
  intro before input run rest
  rw [mem_cuts_seq_iff]
  constructor
  · rintro ⟨first, second, middle, rfl, hfirst, hsecond⟩
    obtain ⟨rfl, hL⟩ := (hp _ _ _ _).mp hfirst
    obtain ⟨rfl, hM⟩ := (hq _ _ _ _).mp hsecond
    exact ⟨List.append_assoc first second rest, first, second, rfl, hL, hM⟩
  · rintro ⟨rfl, first, second, rfl, hL, hM⟩
    exact ⟨first, second, second ++ rest, rfl,
      (hp _ _ _ _).mpr ⟨(List.append_assoc first second rest).symm, hL⟩,
      (hq _ _ _ _).mpr ⟨rfl, hM⟩⟩

/-- A word spans itself. -/
theorem spans_word [BEq α] [LawfulBEq α] (w : List α) : (word w).Spans (· = w) := by
  have hone : ∀ a : α, (one (· == a)).Spans (· = [a]) := fun a =>
    (spans_one (· == a)).congr fun run => by simp
  induction w with
  | nil => exact spans_empty
  | cons a w ih =>
    cases w with
    | nil => exact hone a
    | cons b w =>
      refine ((hone a).seq ih).congr fun run => ?_
      constructor
      · rintro ⟨first, second, rfl, rfl, rfl⟩
        rfl
      · rintro rfl
        exact ⟨[a], b :: w, rfl, rfl, rfl⟩

end CallAtlas.Text.Pattern
