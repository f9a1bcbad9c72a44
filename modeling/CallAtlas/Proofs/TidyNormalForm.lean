import CallAtlas.Proofs.SpacedArrows
import CallAtlas.Proofs.TidyLines
import CallAtlas.Proofs.UtilityNames

/-!
# What tidying comes to

A tidied text is in a form that can be told without tidying: the two known names have their
capitals, the arrows of every line are spaced, and no line whose names say utility has a component
(`NormalForm`).  The three rewrites of a line come one after the other, and none brings back what
an earlier one has taken out: spacing the arrows joins no letters, and marking the components of a
line may be done before or after its arrows are spaced (`spaceArrows_markUtilities`).  Tidying
changes nothing exactly in the texts of this form, so tidying twice is tidying once
(`tidy_reaches_normal_form`).
-/

set_option autoImplicit false

namespace CallAtlas.Tidy

open Text

variable {word line : List Char}

/-! ## Components marked as utilities -/

/-- The line with all its components marked as utilities. -/
def markUtilities (line : List Char) : List Char :=
  replaceAll Role.component.tag.toList Role.utility.tag.toList line

/-- The tag of a component splits a line into parts that are marked each on its own. -/
theorem markUtilities_split (first second : List Char) :
    markUtilities (first ++ (Role.component.tag.toList ++ second)) =
      markUtilities first ++ (Role.utility.tag.toList ++ markUtilities second) :=
  replaceAll_split (by decide) (by decide) first second

/-- Marking utilities brings in no word that is apart from their tag. -/
theorem infix_of_infix_markUtilities (h : isApart word Role.utility.tag.toList)
    (hocc : word <:+: markUtilities line) : word <:+: line :=
  infix_of_infix_replaceAll (by decide) (by decide) h hocc

/-- Retagging marks all components of a line, or none since the line does not call for it. -/
theorem retag_cases (line : List Char) :
    retag line = markUtilities line ∨
      retag line = line ∧ ¬(Role.component.tag.toList <:+: line ∧ namesUtility line) := by
  rw [retag]
  split
  · exact Or.inl rfl
  · rename_i hnot
    rw [Bool.and_eq_true, hasFragment_iff_infix] at hnot
    exact Or.inr ⟨rfl, hnot⟩

/-- The tags of a line make no difference to its arrows. -/
theorem spaceArrows_markUtilities (line : List Char) :
    spaceArrows (markUtilities line) = markUtilities (spaceArrows line) := by
  have htag : ∀ (role : Role) (first second : List Char),
      spaceArrows (first ++ (role.tag.toList ++ second)) =
        spaceArrows first ++ (role.tag.toList ++ spaceArrows second) := by
    intro role
    apply spaceArrows_append_word
    · cases role <;> decide
    · cases role <;> decide
    · cases role <;> exact ⟨'<', _, rfl, by decide⟩
  have hne : Role.component.tag.toList ≠ [] := by decide
  induction line using fragment_induct hne with
  | absent line habsent =>
    rw [markUtilities, replaceAll_of_absent habsent, markUtilities, replaceAll_of_absent]
    exact fun hocc => habsent (infix_of_infix_spaceArrows (by decide) hocc)
  | cut first second ihfirst ihsecond =>
    rw [markUtilities_split, htag, ihfirst, ihsecond, htag, markUtilities_split]

/-- Marking utilities keeps the spaces around arrows. -/
theorem Spaced.markUtilities (h : Spaced line) : Spaced (markUtilities line) := by
  rw [spaced_iff, spaceArrows_markUtilities, h.spaceArrows_eq]

/-! ## Tidied lines -/

/-- The first misspelt name is gone. -/
theorem formatdate_not_infix_capitalize (line : List Char) :
    ¬"Formatdate".toList <:+: capitalize line := by
  intro hocc
  have hfirst := infix_of_infix_replaceAll (by decide) (by decide) (by decide) hocc
  exact not_infix_replaceAll (by decide) (by decide) (by decide) hfirst

/-- So is the second. -/
theorem handlesubmit_not_infix_capitalize (line : List Char) :
    ¬"Handlesubmit".toList <:+: capitalize line :=
  not_infix_replaceAll (by decide) (by decide) (by decide)

/-- A word without spaces and tabs that cannot overlap a tag stands in a tidied line only if it
stood there when the names had got their capitals. -/
theorem infix_of_infix_tidyLine (hword : isGapless word)
    (h : isApart word Role.utility.tag.toList) (hocc : word <:+: tidyLine line) :
    word <:+: capitalize line := by
  apply infix_of_infix_spaceArrows hword
  rw [tidyLine] at hocc
  rcases retag_cases (spaceArrows (capitalize line)) with hmarked | ⟨hkept, -⟩
  · rw [hmarked] at hocc
    exact infix_of_infix_markUtilities h hocc
  · rwa [hkept] at hocc

/-- A tidied line is spaced. -/
theorem spaced_tidyLine (line : List Char) : Spaced (tidyLine line) := by
  have hspaced := spaced_spaceArrows (capitalize line)
  rw [tidyLine]
  rcases retag_cases (spaceArrows (capitalize line)) with hmarked | ⟨hkept, -⟩
  · rw [hmarked]
    exact hspaced.markUtilities
  · rwa [hkept]

/-- No component is left on a tidied line that calls for a utility. -/
theorem retagged_tidyLine (line : List Char) :
    ¬(Role.component.tag.toList <:+: tidyLine line ∧ SaysUtility (tidyLine line)) := by
  rw [tidyLine, ← namesUtility_iff]
  rcases retag_cases (spaceArrows (capitalize line)) with hmarked | ⟨hkept, hnot⟩
  · rw [hmarked]
    exact fun hboth => not_infix_replaceAll (by decide) (by decide) (by decide) hboth.1
  · rwa [hkept]

/-! ## The normal form -/

/-- The form of a tidied text. -/
structure NormalForm (text : List Char) : Prop where
  /-- The first name has its capitals. -/
  formatDate : ¬"Formatdate".toList <:+: text
  /-- So has the second. -/
  handleSubmit : ¬"Handlesubmit".toList <:+: text
  /-- Every arrow has one space of its own on each side. -/
  spaced : ∀ line ∈ splitAt '\n' text, Spaced line
  /-- A component of a line is meant as one: the line has no handler word, in any case, and no
  branch. -/
  retagged : ∀ line ∈ splitAt '\n' text, ¬(Role.component.tag.toList <:+: line ∧ SaysUtility line)

/-- A tidied text is in normal form. -/
theorem normalForm_tidy (text : List Char) : NormalForm (tidy text) := by
  have htidied : ∀ line ∈ splitAt '\n' (tidy text), ∃ before, tidyLine before = line := by
    intro line hline
    rw [splitAt_tidy] at hline
    obtain ⟨before, -, hbefore⟩ := List.mem_map.mp hline
    exact ⟨before, hbefore⟩
  have hword : ∀ {word : List Char}, '\n' ∉ word → (∀ line, ¬word <:+: tidyLine line) →
      ¬word <:+: tidy text := by
    intro word hnewline hnot
    rw [infix_iff_exists_part hnewline]
    rintro ⟨line, hline, hocc⟩
    obtain ⟨before, rfl⟩ := htidied line hline
    exact hnot before hocc
  constructor
  case formatDate =>
    exact hword (by decide) fun line hocc => formatdate_not_infix_capitalize line
      (infix_of_infix_tidyLine (by decide) (by decide) hocc)
  case handleSubmit =>
    exact hword (by decide) fun line hocc => handlesubmit_not_infix_capitalize line
      (infix_of_infix_tidyLine (by decide) (by decide) hocc)
  case spaced =>
    intro line hline
    obtain ⟨before, rfl⟩ := htidied line hline
    exact spaced_tidyLine before
  case retagged =>
    intro line hline
    obtain ⟨before, rfl⟩ := htidied line hline
    exact retagged_tidyLine before

/-- A text in normal form is left as it is. -/
theorem NormalForm.tidy_eq {text : List Char} (h : NormalForm text) : tidy text = text := by
  have hlines : ∀ line ∈ splitAt '\n' text, tidyLine line = line := by
    intro line hline
    have hformat : ¬"Formatdate".toList <:+: line := fun hocc =>
      h.formatDate ((infix_iff_exists_part (by decide)).mpr ⟨line, hline, hocc⟩)
    have hhandle : ¬"Handlesubmit".toList <:+: line := fun hocc =>
      h.handleSubmit ((infix_iff_exists_part (by decide)).mpr ⟨line, hline, hocc⟩)
    have hcapitals : capitalize line = line := by
      rw [capitalize, replaceAll_of_absent hformat, replaceAll_of_absent hhandle]
    have hkept : retag line = line := by
      rw [retag, if_neg]
      rw [Bool.and_eq_true, hasFragment_iff_infix, namesUtility_iff]
      exact h.retagged line hline
    rw [tidyLine, hcapitals, (h.spaced line hline).spaceArrows_eq, hkept]
  rw [tidy, List.map_congr_left hlines, List.map_id', joinWith_splitAt]

/-- Tidying brings every text into the normal form and changes nothing in a text that has it, so
tidying a second time changes nothing. -/
theorem tidy_reaches_normal_form (text : List Char) :
    NormalForm (tidy text) ∧ (NormalForm text ↔ tidy text = text) ∧
      tidy (tidy text) = tidy text := by
  have hform := normalForm_tidy text
  exact ⟨hform, ⟨NormalForm.tidy_eq, fun h => h ▸ hform⟩, hform.tidy_eq⟩

end CallAtlas.Tidy
