import CallAtlas.Proofs.TidyNormalForm
import Mathlib.Data.List.Forall2

/-!
# What tidying leaves alone

Tidying changes the case of letters, tags of components, and spaces and tabs.  Without these a text
and the tidied text are the same (`bare`).  Of the spaces and tabs it changes only those around
arrows: read with small letters and utilities for components, the tidied line is the line with its
arrows spaced (`plain_tidyLine`), and spacing the arrows leaves every character that leads to none
(`sameButForGaps_spaceArrows`).
-/

set_option autoImplicit false

namespace CallAtlas.Tidy

open Text

variable {c : Char} {cs lead run tail rest : List Char}

/-- The text with small letters, and with utilities for components. -/
def plain (cs : List Char) : List Char := markUtilities (cs.map Char.toLower)

/-- The text without spaces and tabs. -/
def withoutGaps (cs : List Char) : List Char := cs.filter fun c => !isSpaceOrTab c

/-- The text without spaces and tabs, with small letters, and with utilities for components. -/
def bare (cs : List Char) : List Char := plain (withoutGaps cs)

/-- Two lines are the same but for the spaces and tabs right before and right behind arrows. -/
inductive SameButForGaps : List Char → List Char → Prop
  /-- The empty lines are the same. -/
  | nil : SameButForGaps [] []
  /-- A character that leads to no arrow is the same in both. -/
  | keep {c : Char} {cs ds : List Char} (h : leadsToArrow (c :: cs) = false) :
    SameButForGaps cs ds → SameButForGaps (c :: cs) (c :: ds)
  /-- An arrow is the same in both, and the spaces and tabs around it need not be. -/
  | arrow {run lead tail cs lead' tail' ds : List Char} (hrun : IsArrow run)
    (hlead : ∀ c ∈ lead, isSpaceOrTab c) (htail : ∀ c ∈ tail, isSpaceOrTab c)
    (hlead' : ∀ c ∈ lead', isSpaceOrTab c) (htail' : ∀ c ∈ tail', isSpaceOrTab c) :
    SameButForGaps cs ds →
      SameButForGaps (lead ++ (run ++ (tail ++ cs))) (lead' ++ (run ++ (tail' ++ ds)))

/-- Spacing arrows changes only the gaps around them. -/
theorem sameButForGaps_spaceArrows (cs : List Char) : SameButForGaps cs (spaceArrows cs) := by
  induction cs using arrows_induct with
  | nil => exact .nil
  | skip c cs hskip ih =>
    rw [spaceArrows_cons hskip]
    exact .keep hskip ih
  | arrow lead run tail rest hparts ih =>
    have hspace : ∀ c ∈ [' '], isSpaceOrTab c := List.forall_mem_singleton.mpr rfl
    rw [spaceArrows_arrow hparts]
    exact .arrow hparts.run hparts.lead hparts.tail hspace hspace ih

/-! ## Small letters -/

/-- Making letters small touches nothing that comes before the letters. -/
theorem toLower_eq_iff {d : Char} (hd : d.toNat < 65) : c.toLower = d ↔ c = d := by
  unfold Char.toLower
  split
  · rename_i hupper
    have hfirst : 65 ≤ c.toNat := hupper.1
    have hlast : c.toNat ≤ 90 := hupper.2
    constructor
    · rintro rfl
      have hlower : (c.val + ('a'.val - 'A'.val)).toNat = c.toNat + 32 := by
        rw [UInt32.toNat_add]
        exact Nat.mod_eq_of_lt (by simp; omega)
      simp only [Char.toNat] at hd
      omega
    · rintro rfl
      omega
  · rfl

/-- Small letters are no spaces and tabs. -/
theorem isSpaceOrTab_toLower (c : Char) : isSpaceOrTab c.toLower = isSpaceOrTab c := by
  rw [Bool.eq_iff_iff]
  simp [isSpaceOrTab, toLower_eq_iff]

/-- With small letters, an arrow stays one. -/
theorem IsArrow.map_toLower (h : IsArrow run) : IsArrow (run.map Char.toLower) := by
  obtain ⟨n, rfl⟩ := h
  exact ⟨n, by simp⟩

/-- With small letters, a text begins with an arrow where it did. -/
theorem opensWithArrow_map_toLower (cs : List Char) :
    opensWithArrow (cs.map Char.toLower) = opensWithArrow cs := by
  have hhyphen : (· == '-') ∘ Char.toLower = (· == '-') := by
    funext c
    rw [Bool.eq_iff_iff]
    simp [toLower_eq_iff]
  have hbracket : ∀ c : Option Char, (c.map Char.toLower == some '>') = (c == some '>') := by
    intro c
    rw [Bool.eq_iff_iff]
    simp [toLower_eq_iff]
  rw [opensWithArrow, List.takeWhile_map, List.dropWhile_map, hhyphen, List.length_map,
    List.head?_map, hbracket, opensWithArrow]

/-- With small letters, a text leads to an arrow where it did. -/
theorem leadsToArrow_map_toLower (cs : List Char) :
    leadsToArrow (cs.map Char.toLower) = leadsToArrow cs := by
  have hblank : isSpaceOrTab ∘ Char.toLower = isSpaceOrTab := funext isSpaceOrTab_toLower
  rw [leadsToArrow, List.dropWhile_map, hblank, opensWithArrow_map_toLower, leadsToArrow]

/-- With small letters, the parts of an arrow stay its parts. -/
theorem ArrowParts.map_toLower (h : ArrowParts lead run tail rest) :
    ArrowParts (lead.map Char.toLower) (run.map Char.toLower) (tail.map Char.toLower)
      (rest.map Char.toLower) := by
  have hgap : ∀ {gap : List Char}, (∀ c ∈ gap, isSpaceOrTab c) →
      ∀ c ∈ gap.map Char.toLower, isSpaceOrTab c := by
    intro gap hblank
    rw [List.forall_mem_map]
    exact fun c hc => (isSpaceOrTab_toLower c).trans (hblank c hc)
  refine ⟨hgap h.lead, h.run.map_toLower, hgap h.tail, fun c hc => ?_⟩
  rw [List.head?_map] at hc
  obtain ⟨d, hd, rfl⟩ := Option.map_eq_some_iff.mp hc
  rw [isSpaceOrTab_toLower, h.rest d hd]

/-- The case of the letters makes no difference to the arrows. -/
theorem spaceArrows_map_toLower (cs : List Char) :
    spaceArrows (cs.map Char.toLower) = (spaceArrows cs).map Char.toLower := by
  induction cs using arrows_induct with
  | nil => rfl
  | skip c cs hskip ih =>
    have hsmall : leadsToArrow (c.toLower :: cs.map Char.toLower) = false := by
      rw [← List.map_cons, leadsToArrow_map_toLower, hskip]
    rw [List.map_cons, spaceArrows_cons hsmall, ih, spaceArrows_cons hskip, List.map_cons]
  | arrow lead run tail rest hparts ih =>
    simp only [List.map_append, spaceArrows_arrow hparts.map_toLower, ih,
      spaceArrows_arrow hparts, List.map_cons]
    rfl

/-! ## Lines -/

/-- A view of texts that goes through them part by part and leaves the tags alone shows no more of a
line when its components have been marked. -/
theorem markUtilities_view_markUtilities {view : List Char → List Char}
    (hview : ∀ first second, view (first ++ second) = view first ++ view second)
    (hcomponent : view Role.component.tag.toList = Role.component.tag.toList)
    (hutility : view Role.utility.tag.toList = Role.utility.tag.toList) (cs : List Char) :
    markUtilities (view (markUtilities cs)) = markUtilities (view cs) :=
  replaceAll_hom_replaceAll (by decide) (by decide) (by decide) hview hcomponent hutility cs

/-- The capitals of the known names do not show in the plain text. -/
theorem plain_capitalize (cs : List Char) : plain (capitalize cs) = plain cs := by
  rw [plain, capitalize, map_replaceAll (by decide) (by decide) (by decide),
    map_replaceAll (by decide) (by decide) (by decide), plain]

/-- The tags of utilities do not show in the plain text. -/
theorem plain_retag (cs : List Char) : plain (retag cs) = plain cs := by
  rcases retag_cases cs with hmarked | ⟨hkept, -⟩
  · rw [hmarked]
    exact markUtilities_view_markUtilities (fun _ _ => List.map_append) (by decide) (by decide) cs
  · rw [hkept]

/-- Arrows may be spaced before or after. -/
theorem plain_spaceArrows (cs : List Char) : plain (spaceArrows cs) = spaceArrows (plain cs) := by
  rw [plain, ← spaceArrows_map_toLower, ← spaceArrows_markUtilities, plain]

/-- Read with small letters and utilities for components, the tidied line is the line with its
arrows spaced. -/
theorem plain_tidyLine (line : List Char) : plain (tidyLine line) = spaceArrows (plain line) := by
  rw [tidyLine, plain_retag, plain_spaceArrows, plain_capitalize]

/-- Two texts lose their gaps each on its own. -/
theorem withoutGaps_append (first second : List Char) :
    withoutGaps (first ++ second) = withoutGaps first ++ withoutGaps second :=
  List.filter_append first second

/-- Of spaces and tabs nothing is left. -/
theorem withoutGaps_of_blank (h : ∀ c ∈ cs, isSpaceOrTab c) : withoutGaps cs = [] :=
  List.filter_eq_nil_iff.mpr fun c hc => by simp [h c hc]

/-- Lines that are the same but for their gaps have the same characters beside spaces and tabs. -/
theorem SameButForGaps.withoutGaps_eq {ds : List Char} (h : SameButForGaps cs ds) :
    withoutGaps cs = withoutGaps ds := by
  induction h with
  | nil => rfl
  | @keep c cs ds _ _ ih =>
    rw [← List.singleton_append, withoutGaps_append, ih, ← withoutGaps_append,
      List.singleton_append]
  | arrow _ hlead htail hlead' htail' _ ih =>
    simp only [withoutGaps_append, withoutGaps_of_blank hlead, withoutGaps_of_blank htail,
      withoutGaps_of_blank hlead', withoutGaps_of_blank htail', ih]

/-- Components are marked after the gaps are gone or before. -/
theorem bare_eq (cs : List Char) : bare cs = markUtilities (withoutGaps (plain cs)) := by
  have hcommute : (withoutGaps cs).map Char.toLower = withoutGaps (cs.map Char.toLower) := by
    rw [withoutGaps, withoutGaps, List.filter_map]
    congr 2
    funext c
    rw [Function.comp_apply, isSpaceOrTab_toLower]
  rw [bare, plain, hcommute, plain,
    markUtilities_view_markUtilities withoutGaps_append (by decide) (by decide)]

/-- Tidying leaves the bare text of a line as it is. -/
theorem bare_tidyLine (line : List Char) : bare (tidyLine line) = bare line := by
  have hsame := (sameButForGaps_spaceArrows (plain line)).withoutGaps_eq
  rw [bare_eq, plain_tidyLine, ← hsame, ← bare_eq]

/-! ## Texts -/

/-- At a newline the bare text is made part by part. -/
theorem bare_append_newline (first second : List Char) :
    bare (first ++ '\n' :: second) = bare first ++ '\n' :: bare second := by
  have hnewline : withoutGaps (first ++ '\n' :: second) =
      withoutGaps first ++ (['\n'] ++ withoutGaps second) := by
    rw [withoutGaps_append]
    rfl
  rw [bare, plain, hnewline, List.map_append, List.map_append]
  exact replaceAll_append_of_isApart (by decide) (by decide) _ _

/-- The bare text is made line by line. -/
theorem bare_joinWith (lines : List (List Char)) :
    bare (joinWith '\n' lines) = joinWith '\n' (lines.map bare) := by
  induction lines with
  | nil => rfl
  | cons line lines ih =>
    cases lines with
    | nil => rfl
    | cons next lines => simp only [joinWith, List.map_cons, bare_append_newline, ih]

/-- Tidying changes nothing but spaces and tabs, the case of letters and the tags of components; and
of the spaces and tabs of a line, it changes none but those next to an arrow. -/
theorem tidy_changes_only_gaps (text : List Char) :
    bare (tidy text) = bare text ∧
      List.Forall₂ (fun line tidied => SameButForGaps (plain line) (plain tidied))
        (splitAt '\n' text) (splitAt '\n' (tidy text)) := by
  constructor
  · have hlines : bare ∘ tidyLine = bare := funext bare_tidyLine
    rw [tidy, bare_joinWith, List.map_map, hlines, ← bare_joinWith, joinWith_splitAt]
  · rw [splitAt_tidy, List.forall₂_map_right_iff, List.forall₂_same]
    intro line _
    rw [plain_tidyLine]
    exact sameButForGaps_spaceArrows (plain line)

end CallAtlas.Tidy
