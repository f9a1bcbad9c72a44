import CallAtlas.Diagram.Render
import CallAtlas.Proofs.TidyLines

/-!
# Tidying is local to lines

What stands on one line of a text has no say in how another is tidied: a text may be cut at any
newline and each side tidied on its own (`tidy_append_newline`), so line by line the tidied text has
the tidied lines of the text, and as many of them.  All of this rests on `splitAt_tidy`, which says
that no rewrite takes or makes a newline.

Readers of lines that pass over an empty last one count the same lines too, since a line is empty
when it is tidy only if it was empty before (`tidyLine_eq_nil_iff`).
-/

set_option autoImplicit false

namespace CallAtlas.Tidy

open Text

/-- A text may be cut at a newline and each side tidied on its own. -/
theorem tidy_append_newline (first second : List Char) :
    tidy (first ++ '\n' :: second) = tidy first ++ '\n' :: tidy second := by
  have hne : ∀ cs, (splitAt '\n' cs).map tidyLine ≠ [] := fun cs hnil =>
    splitAt_ne_nil '\n' cs (List.map_eq_nil_iff.mp hnil)
  rw [tidy, splitAt_append_cons, List.map_append, joinWith_append (hne first) (hne second), tidy,
    tidy]

/-- Tidying neither makes nor removes a newline. -/
theorem count_newline_tidy (text : List Char) : (tidy text).count '\n' = text.count '\n' := by
  have hparts : (splitAt '\n' (tidy text)).length = (splitAt '\n' text).length := by
    rw [splitAt_tidy, List.length_map]
  rw [length_splitAt, length_splitAt] at hparts
  exact Nat.succ.inj hparts

/-! ## Lines that are empty -/

/-- Replacing occurrences by more than nothing does not empty a text. -/
theorem replaceAll_ne_nil {old new cs : List Char} (hnew : new ≠ []) (h : cs ≠ []) :
    replaceAll old new cs ≠ [] := by
  obtain ⟨c, cs, rfl⟩ := List.exists_cons_of_ne_nil h
  rw [replaceAll, replaceAfter]
  split
  · exact List.append_ne_nil_of_left_ne_nil hnew _
  · exact List.cons_ne_nil _ _

/-- Spacing arrows does not empty a line. -/
theorem spaceArrows_ne_nil {line : List Char} (h : line ≠ []) : spaceArrows line ≠ [] := by
  obtain ⟨c, line, rfl⟩ := List.exists_cons_of_ne_nil h
  rw [spaceArrows, Probe.substitute, Probe.substituteAfter]
  split
  · exact List.cons_ne_nil _ _
  · exact List.cons_ne_nil _ _

/-- Tidying empties no line that is not empty. -/
theorem tidyLine_eq_nil_iff {line : List Char} : tidyLine line = [] ↔ line = [] := by
  constructor
  · contrapose
    intro h
    have hcapitals : capitalize line ≠ [] :=
      replaceAll_ne_nil (by decide) (replaceAll_ne_nil (by decide) h)
    have harrows : spaceArrows (capitalize line) ≠ [] := spaceArrows_ne_nil hcapitals
    rw [tidyLine, retag]
    split
    · exact replaceAll_ne_nil (by decide) harrows
    · exact harrows
  · rintro rfl
    rfl

/-- A text has as many lines when it is tidy, whether or not it ends in a newline. -/
theorem length_lines_tidy (text : List Char) :
    (lines (tidy text)).length = (lines text).length := by
  have hempty : (fun line => !line.isEmpty) ∘ tidyLine = fun line => !line.isEmpty := by
    funext line
    rw [Function.comp_apply, Bool.eq_iff_iff]
    simp [tidyLine_eq_nil_iff]
  have hlast : (((splitAt '\n' text).map tidyLine).getLast?.toList.filter fun line =>
      !line.isEmpty).length =
      ((splitAt '\n' text).getLast?.toList.filter fun line => !line.isEmpty).length := by
    rw [List.getLast?_map, Option.toList_map, List.filter_map, hempty, List.length_map]
  rw [lines, lines, splitAt_tidy, List.length_append, List.length_append, hlast]
  simp only [List.length_map, List.length_dropLast]

/-- **Tidying goes line by line.**  A text may be cut at any newline and each side tidied on its
own. There are as many newlines as before, and between them stand the tidied lines of the text,
whatever these end in; so no diagram that is drawn changes its number of lines. -/
theorem tidy_goes_line_by_line :
    (∀ first second, tidy (first ++ '\n' :: second) = tidy first ++ '\n' :: tidy second) ∧
      (∀ text, (tidy text).count '\n' = text.count '\n' ∧
        (tidy text).splitOn '\n' = (text.splitOn '\n').map tidyLine) ∧
      ∀ (g : Grammar) (forest : CallForest) (defs : List Definition),
        ((tidy (g.render forest defs).text.toList).splitOn '\n').length =
            ((g.render forest defs).text.toList.splitOn '\n').length ∧
          (lines (tidy (g.render forest defs).text.toList)).length =
            (lines (g.render forest defs).text.toList).length := by
  have hlines : ∀ text, (tidy text).splitOn '\n' = (text.splitOn '\n').map tidyLine := by
    intro text
    rw [← splitAt_eq_splitOn, ← splitAt_eq_splitOn, splitAt_tidy]
  refine ⟨tidy_append_newline, fun text => ⟨count_newline_tidy text, hlines text⟩, ?_⟩
  intro g forest defs
  exact ⟨by rw [hlines, List.length_map], length_lines_tidy _⟩

/-- A line keeps its carriage return, and an empty last line stays. -/
example : (tidy "A-->B\r\n\n[Formatdate]\n".toList).splitOn '\n' =
    ["A --> B\r".toList, [], "[FormatDate]".toList, []] := by
  decide +kernel

end CallAtlas.Tidy
