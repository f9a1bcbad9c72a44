import CallAtlas.Proofs.CharClasses
import CallAtlas.Proofs.DiagramOpening
import CallAtlas.Proofs.LineLocality
import CallAtlas.Proofs.TidyNormalForm

/-!
# Lines with a tag

What tidying makes of a line on which nothing but its one tag looks like a tag or an arrow: the two
known names get their capitals on both sides of the tag, and the tag is that of a utility if it was
one, or if it was that of a component and the line says utility (`tidyLine_of_tagged`).

A document is tidied line by line even where what is written as one line holds newlines of its own,
as the names of functions and files may (`splitOn_tidy_text`).
-/

set_option autoImplicit false

namespace CallAtlas.Tidy

open Text

variable {word cs line head tail : List Char} {c d : Char} {role other : Role}

/-- A character that no tag and no arrow begins with, and that no line ends in. -/
def isFree (c : Char) : Bool := c != '<' && c != '-' && c != '\n'

/-- The characters of plain names are free. -/
theorem isFree_of_isPlainChar (h : isPlainChar c) : isFree c := by
  have hbracket : c ≠ '<' := ne_of_isPlainChar h (by decide)
  have hhyphen : c ≠ '-' := ne_of_isPlainChar h (by decide)
  have hnewline : c ≠ '\n' := ne_of_isPlainChar h (by decide)
  simp [isFree, hbracket, hhyphen, hnewline]

/-- Among free characters there is none that is not free. -/
theorem not_mem_of_free (h : ∀ c ∈ cs, isFree c) (hd : isFree d = false) : d ∉ cs := by
  intro hmem
  rw [h d hmem] at hd
  exact absurd hd (by decide)

/-! ## Capitals -/

/-- A word apart from both misspelt names splits a line into parts that get their capitals alone. -/
theorem capitalize_append_word (h : isApart "Formatdate".toList word)
    (h' : isApart "Handlesubmit".toList word) (first second : List Char) :
    capitalize (first ++ (word ++ second)) = capitalize first ++ (word ++ capitalize second) := by
  rw [capitalize, replaceAll_append_of_isApart (by decide) h,
    replaceAll_append_of_isApart (by decide) h', capitalize, capitalize]

/-- Capitals bring nothing but letters into a line. -/
theorem mem_capitalize (h : c ∈ capitalize line) : c ∈ line ∨ c.isAlpha := by
  have hformat : "FormatDate".toList.all Char.isAlpha := by decide
  have hhandle : "HandleSubmit".toList.all Char.isAlpha := by decide
  rcases mem_replaceAll h with h | h
  · rcases mem_replaceAll h with h | h
    · exact Or.inl h
    · exact Or.inr (List.all_eq_true.mp hformat c h)
  · exact Or.inr (List.all_eq_true.mp hhandle c h)

/-- If case is ignored, capitals change nothing. -/
theorem map_fold_capitalize (line : List Char) : (capitalize line).map fold = line.map fold := by
  rw [capitalize, map_replaceAll (by decide) (by decide) (by decide),
    map_replaceAll (by decide) (by decide) (by decide)]

/-- With its capitals, a line of free characters still is one. -/
theorem isFree_of_mem_capitalize (h : ∀ c ∈ line, isFree c) : ∀ c ∈ capitalize line, isFree c := by
  intro c hc
  rcases mem_capitalize hc with hline | halpha
  · exact h c hline
  · exact isFree_of_isPlainChar (isPlainChar_of_isAlpha halpha)

/-- A line without hyphens has no arrows to be spaced. -/
theorem tidyLine_of_not_mem (h : '-' ∉ line) : tidyLine line = retag (capitalize line) := by
  have hcapitals : '-' ∉ capitalize line := fun hmem => by
    rcases mem_capitalize hmem with hmem | hmem
    · exact h hmem
    · exact absurd hmem (by decide)
  rw [tidyLine, spaceArrows_of_not_mem hcapitals]

/-! ## One tag -/

/-- Where no other tag can begin, a line bears the tag of one role only. -/
theorem tag_infix_iff (hhead : ∀ c ∈ head, isFree c) (htail : ∀ c ∈ tail, isFree c) :
    other.tag.toList <:+: head ++ (role.tag.toList ++ tail) ↔ other = role := by
  have hopens : '<' ∈ other.tag.toList := by cases other <;> decide
  constructor
  · intro hocc
    by_contra hne
    have hapart : isApart other.tag.toList role.tag.toList := by
      cases other <;> cases role <;> first | decide | exact absurd rfl hne
    rcases infix_of_isApart hapart hocc with hocc | hocc
    · exact not_mem_of_free hhead (by decide) (hocc.subset hopens)
    · exact not_mem_of_free htail (by decide) (hocc.subset hopens)
  · rintro rfl
    exact ⟨head, tail, List.append_assoc _ _ _⟩

/-- Among free characters there is no tag. -/
theorem not_tag_infix (h : ∀ c ∈ line, isFree c) : ¬role.tag.toList <:+: line := by
  have hopens : '<' ∈ role.tag.toList := by cases role <;> decide
  exact fun hocc => not_mem_of_free h (by decide) (hocc.subset hopens)

/-- A line without arrows and tags gets nothing but its capitals. -/
theorem tidyLine_of_free (h : ∀ c ∈ line, isFree c) : tidyLine line = capitalize line := by
  have hcapitals := isFree_of_mem_capitalize h
  rw [tidyLine_of_not_mem (not_mem_of_free h (by decide)), retag]
  split
  · exact replaceAll_of_not_mem (not_mem_of_free hcapitals (by decide)) _ _
  · rfl

/-- A line with one tag gets its capitals, and the tag of a utility for that of a component if its
names say so. -/
theorem tidyLine_of_tagged (hhead : ∀ c ∈ head, isFree c) (htail : ∀ c ∈ tail, isFree c) :
    tidyLine (head ++ (role.tag.toList ++ tail)) =
      capitalize head ++
        ((if role = .component ∧ namesUtility (capitalize (head ++ (role.tag.toList ++ tail))) then
          Role.utility else role).tag.toList ++ capitalize tail) := by
  have hhead' := isFree_of_mem_capitalize hhead
  have htail' := isFree_of_mem_capitalize htail
  have hline : '-' ∉ head ++ (role.tag.toList ++ tail) := by
    have htag : '-' ∉ role.tag.toList := by cases role <;> decide
    simp [not_mem_of_free hhead, not_mem_of_free htail, htag, isFree]
  have hcapitals : capitalize (head ++ (role.tag.toList ++ tail)) =
      capitalize head ++ (role.tag.toList ++ capitalize tail) :=
    capitalize_append_word (by cases role <;> decide) (by cases role <;> decide) head tail
  have hmeant : (hasFragment Role.component.tag.toList
      (capitalize (head ++ (role.tag.toList ++ tail))) &&
        namesUtility (capitalize (head ++ (role.tag.toList ++ tail)))) = true ↔
      role = .component ∧ namesUtility (capitalize (head ++ (role.tag.toList ++ tail))) := by
    rw [Bool.and_eq_true, hasFragment_iff_infix, hcapitals, tag_infix_iff hhead' htail', eq_comm]
  rw [tidyLine_of_not_mem hline, retag]
  simp only [hmeant]
  split
  · rename_i hcomponent
    have hkept : ∀ {cs : List Char}, (∀ c ∈ cs, isFree c) →
        replaceAll Role.component.tag.toList Role.utility.tag.toList cs = cs := fun h =>
      replaceAll_of_not_mem (not_mem_of_free h (by decide)) _ _
    rw [hcapitals, hcomponent.1, replaceAll_split (by decide) (by decide), hkept hhead',
      hkept htail']
  · exact hcapitals

/-! ## Written lines -/

/-- What stands in the document for some written lines, one of which may hold newlines. -/
def tidiedLines (lines : List String) : List (List Char) :=
  lines.flatMap fun line => (line.toList.splitOn '\n').map tidyLine

/-- The lines of a tidied document are its written lines, tidied. -/
theorem splitOn_tidy_text {doc : DiagramDocument} (h : doc.lines ≠ []) :
    (tidy doc.text.toList).splitOn '\n' = tidiedLines doc.lines := by
  rw [← splitAt_eq_splitOn, splitAt_tidy, doc.toList_text,
    splitAt_joinWith_eq_flatMap (by simpa using h),
    List.flatMap_map, List.map_flatMap, tidiedLines]
  simp only [splitAt_eq_splitOn]

/-- Written lines are tidied one after the other. -/
theorem tidiedLines_append (first second : List String) :
    tidiedLines (first ++ second) = tidiedLines first ++ tidiedLines second :=
  List.flatMap_append

/-- Written lines that are single are tidied each as one. -/
theorem tidiedLines_of_not_mem {lines : List String} (h : ∀ line ∈ lines, '\n' ∉ line.toList) :
    tidiedLines lines = lines.map fun line => tidyLine line.toList := by
  have hline : ∀ line ∈ lines,
      (line.toList.splitOn '\n').map tidyLine = [tidyLine line.toList] := by
    intro line hmem
    rw [← splitAt_eq_splitOn, splitAt_of_not_mem (h line hmem), List.map_singleton]
  rw [tidiedLines, List.flatMap_congr hline, List.map_eq_flatMap]

end CallAtlas.Tidy
