import CallAtlas.Diagram.Tidy
import CallAtlas.Proofs.TextLines
import CallAtlas.Proofs.TextRewriting

/-!
# Tidying line by line

Tidying a text is tidying its lines, since no rewrite makes or removes a newline
(`splitAt_tidy`).  Within a line, the rewrites begin only at an `F` or `H` of a misspelt name, at
the `<` of a tag, or at an arrow with the spaces and tabs before it; what a line begins with
before any of these stays (`tidyLine_append`).
-/

set_option autoImplicit false

namespace CallAtlas.Tidy

open Text

/-! ## Newlines -/

/-- A match of an arrow is a run of spaces and tabs and then hyphens. -/
theorem arrow_matchHere {past input : List Char} {f : Found Char}
    (h : arrow.matchHere past input = some f) :
    (∀ c ∈ f.lead, isSpaceOrTab c) ∧ ∃ more, f.target = '-' :: more := by
  obtain ⟨-, hlead, htarget, -⟩ := Probe.matchHere_eq_some h
  refine ⟨Pattern.forall_of_mem_cuts_star_one hlead, ?_⟩
  obtain ⟨d, hd, hcut⟩ := List.mem_flatMap.mp htarget
  obtain ⟨e, -, heq⟩ := List.mem_map.mp hcut
  obtain ⟨a, ha, hrun⟩ := Pattern.exists_of_mem_cuts_one hd
  obtain rfl : a = '-' := by simpa using ha
  refine ⟨e.1, ?_⟩
  rw [← (Prod.mk.inj heq).1, hrun, List.singleton_append]

/-- Tidying a line puts in no newline. -/
theorem newline_not_mem_tidyLine {line : List Char} (h : '\n' ∉ line) : '\n' ∉ tidyLine line := by
  have hcapitals : '\n' ∉ capitalize line := by
    intro hmem
    rcases mem_replaceAll hmem with hmem | hmem
    · rcases mem_replaceAll hmem with hmem | hmem
      · exact h hmem
      · exact absurd hmem (by decide)
    · exact absurd hmem (by decide)
  have harrows : '\n' ∉ spaceArrows (capitalize line) := by
    intro hmem
    rcases Probe.mem_substitute hmem with hmem | ⟨past, input, f, hinput, hfound, hmem⟩
    · exact hcapitals hmem
    · have htarget : '\n' ∈ f.target := by simpa using hmem
      refine hcapitals (hinput.subset ?_)
      rw [← Probe.onward_of_matchHere hfound]
      simp [Found.onward, Found.whole, htarget]
  intro hmem
  rw [tidyLine, retag] at hmem
  split at hmem
  · rcases mem_replaceAll hmem with hmem | hmem
    · exact harrows hmem
    · exact absurd hmem (by decide)
  · exact harrows hmem

/-- The lines of a tidied text are the tidied lines of the text. -/
theorem splitAt_tidy (text : List Char) :
    splitAt '\n' (tidy text) = (splitAt '\n' text).map tidyLine := by
  refine splitAt_joinWith (by simpa using splitAt_ne_nil '\n' text) ?_
  intro part hpart
  obtain ⟨line, hline, rfl⟩ := List.mem_map.mp hpart
  exact newline_not_mem_tidyLine (not_mem_of_mem_splitAt hline)

/-! ## Beginnings that stay -/

/-- No arrow begins where something else than a hyphen follows the spaces and tabs. -/
theorem arrow_matchHere_eq_none {past input : List Char}
    (h : (input.dropWhile isSpaceOrTab).head? ≠ some '-') : arrow.matchHere past input = none := by
  cases hfound : arrow.matchHere past input with
  | none => rfl
  | some f =>
    obtain ⟨hlead, more, htarget⟩ := arrow_matchHere hfound
    refine absurd ?_ h
    rw [← Probe.onward_of_matchHere hfound, Found.onward, Found.whole, htarget, List.append_assoc,
      List.append_assoc, List.dropWhile_append_of_pos hlead]
    rfl

/-- In a line without hyphens no arrow is substituted. -/
theorem substituteAfter_arrow_of_not_mem {line : List Char} (h : '-' ∉ line) (past : List Char) :
    arrow.substituteAfter (fun f => ' ' :: f.target ++ [' ']) 0 past line = line := by
  have hnone : ∀ a later, a :: later <:+ line → ∀ past,
      arrow.matchHere past (a :: later ++ []) = none := by
    intro a later hsuffix past
    cases hfound : arrow.matchHere past (a :: later ++ []) with
    | none => rfl
    | some f =>
      obtain ⟨-, more, htarget⟩ := arrow_matchHere hfound
      have hmem : '-' ∈ f.onward := by simp [Found.onward, Found.whole, htarget]
      rw [Probe.onward_of_matchHere hfound, List.append_nil] at hmem
      exact absurd (hsuffix.subset hmem) h
  have hpassed : arrow.substituteAfter (fun f => ' ' :: f.target ++ [' ']) 0 past (line ++ []) =
      line ++ arrow.substituteAfter (fun f => ' ' :: f.target ++ [' ']) 0 (line.reverse ++ past)
        [] := Probe.substituteAfter_append hnone past
  rwa [Probe.substituteAfter, List.append_nil] at hpassed

/-- A line without hyphens has no arrows to be spaced. -/
theorem spaceArrows_of_not_mem {line : List Char} (h : '-' ∉ line) : spaceArrows line = line :=
  substituteAfter_arrow_of_not_mem h []

/-- Dropping from the front stops inside a list that has a symbol to stop at. -/
theorem head?_dropWhile_append {test : Char → Bool} {cs : List Char}
    (h : ∃ c ∈ cs, test c = false) (rest : List Char) :
    ∃ c ∈ cs, ((cs ++ rest).dropWhile test).head? = some c := by
  induction cs with
  | nil =>
    obtain ⟨c, hc, -⟩ := h
    exact absurd hc List.not_mem_nil
  | cons d cs ih =>
    by_cases hd : test d
    · obtain ⟨c, hc, hstop⟩ := h
      have hlater : c ∈ cs := by
        rcases List.mem_cons.mp hc with rfl | hc
        · rw [hd] at hstop
          exact absurd hstop (by decide)
        · exact hc
      obtain ⟨e, he, hhead⟩ := ih ⟨c, hlater, hstop⟩
      refine ⟨e, List.mem_cons_of_mem d he, ?_⟩
      rw [List.cons_append, List.dropWhile_cons_of_pos hd, hhead]
    · refine ⟨d, List.mem_cons_self, ?_⟩
      rw [List.cons_append, List.dropWhile_cons_of_neg hd]
      rfl

/-- Spacing the arrows passes over a beginning that has no hyphen and does not end in a space or
tab. -/
theorem spaceArrows_append {head : List Char} (hhyphen : '-' ∉ head)
    (hend : ∀ c ∈ head.getLast?, isSpaceOrTab c = false) (rest : List Char) :
    spaceArrows (head ++ rest) =
      head ++ arrow.substituteAfter (fun f => ' ' :: f.target ++ [' ']) 0 head.reverse rest := by
  rw [spaceArrows, Probe.substitute, Probe.substituteAfter_append, List.append_nil]
  intro a later hsuffix past
  refine arrow_matchHere_eq_none ?_
  -- Behind the spaces and tabs comes a character of the beginning.
  obtain ⟨before, hbefore⟩ := hsuffix
  have hlast : isSpaceOrTab ((a :: later).getLast (List.cons_ne_nil a later)) = false := by
    refine hend _ ?_
    rw [← hbefore, List.getLast?_append_of_ne_nil _ (List.cons_ne_nil a later),
      List.getLast?_eq_getLast_of_ne_nil (List.cons_ne_nil a later)]
    rfl
  obtain ⟨c, hc, hfirst⟩ := head?_dropWhile_append ⟨_, List.getLast_mem _, hlast⟩ rest
  rw [hfirst]
  intro hc_hyphen
  obtain rfl := Option.some.inj hc_hyphen
  exact hhyphen (hbefore ▸ List.mem_append_right before hc)

/-- What begins with a space begins with a space when its arrows have been spaced. -/
theorem substituteAfter_arrow_cons_space (past rest : List Char) :
    ∃ more, arrow.substituteAfter (fun f => ' ' :: f.target ++ [' ']) 0 past (' ' :: rest) =
      ' ' :: more := by
  rw [Probe.substituteAfter]
  split
  · exact ⟨_, rfl⟩
  · exact ⟨_, rfl⟩

/-- A character at which no rewrite begins, except for arrows with blanks before them. -/
def isInert (c : Char) : Bool :=
  c != 'F' && c != 'H' && c != '-' && c != '<'

/-- Blanks are inert. -/
theorem isInert_of_isBlank {c : Char} (h : isBlank c) : isInert c := by
  have hne : ∀ d, isBlank d = false → c ≠ d := by
    rintro d hd rfl
    rw [hd] at h
    exact absurd h (by decide)
  simp [isInert, hne 'F' (by decide), hne 'H' (by decide), hne '-' (by decide),
    hne '<' (by decide)]

/-- Among inert characters there is none that is not inert. -/
theorem not_mem_of_inert {c : Char} {head : List Char} (h : ∀ d ∈ head, isInert d)
    (hc : isInert c = false) : c ∉ head := by
  intro hmem
  rw [h c hmem] at hc
  exact absurd hc (by decide)

/-- A line without the first letters of the misspelt names and of a tag is tidy if its arrows are
spaced. -/
theorem tidyLine_of_spaceArrows_eq {line : List Char} (hF : 'F' ∉ line) (hH : 'H' ∉ line)
    (hbracket : '<' ∉ line) (h : spaceArrows line = line) : tidyLine line = line := by
  have hcapitals : capitalize line = line := by
    rw [capitalize]
    exact (congrArg _ (replaceAll_of_not_mem hF _ _)).trans (replaceAll_of_not_mem hH _ _)
  rw [tidyLine, hcapitals, h, retag]
  split
  · exact replaceAll_of_not_mem hbracket _ _
  · rfl

section Inert

variable {head : List Char} (hinert : ∀ c ∈ head, isInert c)

include hinert

/-- An inert beginning of a line stays, and the rest gets its capitals. -/
theorem capitalize_append (rest : List Char) :
    capitalize (head ++ rest) = head ++ capitalize rest := by
  have hF : 'F' ∉ head := not_mem_of_inert hinert (by decide)
  have hH : 'H' ∉ head := not_mem_of_inert hinert (by decide)
  rw [capitalize, capitalize]
  exact (congrArg _ (replaceAll_append hF _ _ _)).trans (replaceAll_append hH _ _ _)

/-- An inert beginning of a line stays when the line is retagged. -/
theorem retag_append (rest : List Char) : ∃ rest', retag (head ++ rest) = head ++ rest' := by
  have hbracket : '<' ∉ head := not_mem_of_inert hinert (by decide)
  rw [retag]
  split
  · exact ⟨_, replaceAll_append hbracket _ _ rest⟩
  · exact ⟨rest, rfl⟩

/-- Tidying keeps an inert beginning that does not end in a space or tab. -/
theorem tidyLine_append (hend : ∀ c ∈ head.getLast?, isSpaceOrTab c = false) (rest : List Char) :
    ∃ rest', tidyLine (head ++ rest) = head ++ rest' := by
  rw [tidyLine, capitalize_append hinert,
    spaceArrows_append (not_mem_of_inert hinert (by decide)) hend]
  exact retag_append hinert _

/-- A space after such a beginning stays where it is, though an arrow may follow it. -/
theorem tidyLine_append_space (hend : ∀ c ∈ head.getLast?, isSpaceOrTab c = false)
    (rest : List Char) : ∃ rest', tidyLine (head ++ ' ' :: rest) = head ++ ' ' :: rest' := by
  have hspace : ∀ c ∈ head ++ [' '], isInert c := by
    intro c hc
    rcases List.mem_append.mp hc with hc | hc
    · exact hinert c hc
    · rw [List.mem_singleton.mp hc]
      decide
  have hcapitals : capitalize (head ++ ' ' :: rest) = head ++ ' ' :: capitalize rest := by
    simpa using capitalize_append hspace rest
  obtain ⟨more, hmore⟩ := substituteAfter_arrow_cons_space head.reverse (capitalize rest)
  obtain ⟨rest', hretag⟩ := retag_append hspace more
  refine ⟨rest', ?_⟩
  rw [tidyLine, hcapitals, spaceArrows_append (not_mem_of_inert hinert (by decide)) hend, hmore]
  simpa using hretag

/-- An inert line is tidy. -/
theorem tidyLine_of_inert : tidyLine head = head :=
  tidyLine_of_spaceArrows_eq (not_mem_of_inert hinert (by decide))
    (not_mem_of_inert hinert (by decide)) (not_mem_of_inert hinert (by decide))
    (spaceArrows_of_not_mem (not_mem_of_inert hinert (by decide)))

end Inert

/-! ## Arrows with a space on each side -/

/-- A spaced arrow is matched with its two spaces. -/
theorem arrow_matchHere_spaced {tail : List Char}
    (h : ∀ c ∈ tail.head?, isSpaceOrTab c = false) (past : List Char) :
    arrow.matchHere past (" --> ".toList ++ tail) =
      some ⟨past, [' '], "-->".toList, [' '], tail⟩ := by
  cases tail with
  | nil => rfl
  | cons c tail =>
    have hc : isSpaceOrTab c = false := h c rfl
    have hspace : isSpaceOrTab ' ' = true := rfl
    have hhyphen : isSpaceOrTab '-' = false := rfl
    simp [arrow, Probe.matchHere, Pattern.search, Pattern.iterate, Pattern.all, Pattern.plus, hc,
      hspace, hhyphen]

/-- Between parts without hyphens, an arrow with one space on each side stays as it is. -/
theorem spaceArrows_of_spaced {head tail : List Char} (hhead : '-' ∉ head) (htail : '-' ∉ tail)
    (hend : ∀ c ∈ head.getLast?, isSpaceOrTab c = false)
    (hstart : ∀ c ∈ tail.head?, isSpaceOrTab c = false) :
    spaceArrows (head ++ " --> ".toList ++ tail) = head ++ " --> ".toList ++ tail := by
  have hfound := arrow_matchHere_spaced hstart head.reverse
  have hchars : " --> ".toList ++ tail = ' ' :: '-' :: '-' :: '>' :: ' ' :: tail := rfl
  rw [hchars] at hfound
  rw [List.append_assoc, spaceArrows_append hhead hend, hchars, Probe.substituteAfter, hfound]
  -- What the match takes has been passed over, and nothing is left to match.
  have hrest := substituteAfter_arrow_of_not_mem htail
    (' ' :: '>' :: '-' :: '-' :: ' ' :: head.reverse)
  exact congrArg (fun rest => head ++ (" --> ".toList ++ rest)) hrest

/-- A line of inert parts around an arrow with one space on each side is tidy. -/
theorem tidyLine_of_spaced {head tail : List Char} (hhead : ∀ c ∈ head, isInert c)
    (htail : ∀ c ∈ tail, isInert c) (hend : ∀ c ∈ head.getLast?, isSpaceOrTab c = false)
    (hstart : ∀ c ∈ tail.head?, isSpaceOrTab c = false) :
    tidyLine (head ++ " --> ".toList ++ tail) = head ++ " --> ".toList ++ tail := by
  have hnot : ∀ c, isInert c = false → c ∉ " --> ".toList →
      c ∉ head ++ " --> ".toList ++ tail := by
    intro c hc harrow hmem
    rw [List.mem_append, List.mem_append] at hmem
    rcases hmem with (hmem | hmem) | hmem
    · exact not_mem_of_inert hhead hc hmem
    · exact harrow hmem
    · exact not_mem_of_inert htail hc hmem
  exact tidyLine_of_spaceArrows_eq (hnot _ (by decide) (by decide)) (hnot _ (by decide) (by decide))
    (hnot _ (by decide) (by decide))
    (spaceArrows_of_spaced (not_mem_of_inert hhead (by decide))
      (not_mem_of_inert htail (by decide)) hend hstart)

end CallAtlas.Tidy
