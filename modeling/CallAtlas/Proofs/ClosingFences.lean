import CallAtlas.Proofs.WrappedReplies

/-!
# Closing fences

Only a fence at the very end of a reply counts as the closing one.  Where a remark follows the
closing fence, the fence is not dropped, and what is looked at and then accepted is all that stands
below the first line: the text, the closing fence and the remark (`ClosedOnce.exists_unfenced`).
The grammar cannot tell, since a text opens in it by its first line alone, and a fence opens in none
(`ClosedOnce.opens_unfenced_iff`).

The main statement, `fence_before_text_is_kept`, says for every reply with one closing fence what is
accepted.
-/

set_option autoImplicit false

namespace CallAtlas

open Text

namespace Revision

variable {g : Grammar} {drawn reply info closing text : List Char} {inner after : List (List Char)}

/-! ## Lines with newlines behind them -/

/-- Some lines with a newline behind each. -/
def ended (lines : List (List Char)) : List Char := lines.flatMap (· ++ ['\n'])

/-- Lines in front of others are joined to them with a newline behind each. -/
theorem joinWith_append_cons (lines : List (List Char)) (line : List Char)
    (more : List (List Char)) :
    joinWith '\n' (lines ++ line :: more) = ended lines ++ joinWith '\n' (line :: more) := by
  induction lines with
  | nil => rfl
  | cons first lines ih =>
    rw [List.cons_append, ← List.singleton_append, joinWith_append (by simp) (by simp), ih]
    simp [ended, joinWith]

/-- With newlines behind them, lines are their join and one more newline. -/
theorem ended_eq {lines : List (List Char)} (h : lines ≠ []) :
    ended lines = joinWith '\n' lines ++ ['\n'] := by
  have hjoin := joinWith_append_cons lines [] []
  rw [joinWith_append h (by simp)] at hjoin
  simpa [joinWith] using hjoin.symm

/-- The last of these newlines is trimmed. -/
theorem trim_ended (lines : List (List Char)) :
    trim (ended lines) = trim (joinWith '\n' lines) := by
  by_cases h : lines = []
  · rw [h]
    rfl
  · rw [ended_eq h, trim_append_newline]

/-- Lines in front of a text that opens in no grammar decide whether the whole opens in one. -/
theorem opens_ended_append (h : ¬g.opens text) :
    g.opens (ended inner ++ text) ↔ g.opens (joinWith '\n' inner) := by
  by_cases hinner : inner = []
  · have hnot : ¬g.opens [] := by cases g <;> decide
    rw [hinner]
    exact iff_of_false h hnot
  · rw [ended_eq hinner, ← List.append_cons]
    exact Grammar.opens_append_newline h

/-! ## Replies with one closing fence -/

/-- A reply begins with a fence, if the blanks around it do not count, and just one of its later
lines is a fence. -/
structure ClosedOnce (reply info : List Char) (inner : List (List Char)) (closing : List Char)
    (after : List (List Char)) : Prop where
  /-- The lines of the reply. -/
  lines : (trim reply).splitOn '\n' = (fence ++ info) :: (inner ++ closing :: after)
  /-- The closing fence stands on a line of its own. -/
  closing : trim closing = fence
  /-- No line between the fences is one. -/
  inner : ∀ line ∈ inner, trim line ≠ fence
  /-- No line after them is one. -/
  after : ∀ line ∈ after, trim line ≠ fence

/-- A reply with one closing fence begins with a fence and its first line. -/
theorem ClosedOnce.trim_eq (h : ClosedOnce reply info inner closing after) :
    trim reply = fence ++ (info ++ '\n' :: joinWith '\n' (inner ++ closing :: after)) := by
  have hjoin := joinWith_splitAt '\n' (trim reply)
  rw [splitAt_eq_splitOn, h.lines, ← List.singleton_append, joinWith_append (by simp) (by simp)]
    at hjoin
  rw [← hjoin]
  simp [joinWith]

/-- The lines of the reply have no newlines inside. -/
theorem ClosedOnce.not_mem (h : ClosedOnce reply info inner closing after) {line : List Char}
    (hline : line ∈ (fence ++ info) :: (inner ++ closing :: after)) : '\n' ∉ line := by
  rw [← h.lines, ← splitAt_eq_splitOn] at hline
  exact not_mem_of_mem_splitAt hline

/-- What begins with the closing line opens in no grammar. -/
theorem not_opens_of_closing (h : trim closing = fence) (more : List Char) :
    ¬g.opens (closing ++ more) := by
  obtain ⟨lead, tail, hsplit, hlead, -⟩ := exists_trim closing
  rw [h] at hsplit
  have htrim : trim (closing ++ more) = fence ++ trimEnd (tail ++ more) := by
    rw [hsplit, List.append_assoc, List.append_assoc, trim_append_of_blank hlead,
      trim_word_append (by decide) isBlank_of_mem_fence]
  rw [← Grammar.opens_trim, htrim]
  exact Grammar.not_opens_of_fence (List.prefix_append _ _)

/-! ## What is left without fences -/

/-- Without its first line the reply loses three more characters if a fence ends it, and the blanks
around the rest. -/
theorem ClosedOnce.unfenced_eq (h : ClosedOnce reply info inner closing after) :
    unfenced reply =
      if fence <:+ joinWith '\n' (inner ++ closing :: after) then
        trim ((joinWith '\n' (inner ++ closing :: after)).take
          ((joinWith '\n' (inner ++ closing :: after)).length - 3))
      else trim (joinWith '\n' (inner ++ closing :: after)) := by
  have hinfo : '\n' ∉ info := fun hmem =>
    h.not_mem List.mem_cons_self (List.mem_append_right fence hmem)
  exact unfenced_of_lines h.trim_eq hinfo

/-- What a reply ends in has no blanks at its end. -/
theorem ClosedOnce.trimEnd_eq (h : ClosedOnce reply info inner closing after)
    {first last : List Char}
    (hsplit : joinWith '\n' (inner ++ closing :: after) = first ++ last) : trimEnd last = last := by
  have hbody : trimEnd (info ++ '\n' :: (first ++ last)) = info ++ '\n' :: (first ++ last) := by
    rw [← hsplit]
    exact trimEnd_of_fence h.trim_eq
  rw [List.append_cons, ← List.append_assoc] at hbody
  exact trimEnd_of_append hbody

/-- A fence that ends the reply is dropped with its first line. -/
theorem ClosedOnce.unfenced_of_nil (h : ClosedOnce reply info inner closing []) :
    unfenced reply = trim (joinWith '\n' inner) := by
  obtain ⟨lead, tail, hclosing, hlead, htail⟩ := exists_trim closing
  rw [h.closing] at hclosing
  have hjoin : joinWith '\n' (inner ++ [closing]) = ended inner ++ closing :=
    joinWith_append_cons inner closing []
  obtain rfl : tail = [] := by
    have hsplit :
        joinWith '\n' (inner ++ [closing]) = (ended inner ++ (lead ++ fence)) ++ tail := by
      rw [hjoin, hclosing]
      simp only [List.append_assoc]
    rw [← h.trimEnd_eq hsplit]
    exact trimEnd_append_blank htail []
  have hbody : joinWith '\n' (inner ++ [closing]) = (ended inner ++ lead) ++ fence := by
    rw [hjoin, hclosing, List.append_nil, List.append_assoc]
  rw [h.unfenced_eq, hbody, if_pos (List.suffix_append _ _), take_append_fence,
    trim_append_blank hlead, trim_ended]

/-- A fence that does not end the reply is kept, and so is the text behind it up to a fence that
does. -/
theorem ClosedOnce.exists_unfenced (h : ClosedOnce reply info inner closing after)
    (hafter : after ≠ []) :
    ∃ kept, unfenced reply = trim (ended inner ++ (closing ++ '\n' :: kept)) ∧
      trimEnd kept ≠ [] ∧
      (joinWith '\n' after = trimEnd kept ∨ joinWith '\n' after = kept ++ fence) := by
  have hjoin : joinWith '\n' (inner ++ closing :: after) =
      (ended inner ++ closing) ++ '\n' :: joinWith '\n' after := by
    rw [joinWith_append_cons, ← List.singleton_append, joinWith_append (by simp) hafter]
    simp [joinWith]
  by_cases hfence : fence <:+ joinWith '\n' after
  · obtain ⟨kept, hkept⟩ := hfence
    have hbody : joinWith '\n' (inner ++ closing :: after) =
        (ended inner ++ (closing ++ '\n' :: kept)) ++ fence := by
      rw [hjoin, ← hkept]
      simp only [List.append_assoc, List.cons_append]
    refine ⟨kept, ?_, fun hnil => ?_, Or.inr hkept.symm⟩
    · rw [h.unfenced_eq, hbody, if_pos (List.suffix_append _ _), take_append_fence]
    · -- The last line would be a fence.
      have hblank := isBlank_of_trimEnd_eq_nil hnil
      obtain ⟨parts, last, hparts, hlines⟩ :=
        splitAt_append_of_not_mem (by decide : '\n' ∉ fence) kept
      have hsplit : splitAt '\n' (kept ++ fence) = after := by
        rw [hkept, splitAt_joinWith hafter fun line hline => h.not_mem (by simp [hline])]
      have hmem : last ∈ splitAt '\n' kept := by simp [hparts]
      have hlast : last <:+: kept :=
        (infix_iff_exists_part (not_mem_of_mem_splitAt hmem)).mpr ⟨last, hmem, List.infix_rfl⟩
      refine h.after (last ++ fence) (by simp [← hsplit, hlines]) ?_
      rw [trim_append_of_blank fun c hc => hblank c (hlast.subset hc)]
      decide
  · have hnot : ¬fence <:+ joinWith '\n' (inner ++ closing :: after) := by
      rw [hjoin]
      exact fun hsuffix => hfence (suffix_of_not_mem (by decide) hsuffix)
    have hend : trimEnd (['\n'] ++ joinWith '\n' after) = ['\n'] ++ joinWith '\n' after :=
      h.trimEnd_eq hjoin
    have hlast := trimEnd_of_append hend
    refine ⟨joinWith '\n' after, ?_, fun hnil => ?_, Or.inl hlast.symm⟩
    · rw [h.unfenced_eq, if_neg hnot, hjoin, List.append_assoc]
    · rw [← hlast, hnil] at hend
      exact absurd hend (by decide)

/-- Whether the reply without fences opens in a grammar is up to the text between them. -/
theorem ClosedOnce.opens_unfenced_iff (h : ClosedOnce reply info inner closing after) :
    g.opens (unfenced reply) ↔ g.opens (joinWith '\n' inner) := by
  by_cases hafter : after = []
  · subst hafter
    rw [h.unfenced_of_nil, Grammar.opens_trim]
  · obtain ⟨kept, hkept, -, -⟩ := h.exists_unfenced hafter
    rw [hkept, Grammar.opens_trim]
    exact opens_ended_append (not_opens_of_closing h.closing _)

/-- **A closing fence is dropped only at the end of a reply.**  Whether a reply with one closing
fence is accepted depends on the text between the fences alone.  If the reply ends there, this text
is what is accepted; but if more text follows, then the closing fence and that text are accepted
with it, and only a fence at the very end is dropped. -/
theorem fence_before_text_is_kept (h : ClosedOnce reply info inner closing after) :
    (¬g.opens (joinWith '\n' inner) → accept drawn reply g = drawn) ∧
      (g.opens (joinWith '\n' inner) → after = [] →
        accept drawn reply g = trim (joinWith '\n' inner)) ∧
      (g.opens (joinWith '\n' inner) → after ≠ [] → ∃ kept, kept ≠ [] ∧
        accept drawn reply g =
          (joinWith '\n' inner).dropWhile isBlank ++ '\n' :: (closing ++ '\n' :: kept) ∧
        (joinWith '\n' after = kept ∨ ∃ blanks, (∀ c ∈ blanks, isBlank c) ∧
          joinWith '\n' after = kept ++ (blanks ++ fence))) := by
  refine ⟨fun hnot => ?_, fun hopens hafter => ?_, fun hopens hafter => ?_⟩
  · rw [accept, if_neg (h.opens_unfenced_iff.not.mpr hnot)]
  · subst hafter
    rw [accept, if_pos (h.opens_unfenced_iff.mpr hopens), h.unfenced_of_nil]
  · obtain ⟨kept, hkept, hne, htext⟩ := h.exists_unfenced hafter
    have hinner : inner ≠ [] := by
      rintro rfl
      cases g <;> exact absurd hopens (by decide)
    have hfirst : (joinWith '\n' inner).dropWhile isBlank ≠ [] := by
      intro hnil
      rw [← Grammar.opens_trim, trim, hnil] at hopens
      cases g <;> exact absurd hopens (by decide)
    refine ⟨trimEnd kept, hne, ?_, ?_⟩
    · have hparts : ended inner ++ (closing ++ '\n' :: kept) =
          joinWith '\n' inner ++ ('\n' :: (closing ++ ['\n'])) ++ kept := by
        rw [ended_eq hinner]
        simp only [List.append_assoc, List.cons_append, List.nil_append]
      rw [accept, if_pos (h.opens_unfenced_iff.mpr hopens), hkept, hparts,
        trim_append_append hfirst hne]
      simp only [List.append_assoc, List.cons_append, List.nil_append]
    · obtain ⟨blanks, hsplit, hblanks⟩ := exists_trimEnd kept
      refine htext.imp id fun hfence => ⟨blanks, hblanks, ?_⟩
      rw [← List.append_assoc, ← hsplit, hfence]

/-- A fenced diagram with the newlines of another system. -/
theorem fenced_component_diagram_is_accepted :
    ClosedOnce "```plantuml\r\n@startuml\r\n@enduml\r\n```\r\n".toList "plantuml\r".toList
        ["@startuml\r".toList, "@enduml\r".toList] fence [] ∧
      Grammar.component.opens (joinWith '\n' ["@startuml\r".toList, "@enduml\r".toList]) ∧
      accept [] "```plantuml\r\n@startuml\r\n@enduml\r\n```\r\n".toList .component =
        "@startuml\r\n@enduml".toList := by
  have hclosed : ClosedOnce "```plantuml\r\n@startuml\r\n@enduml\r\n```\r\n".toList
      "plantuml\r".toList ["@startuml\r".toList, "@enduml\r".toList] fence [] :=
    ⟨by decide +kernel, by decide, by decide, by decide⟩
  have hopens : Grammar.component.opens
      (joinWith '\n' ["@startuml\r".toList, "@enduml\r".toList]) := by decide
  obtain ⟨-, hends, -⟩ := fence_before_text_is_kept hclosed
  exact ⟨hclosed, hopens, (hends hopens rfl).trans (by decide)⟩

/-- With a remark behind it, the closing fence comes into the diagram, and the remark as well. -/
theorem remark_behind_fence_is_accepted :
    ClosedOnce "```mermaid\ngraph LR\n    A --> B\n```\nHope this helps!".toList "mermaid".toList
        ["graph LR".toList, "    A --> B".toList] fence ["Hope this helps!".toList] ∧
      accept "graph LR\n    A --> B".toList
          "```mermaid\ngraph LR\n    A --> B\n```\nHope this helps!".toList .graph =
        "graph LR\n    A --> B\n```\nHope this helps!".toList ∧
      "graph LR\n    A --> B\n```\nHope this helps!".toList ≠ "graph LR\n    A --> B".toList ∧
      ¬"graph LR\n    A --> B\n```\nHope this helps!".toList <:+:
        joinWith '\n' ["graph LR".toList, "    A --> B".toList] :=
  ⟨⟨by decide +kernel, by decide, by decide, by decide⟩, by decide +kernel, by decide +kernel,
    by decide +kernel⟩

end Revision

end CallAtlas
