import CallAtlas.Diagram.Revision
import CallAtlas.Proofs.TextLines

/-!
# Fenced replies

A reply may bring its text in a code fence.  `Frames` says what text that is, case by case and
without a search: the reply has no fence, or a fence that is closed, or one that is not, or one
with nothing below its first line.  `frames_iff` says that `unfenced` finds just this text.

All cases are about a reply without blanks around it, and then no part that ends it has any blanks
at its end (`trimEnd_of_append`).
-/

set_option autoImplicit false

namespace CallAtlas

/-! ## Trimmed texts -/

namespace Text

/-- Trimming twice is trimming once. -/
theorem trim_trim (cs : List Char) : trim (trim cs) = trim cs := by
  obtain ⟨lead, tail, hsplit, hlead, htail⟩ := exists_trim cs
  calc
    trim (trim cs) = trim (lead ++ trim cs ++ tail) := by
      rw [trim_append_blank htail, trim_append_of_blank hlead]
    _ = trim cs := by rw [← hsplit]

/-- A text that does not end in a blank does so in no part at its end. -/
theorem trimEnd_of_append {xs ys : List Char} (h : trimEnd (xs ++ ys) = xs ++ ys) :
    trimEnd ys = ys := by
  obtain ⟨tail, hys, htail⟩ := exists_trimEnd ys
  have hwhole : trimEnd (xs ++ ys) = trimEnd (xs ++ trimEnd ys) := by
    calc
      trimEnd (xs ++ ys) = trimEnd ((xs ++ trimEnd ys) ++ tail) := by
        rw [List.append_assoc, ← hys]
      _ = trimEnd (xs ++ trimEnd ys) := trimEnd_append_blank htail _
  obtain ⟨dropped, hdropped, -⟩ := exists_trimEnd (xs ++ trimEnd ys)
  rw [← hwhole, h, List.append_assoc] at hdropped
  have hkept : trimEnd ys = ys ++ dropped := List.append_cancel_left hdropped
  have hnil : dropped ++ tail = [] := by
    rw [hkept, List.append_assoc] at hys
    exact List.self_eq_append_right.mp hys
  rw [hkept, (List.append_eq_nil_iff.mp hnil).1, List.append_nil]

end Text

namespace Revision

open Text

/-- A fence has no blanks. -/
theorem isBlank_of_mem_fence : ∀ c ∈ fence, isBlank c = false := by
  have hall : fence.all fun c => !isBlank c := by decide
  simpa using hall

/-! ## First lines -/

/-- What follows the first line is what stands behind its newline. -/
theorem afterFirstLine_append {info : List Char} (h : '\n' ∉ info) (body : List Char) :
    afterFirstLine (info ++ '\n' :: body) = body := by
  have hinfo : ∀ c ∈ info, c != '\n' := fun c hc => bne_iff_ne.mpr fun heq => h (heq ▸ hc)
  rw [afterFirstLine, List.dropWhile_append_of_pos hinfo]
  rfl

/-- Nothing follows a single line. -/
theorem afterFirstLine_of_not_mem {info : List Char} (h : '\n' ∉ info) :
    afterFirstLine info = [] := by
  have hinfo : ∀ c ∈ info, c != '\n' := fun c hc => bne_iff_ne.mpr fun heq => h (heq ▸ hc)
  rw [afterFirstLine, List.dropWhile_eq_nil_iff.mpr hinfo]
  rfl

/-! ## What a reply frames -/

/-- A reply without blanks around it frames a text. -/
inductive Frames : List Char → List Char → Prop where
  /-- A reply that does not begin with a fence is the text. -/
  | bare {text : List Char} (h : ¬fence <+: text) : Frames text text
  /-- Between a first line that begins with a fence and a fence at the end stands the text. -/
  | closed {info body : List Char} (h : '\n' ∉ info) :
      Frames (fence ++ (info ++ '\n' :: (body ++ fence))) (trim body)
  /-- A fence that is not closed goes on to the end. -/
  | unclosed {info body : List Char} (h : '\n' ∉ info) (hbody : ¬fence <:+ body) :
      Frames (fence ++ (info ++ '\n' :: body)) (trim body)
  /-- In a single line there is no text. -/
  | oneLine {info : List Char} (h : '\n' ∉ info) : Frames (fence ++ info) []

variable {reply : List Char}

/-- A reply that does not begin with a fence is only trimmed. -/
theorem unfenced_of_no_fence (h : ¬fence <+: trim reply) : unfenced reply = trim reply := by
  rw [← List.isPrefixOf_iff_prefix] at h
  simp [unfenced, h]

/-- What follows the fence at the beginning of a trimmed reply does not end in a blank. -/
theorem trimEnd_of_fence {rest : List Char} (h : trim reply = fence ++ rest) :
    trimEnd rest = rest := by
  have hword : trim (fence ++ rest) = fence ++ trimEnd rest :=
    trim_word_append (by decide) isBlank_of_mem_fence rest
  rw [← h, trim_trim, h] at hword
  exact (List.append_cancel_left hword).symm

/-- A reply that begins with a fence loses its first line, a fence at its end and the blanks around
the rest. -/
theorem unfenced_of_fence {rest : List Char} (h : trim reply = fence ++ rest) :
    unfenced reply =
      if fence <:+ trimEnd (afterFirstLine rest) then
        trim ((trimEnd (afterFirstLine rest)).take
          ((trimEnd (afterFirstLine rest)).length - 3))
      else trim (afterFirstLine rest) := by
  have hfence : fence.isPrefixOf (fence ++ rest) :=
    List.isPrefixOf_iff_prefix.mpr (List.prefix_append _ _)
  have hdrop : (fence ++ rest).drop 3 = rest := rfl
  simp only [unfenced, h, hfence, hdrop, if_true, List.isSuffixOf_iff_suffix]

/-- Of a single line that begins with a fence nothing is left. -/
theorem unfenced_of_oneLine {info : List Char} (h : trim reply = fence ++ info)
    (hinfo : '\n' ∉ info) : unfenced reply = [] := by
  rw [unfenced_of_fence h, afterFirstLine_of_not_mem hinfo]
  rfl

/-- Of several lines, the first with a fence, the others are left but for a fence at their end. -/
theorem unfenced_of_lines {info body : List Char}
    (h : trim reply = fence ++ (info ++ '\n' :: body)) (hinfo : '\n' ∉ info) :
    unfenced reply =
      if fence <:+ body then trim (body.take (body.length - 3)) else trim body := by
  have hend : trimEnd (info ++ '\n' :: body) = info ++ '\n' :: body := trimEnd_of_fence h
  have hbody : trimEnd body = body := by
    rw [List.append_cons] at hend
    exact trimEnd_of_append hend
  rw [unfenced_of_fence h, afterFirstLine_append hinfo, hbody]

/-- Without its last three characters a text that a fence ends is the text before it. -/
theorem take_append_fence (body : List Char) :
    (body ++ fence).take ((body ++ fence).length - 3) = body := by
  simp [fence]

/-- What is left of a reply is a text that it frames. -/
theorem frames_unfenced (reply : List Char) : Frames (trim reply) (unfenced reply) := by
  by_cases hfence : fence <+: trim reply
  · obtain ⟨rest, hrest⟩ := hfence
    by_cases hline : '\n' ∈ rest
    · obtain ⟨info, body, rfl, hinfo⟩ := List.eq_append_cons_of_mem hline
      rw [unfenced_of_lines hrest.symm hinfo, ← hrest]
      split
      · rename_i hclosed
        obtain ⟨inner, rfl⟩ := hclosed
        rw [take_append_fence]
        exact Frames.closed hinfo
      · rename_i hopen
        exact Frames.unclosed hinfo hopen
    · rw [unfenced_of_oneLine hrest.symm hline, ← hrest]
      exact Frames.oneLine hline
  · rw [unfenced_of_no_fence hfence]
    exact Frames.bare hfence

/-- Dropping the blanks and the fence around a reply leaves exactly the text that it frames. -/
theorem frames_iff {text : List Char} : Frames (trim reply) text ↔ unfenced reply = text := by
  constructor
  · intro h
    generalize hcore : trim reply = core at h
    cases h with
    | bare hfence =>
      rw [← hcore] at hfence
      rw [unfenced_of_no_fence hfence, hcore]
    | closed hinfo =>
      rw [unfenced_of_lines hcore hinfo, if_pos (List.suffix_append _ _), take_append_fence]
    | unclosed hinfo hbody => rw [unfenced_of_lines hcore hinfo, if_neg hbody]
    | oneLine hinfo => exact unfenced_of_oneLine hcore hinfo
  · rintro rfl
    exact frames_unfenced reply

end Revision

end CallAtlas
