import CallAtlas.Proofs.PatternCuts
import CallAtlas.Text.Fragment

/-!
# Rewriting a text

Two rewrites go through a text from the left: the replacement of a fragment and the substitution
of the matches of a probe.  For each there are two facts.  Its result holds no symbol but those
of the text and those put in (`mem_replaceAll`, `mem_substitute`), and it passes over a beginning
of the text in which nothing can start (`replaceAll_append`, `substituteAfter_append`).
-/

set_option autoImplicit false

namespace CallAtlas.Text

/-! ## Fragments -/

/-- What stands in a text after a replacement stood in it before or has been put in. -/
theorem mem_replaceAll {old new cs : List Char} {c : Char} (h : c ∈ replaceAll old new cs) :
    c ∈ cs ∨ c ∈ new := by
  have hafter : ∀ skip, c ∈ replaceAfter old new skip cs → c ∈ cs ∨ c ∈ new := by
    clear h
    induction cs with
    | nil => intro skip h; simp [replaceAfter] at h
    | cons d cs ih =>
      intro skip h
      cases skip with
      | succ skip => exact (ih skip h).imp_left (List.mem_cons_of_mem d)
      | zero =>
        rw [replaceAfter] at h
        split at h
        · rcases List.mem_append.mp h with h | h
          · exact Or.inr h
          · exact (ih _ h).imp_left (List.mem_cons_of_mem d)
        · rcases List.mem_cons.mp h with rfl | h
          · exact Or.inl List.mem_cons_self
          · exact (ih _ h).imp_left (List.mem_cons_of_mem d)
  exact hafter 0 h

/-- A replacement passes over characters that the fragment does not begin with. -/
theorem replaceAll_append {o : Char} {head : List Char} (h : o ∉ head) (os new rest : List Char) :
    replaceAll (o :: os) new (head ++ rest) = head ++ replaceAll (o :: os) new rest := by
  unfold replaceAll
  induction head with
  | nil => rfl
  | cons c head ih =>
    rw [List.mem_cons, not_or] at h
    rw [List.cons_append, replaceAfter, if_neg, ih h.2, List.cons_append]
    simp [List.isPrefixOf, h.1]

/-- A text without the first character of a fragment stays as it is. -/
theorem replaceAll_of_not_mem {o : Char} {cs : List Char} (h : o ∉ cs) (os new : List Char) :
    replaceAll (o :: os) new cs = cs := by
  have := replaceAll_append h os new []
  simpa [replaceAll, replaceAfter] using this

/-- Replacing a single character changes every occurrence of it and nothing else. -/
theorem replaceAll_singleton (o : Char) (new cs : List Char) :
    replaceAll [o] new cs = cs.flatMap fun c => if c = o then new else [c] := by
  unfold replaceAll
  induction cs with
  | nil => rfl
  | cons c cs ih =>
    by_cases hc : c = o
    · simp [replaceAfter, List.isPrefixOf, hc, ih]
    · simp [replaceAfter, List.isPrefixOf, Ne.symm hc, hc, ih]

/-! ## Matches -/

namespace Probe

variable {α : Type} {p : Probe α} {new : Found α → List α}

/-- What stands in a text after a substitution stood in it before or belongs to the replacement of
a match. -/
theorem mem_substitute {text : List α} {a : α} (h : a ∈ p.substitute new text) :
    a ∈ text ∨ ∃ past input f, input <:+ text ∧ p.matchHere past input = some f ∧ a ∈ new f := by
  have hafter : ∀ cs skip past, cs <:+ text → a ∈ p.substituteAfter new skip past cs →
      a ∈ text ∨ ∃ past input f, input <:+ text ∧ p.matchHere past input = some f ∧ a ∈ new f := by
    intro cs
    induction cs with
    | nil => intro skip past _ hmem; simp [substituteAfter] at hmem
    | cons c cs ih =>
      intro skip past hsuffix hmem
      have hrest : cs <:+ text := (List.suffix_cons c cs).trans hsuffix
      cases skip with
      | succ skip => exact ih skip _ hrest hmem
      | zero =>
        rw [substituteAfter] at hmem
        split at hmem
        · rename_i f hfound
          rcases List.mem_append.mp hmem with hmem | hmem
          · exact Or.inr ⟨past, c :: cs, f, hsuffix, hfound, hmem⟩
          · exact ih _ _ hrest hmem
        · rcases List.mem_cons.mp hmem with rfl | hmem
          · exact Or.inl (hsuffix.subset List.mem_cons_self)
          · exact ih _ _ hrest hmem
  exact hafter text 0 [] (List.suffix_refl text) h

/-- A substitution passes over a beginning in which no match starts. -/
theorem substituteAfter_append {head rest : List α}
    (h : ∀ a later, a :: later <:+ head → ∀ past, p.matchHere past (a :: later ++ rest) = none)
    (past : List α) :
    p.substituteAfter new 0 past (head ++ rest) =
      head ++ p.substituteAfter new 0 (head.reverse ++ past) rest := by
  induction head generalizing past with
  | nil => rfl
  | cons a head ih =>
    have hnone := h a head (List.suffix_refl _) past
    rw [List.cons_append] at hnone
    rw [List.cons_append, substituteAfter, hnone]
    simp only
    rw [ih fun b later hb => h b later (hb.trans (List.suffix_cons a head))]
    simp

end Probe

end CallAtlas.Text
