import CallAtlas.Text.Fragment
import Mathlib.Data.List.Infix

/-!
# Replacing fragments

The replacement of a fragment is easy to follow where occurrences of it overlap neither each other
nor what is put in.  Whether they can is decided by comparing ends of the one word with beginnings
of the other (`keepsOut`, `isApart`).  If they cannot, a text may be cut at an occurrence and each
part rewritten on its own (`replaceAll_split`), and then nothing is left to replace
(`not_infix_replaceAll`).  A second rewrite that leaves both words alone may be done before or after
(`replaceAll_hom_replaceAll`).
-/

set_option autoImplicit false

namespace CallAtlas.Text

variable {old new part word cs first second : List Char}

/-- A fragment of a text is a list of characters in a row. -/
theorem hasFragment_iff_infix : hasFragment part cs ↔ part <:+: cs := by
  induction cs with
  | nil => simp [hasFragment]
  | cons c cs ih =>
    rw [hasFragment, Bool.or_eq_true, List.isPrefixOf_iff_prefix, ih, List.infix_cons_iff]

/-! ## Overlaps -/

/-- Whether one of two words is a beginning of the other. -/
def agrees (u v : List Char) : Bool := u.isPrefixOf v || v.isPrefixOf u

/-- Whether no occurrence of `old` that begins before `word` goes on into it: no end of `old` agrees
with `word`. -/
def keepsOut (old word : List Char) : Bool :=
  old.tail.tails.all fun last => last.isEmpty || !agrees last word

/-- Whether no occurrence of `old` overlaps `word` at all. -/
def isApart (old word : List Char) : Bool :=
  keepsOut old word && word.tails.all fun last => last.isEmpty || !agrees last old

/-- Of two beginnings of one text, one is a beginning of the other. -/
theorem agrees_of_prefix {u v : List Char} (hu : u <+: cs) (hv : v <+: cs) : agrees u v := by
  rw [agrees, Bool.or_eq_true, List.isPrefixOf_iff_prefix, List.isPrefixOf_iff_prefix]
  exact List.prefix_or_prefix_of_prefix hu hv

/-- An occurrence that begins before a word that it keeps out of ends before it. -/
theorem prefix_of_keepsOut (h : keepsOut old word) (hne : first ≠ [])
    (hocc : old <+: first ++ (word ++ second)) : old <+: first := by
  obtain ⟨rest, hrest⟩ := hocc
  rcases List.append_eq_append_iff.mp hrest with ⟨more, hmore, -⟩ | ⟨last, hold, hlast⟩
  · exact ⟨more, hmore.symm⟩
  · cases last with
    | nil => exact ⟨[], by simpa using hold⟩
    | cons c last =>
      obtain ⟨a, first, rfl⟩ := List.exists_cons_of_ne_nil hne
      have hmem : c :: last ∈ old.tail.tails := by
        rw [hold, List.mem_tails]
        exact List.suffix_append first (c :: last)
      have hagrees : agrees (c :: last) word :=
        agrees_of_prefix ⟨rest, hlast.symm⟩ (List.prefix_append word second)
      have hnot := List.all_eq_true.mp h _ hmem
      rw [hagrees] at hnot
      exact absurd hnot (by simp)

/-- A fragment is apart from a word if no occurrence goes on into the word or begins in it. -/
theorem isApart_iff : isApart old word ↔ keepsOut old word ∧
    ∀ last, last <:+ word → last ≠ [] → agrees last old = false := by
  rw [isApart, Bool.and_eq_true, List.all_eq_true]
  apply and_congr_right'
  constructor
  · intro h last hlast hne
    simpa [hne] using h last ((List.mem_tails _ _).mpr hlast)
  · intro h last hlast
    by_cases hne : last = []
    · simp [hne]
    · simp [h last ((List.mem_tails _ _).mp hlast) hne]

/-- What is apart from a word keeps out of it. -/
theorem keepsOut_of_isApart (h : isApart old word) : keepsOut old word :=
  (isApart_iff.mp h).1

/-- No occurrence begins in a word that it is apart from. -/
theorem not_prefix_of_isApart (h : isApart old word) (hsuffix : first <:+ word) (hne : first ≠ [])
    (second : List Char) : ¬old <+: first ++ second := by
  intro hocc
  have hagrees := agrees_of_prefix (List.prefix_append first second) hocc
  rw [(isApart_iff.mp h).2 first hsuffix hne] at hagrees
  exact absurd hagrees (by simp)

/-- An occurrence lies before or behind a word that it cannot overlap. -/
theorem infix_of_isApart (h : isApart old word) (hocc : old <:+: first ++ (word ++ second)) :
    old <:+: first ∨ old <:+: second := by
  have hbehind : old <:+: word ++ second → old <:+: second := by
    rintro ⟨before, after, heq⟩
    rw [List.append_assoc] at heq
    rcases List.append_eq_append_iff.mp heq with ⟨last, hword, hlast⟩ | ⟨middle, -, hsecond⟩
    · cases last with
      | nil => exact ⟨[], after, by simpa using hlast⟩
      | cons c last =>
        have hnot := not_prefix_of_isApart h ⟨before, hword.symm⟩ (List.cons_ne_nil c last) second
        exact absurd ⟨after, hlast⟩ hnot
    · exact ⟨middle, after, by rw [hsecond, List.append_assoc]⟩
  rcases List.infix_append_iff.mp hocc with hfirst | hrest | ⟨start, last, rfl, hstart, hlast⟩
  · exact Or.inl hfirst
  · exact Or.inr (hbehind hrest)
  · cases start with
    | nil => exact Or.inr (hbehind hlast.isInfix)
    | cons c start =>
      have hocc : (c :: start) ++ last <+: (c :: start) ++ (word ++ second) :=
        (List.prefix_append_right_inj _).mpr hlast
      have hwithin := prefix_of_keepsOut (keepsOut_of_isApart h) (List.cons_ne_nil c start) hocc
      exact Or.inl (hwithin.isInfix.trans hstart.isInfix)

/-! ## Occurrences -/

/-- To prove something of all texts, prove it of those without the fragment and of those that are
cut at an occurrence of it into two for which it holds. -/
theorem fragment_induct {motive : List Char → Prop} (hne : old ≠ [])
    (absent : ∀ cs, ¬old <:+: cs → motive cs)
    (cut : ∀ first second, motive first → motive second → motive (first ++ (old ++ second)))
    (cs : List Char) : motive cs := by
  induction hn : cs.length using Nat.strongRecOn generalizing cs with
  | _ n ih =>
    by_cases hocc : old <:+: cs
    · obtain ⟨first, second, rfl⟩ := hocc
      have hpos : 0 < old.length := List.length_pos_iff.mpr hne
      rw [List.length_append, List.length_append] at hn
      rw [List.append_assoc]
      exact cut first second (ih first.length (by omega) first rfl)
        (ih second.length (by omega) second rfl)
    · exact absent cs hocc

/-- A character at which no occurrence begins stays. -/
theorem replaceAll_cons_of_absent {c : Char} (h : ¬old <+: c :: cs) :
    replaceAll old new (c :: cs) = c :: replaceAll old new cs := by
  rw [replaceAll, replaceAfter, if_neg (by simpa using h), replaceAll]

/-- A text without occurrences stays as it is. -/
theorem replaceAll_of_absent (h : ¬old <:+: cs) : replaceAll old new cs = cs := by
  induction cs with
  | nil => rfl
  | cons c cs ih =>
    rw [List.infix_cons_iff, not_or] at h
    rw [replaceAll_cons_of_absent h.1, ih h.2]

/-- Characters to be skipped leave no text. -/
theorem replaceAfter_skipped (skipped rest : List Char) :
    replaceAfter old new skipped.length (skipped ++ rest) = replaceAll old new rest := by
  induction skipped with
  | nil => rfl
  | cons c skipped ih => rw [List.length_cons, List.cons_append, replaceAfter, ih]

/-- An occurrence at the beginning is replaced. -/
theorem replaceAll_self_append (hne : old ≠ []) (rest : List Char) :
    replaceAll old new (old ++ rest) = new ++ replaceAll old new rest := by
  obtain ⟨c, more, rfl⟩ := List.exists_cons_of_ne_nil hne
  have hocc : (c :: more).isPrefixOf (c :: (more ++ rest)) := by
    rw [List.isPrefixOf_iff_prefix]
    exact List.prefix_append (c :: more) rest
  rw [replaceAll, List.cons_append, replaceAfter, if_pos hocc, List.length_cons,
    Nat.add_sub_cancel, replaceAfter_skipped]

/-- What stands before a word that no occurrence goes into is rewritten on its own. -/
theorem replaceAll_append_of_keepsOut (hne : old ≠ []) (h : keepsOut old word)
    (first second : List Char) : replaceAll old new (first ++ (word ++ second)) =
      replaceAll old new first ++ replaceAll old new (word ++ second) := by
  induction hn : first.length using Nat.strongRecOn generalizing first with
  | _ n ih =>
    cases first with
    | nil => rfl
    | cons c first =>
      rw [List.length_cons] at hn
      by_cases hocc : old <+: c :: first
      · obtain ⟨rest, hrest⟩ := hocc
        have hpos : 0 < old.length := List.length_pos_iff.mpr hne
        have hlength : old.length + rest.length = first.length + 1 := by
          rw [← List.length_append, hrest, List.length_cons]
        rw [← hrest, List.append_assoc, replaceAll_self_append hne, replaceAll_self_append hne,
          ih rest.length (by omega) rest rfl, List.append_assoc]
      · have hnot : ¬old <+: c :: (first ++ (word ++ second)) := fun hlong =>
          hocc (prefix_of_keepsOut h (List.cons_ne_nil c first) hlong)
        rw [List.cons_append, replaceAll_cons_of_absent hnot, replaceAll_cons_of_absent hocc,
          ih first.length (by omega) first rfl, List.cons_append]

/-- A word that no occurrence overlaps stays, and the parts around it are rewritten on their own. -/
theorem replaceAll_append_of_isApart (hne : old ≠ []) (h : isApart old word)
    (first second : List Char) : replaceAll old new (first ++ (word ++ second)) =
      replaceAll old new first ++ (word ++ replaceAll old new second) := by
  have hword : ∀ last, last <:+ word →
      replaceAll old new (last ++ second) = last ++ replaceAll old new second := by
    intro last hlast
    induction last with
    | nil => rfl
    | cons c last ih =>
      have hnot : ¬old <+: c :: (last ++ second) :=
        not_prefix_of_isApart h hlast (List.cons_ne_nil c last) second
      rw [List.cons_append, replaceAll_cons_of_absent hnot,
        ih ((List.suffix_cons c last).trans hlast), List.cons_append]
  rw [replaceAll_append_of_keepsOut hne (keepsOut_of_isApart h), hword word (List.suffix_refl word)]

/-! ## Fragments that do not overlap -/

section Replacement

variable (hne : old ≠ []) (hself : keepsOut old old)

include hne hself

/-- A text may be cut at an occurrence and each part rewritten on its own. -/
theorem replaceAll_split (first second : List Char) :
    replaceAll old new (first ++ (old ++ second)) =
      replaceAll old new first ++ (new ++ replaceAll old new second) := by
  rw [replaceAll_append_of_keepsOut hne hself, replaceAll_self_append hne]

/-- No fragment arises that does not overlap what is put in. -/
theorem infix_of_infix_replaceAll (h : isApart part new) (hocc : part <:+: replaceAll old new cs) :
    part <:+: cs := by
  induction cs using fragment_induct hne with
  | absent cs habsent => rwa [replaceAll_of_absent habsent] at hocc
  | cut first second ihfirst ihsecond =>
    rw [replaceAll_split hne hself] at hocc
    rcases infix_of_isApart h hocc with hocc | hocc
    · exact (ihfirst hocc).trans (List.prefix_append first _).isInfix
    · refine (ihsecond hocc).trans (List.IsSuffix.isInfix ?_)
      exact (List.suffix_append old second).trans (List.suffix_append first _)

/-- Nothing is left to replace. -/
theorem not_infix_replaceAll (h : isApart old new) : ¬old <:+: replaceAll old new cs := by
  induction cs using fragment_induct hne with
  | absent cs habsent => rwa [replaceAll_of_absent habsent]
  | cut first second ihfirst ihsecond =>
    rw [replaceAll_split hne hself]
    intro hocc
    exact (infix_of_isApart h hocc).elim ihfirst ihsecond

/-- A rewrite that goes through a text part by part and leaves both words alone makes no difference
to what the replacement comes to. -/
theorem replaceAll_hom_replaceAll (h : isApart old new) {view : List Char → List Char}
    (hview : ∀ first second, view (first ++ second) = view first ++ view second)
    (hold : view old = old) (hnew : view new = new) (cs : List Char) :
    replaceAll old new (view (replaceAll old new cs)) = replaceAll old new (view cs) := by
  induction cs using fragment_induct hne with
  | absent cs habsent => rw [replaceAll_of_absent habsent]
  | cut first second ihfirst ihsecond =>
    calc replaceAll old new (view (replaceAll old new (first ++ (old ++ second))))
        = replaceAll old new (view (replaceAll old new first) ++
            (new ++ view (replaceAll old new second))) := by
          rw [replaceAll_split hne hself, hview, hview, hnew]
      _ = replaceAll old new (view first) ++ (new ++ replaceAll old new (view second)) := by
          rw [replaceAll_append_of_isApart hne h, ihfirst, ihsecond]
      _ = replaceAll old new (view (first ++ (old ++ second))) := by
          rw [hview, hview, hold, replaceAll_split hne hself]

/-- A replacement does not show where the two words look alike. -/
theorem map_replaceAll {view : Char → Char} (h : new.map view = old.map view) (cs : List Char) :
    (replaceAll old new cs).map view = cs.map view := by
  induction cs using fragment_induct hne with
  | absent cs habsent => rw [replaceAll_of_absent habsent]
  | cut first second ihfirst ihsecond =>
    rw [replaceAll_split hne hself]
    simp only [List.map_append, ihfirst, ihsecond, h]

end Replacement

end CallAtlas.Text
