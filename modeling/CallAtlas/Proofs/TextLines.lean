import CallAtlas.Text.Trim
import Mathlib.Data.List.Infix
import Mathlib.Data.List.TakeWhile

/-!
# Lines and blank ends

Cutting a text at a separator and joining the parts with it undo each other (`joinWith_splitAt`,
and `splitAt_joinWith` where no part holds the separator), so a text may be changed line by line,
and a word without separators is to be looked for in the parts (`infix_iff_exists_part`).  Trimming
takes away exactly the blank ends (`exists_trim`), and what it leaves does not depend on how blank
they are (`trim_append_of_blank`, `trim_append_blank`).
-/

set_option autoImplicit false

namespace CallAtlas.Text

/-! ## Parts -/

section Parts

variable {α : Type} [BEq α] [LawfulBEq α] {sep c : α} {cs : List α}

/-- Before a separator at the beginning stands an empty part. -/
theorem splitAt_cons_self (sep : α) (cs : List α) :
    splitAt sep (sep :: cs) = [] :: splitAt sep cs := by
  simp [splitAt]

/-- A symbol that is no separator goes to the first part. -/
theorem splitAt_cons_of_ne (h : c ≠ sep) (cs : List α) :
    ∃ part parts, splitAt sep cs = part :: parts ∧
      splitAt sep (c :: cs) = (c :: part) :: parts := by
  induction cs generalizing c with
  | nil => exact ⟨[], [], rfl, by simp [splitAt, h]⟩
  | cons d cs ih =>
    by_cases hd : d = sep
    · subst hd
      exact ⟨[], splitAt d cs, splitAt_cons_self d cs, by simp [splitAt, h]⟩
    · obtain ⟨part, parts, -, hparts⟩ := ih hd
      refine ⟨d :: part, parts, hparts, ?_⟩
      rw [splitAt, hparts]
      simp [h]

/-- There is always a part. -/
theorem splitAt_ne_nil (sep : α) (cs : List α) : splitAt sep cs ≠ [] := by
  cases cs with
  | nil => simp [splitAt]
  | cons c cs =>
    by_cases hc : c = sep
    · rw [hc, splitAt_cons_self]
      exact List.cons_ne_nil _ _
    · obtain ⟨part, parts, -, hparts⟩ := splitAt_cons_of_ne hc cs
      rw [hparts]
      exact List.cons_ne_nil _ _

/-- A text without separators is one part. -/
theorem splitAt_of_not_mem (h : sep ∉ cs) : splitAt sep cs = [cs] := by
  induction cs with
  | nil => rfl
  | cons c cs ih =>
    rw [List.mem_cons, not_or] at h
    obtain ⟨part, parts, hcs, hparts⟩ := splitAt_cons_of_ne (Ne.symm h.1) cs
    rw [ih h.2] at hcs
    obtain ⟨rfl, rfl⟩ := List.cons.inj hcs
    exact hparts

/-- A separator in a text lies between the parts before it and those after it. -/
theorem splitAt_append_cons (sep : α) (cs ds : List α) :
    splitAt sep (cs ++ sep :: ds) = splitAt sep cs ++ splitAt sep ds := by
  induction cs with
  | nil => exact splitAt_cons_self sep ds
  | cons c cs ih =>
    by_cases hc : c = sep
    · subst hc
      rw [List.cons_append, splitAt_cons_self, splitAt_cons_self, ih, List.cons_append]
    · obtain ⟨part, parts, hcs, hc_cs⟩ := splitAt_cons_of_ne hc cs
      obtain ⟨part', parts', happ, hc_app⟩ := splitAt_cons_of_ne hc (cs ++ sep :: ds)
      rw [ih, hcs, List.cons_append] at happ
      obtain ⟨rfl, rfl⟩ := List.cons.inj happ
      rw [List.cons_append, hc_app, hc_cs, List.cons_append]

/-- What holds no separator goes to the last part of a text. -/
theorem splitAt_append_of_not_mem {ds : List α} (h : sep ∉ ds) (cs : List α) :
    ∃ parts last, splitAt sep cs = parts ++ [last] ∧
      splitAt sep (cs ++ ds) = parts ++ [last ++ ds] := by
  induction cs with
  | nil => exact ⟨[], [], rfl, splitAt_of_not_mem h⟩
  | cons c cs ih =>
    obtain ⟨parts, last, hcs, happ⟩ := ih
    by_cases hc : c = sep
    · refine ⟨[] :: parts, last, ?_, ?_⟩
      · rw [hc, splitAt_cons_self, hcs, List.cons_append]
      · rw [hc, List.cons_append, splitAt_cons_self, happ, List.cons_append]
    · obtain ⟨first, rest, hfirst, hsplit⟩ := splitAt_cons_of_ne hc cs
      obtain ⟨first', rest', hfirst', hsplit'⟩ := splitAt_cons_of_ne hc (cs ++ ds)
      rw [hfirst] at hcs
      rw [hfirst'] at happ
      cases parts with
      | nil =>
        obtain ⟨rfl, rfl⟩ := List.cons.inj hcs
        obtain ⟨rfl, rfl⟩ := List.cons.inj happ
        exact ⟨[], c :: first, hsplit, hsplit'⟩
      | cons part parts =>
        obtain ⟨hpart, hrest⟩ := List.cons.inj hcs
        obtain ⟨hpart', hrest'⟩ := List.cons.inj happ
        rw [hpart, hrest] at hsplit
        rw [hpart', hrest'] at hsplit'
        exact ⟨(c :: part) :: parts, last, hsplit, hsplit'⟩

/-- A text can be cut at its first separator in one way only. -/
theorem eq_of_append_sep_eq {cs' ds ds' : List α} (h : sep ∉ cs) (h' : sep ∉ cs')
    (heq : cs ++ sep :: ds = cs' ++ sep :: ds') : cs = cs' ∧ ds = ds' := by
  have hparts := congrArg (splitAt sep) heq
  rw [splitAt_append_cons, splitAt_append_cons, splitAt_of_not_mem h, splitAt_of_not_mem h']
    at hparts
  obtain ⟨rfl, -⟩ := List.cons.inj hparts
  exact ⟨rfl, (List.cons.inj (List.append_cancel_left heq)).2⟩

/-- No part has a separator. -/
theorem not_mem_of_mem_splitAt {part : List α} (h : part ∈ splitAt sep cs) : sep ∉ part := by
  induction cs generalizing part with
  | nil => simp_all [splitAt]
  | cons c cs ih =>
    by_cases hc : c = sep
    · subst hc
      rw [splitAt_cons_self, List.mem_cons] at h
      rcases h with rfl | h
      · exact List.not_mem_nil
      · exact ih h
    · obtain ⟨first, parts, hcs, hc_cs⟩ := splitAt_cons_of_ne hc cs
      rw [hc_cs, List.mem_cons] at h
      rw [hcs] at ih
      rcases h with rfl | h
      · rw [List.mem_cons, not_or]
        exact ⟨Ne.symm hc, ih List.mem_cons_self⟩
      · exact ih (List.mem_cons_of_mem _ h)

/-- The parts of a join are those of what is joined. -/
theorem splitAt_joinWith_eq_flatMap {parts : List (List α)} (hne : parts ≠ []) :
    splitAt sep (joinWith sep parts) = parts.flatMap (splitAt sep) := by
  induction parts with
  | nil => exact absurd rfl hne
  | cons part parts ih =>
    cases parts with
    | nil => exact (List.append_nil _).symm
    | cons next parts =>
      have hjoin : joinWith sep (part :: next :: parts) =
          part ++ sep :: joinWith sep (next :: parts) := rfl
      rw [hjoin, splitAt_append_cons, ih (List.cons_ne_nil next parts),
        ← List.flatMap_cons]

/-- Parts without separators are found again when they have been joined. -/
theorem splitAt_joinWith {parts : List (List α)} (hne : parts ≠ [])
    (h : ∀ part ∈ parts, sep ∉ part) : splitAt sep (joinWith sep parts) = parts := by
  have hparts : ∀ part ∈ parts, splitAt sep part = [part] := fun part hpart =>
    splitAt_of_not_mem (h part hpart)
  rw [splitAt_joinWith_eq_flatMap hne, List.flatMap_congr hparts, List.flatMap_singleton']

/-- Cutting a text and joining its parts gives it back. -/
theorem joinWith_splitAt (sep : α) (cs : List α) : joinWith sep (splitAt sep cs) = cs := by
  induction cs with
  | nil => rfl
  | cons c cs ih =>
    by_cases hc : c = sep
    · subst hc
      rw [splitAt_cons_self, joinWith, ih, List.nil_append]
      exact splitAt_ne_nil c cs
    · obtain ⟨part, parts, hcs, hparts⟩ := splitAt_cons_of_ne hc cs
      rw [hcs] at ih
      rw [hparts, ← ih]
      cases parts <;> rfl

omit [BEq α] [LawfulBEq α] in
/-- Joining is what the library calls intercalating. -/
theorem joinWith_eq_intercalate (sep : α) (parts : List (List α)) :
    joinWith sep parts = [sep].intercalate parts := by
  induction parts with
  | nil => rfl
  | cons part parts ih =>
    cases parts with
    | nil => simp [joinWith]
    | cons next parts => rw [joinWith, ih]; simp; simp

/-- Splitting is that of the library. -/
theorem splitAt_eq_splitOn (sep : α) (cs : List α) : splitAt sep cs = cs.splitOn sep := by
  have hparts := List.splitOn_intercalate sep
    (fun _ hpart => not_mem_of_mem_splitAt hpart) (splitAt_ne_nil sep cs)
  rwa [← joinWith_eq_intercalate, joinWith_splitAt, eq_comm] at hparts

/-- There is one part more than there are separators. -/
theorem length_splitAt (sep : α) (cs : List α) : (splitAt sep cs).length = cs.count sep + 1 := by
  induction cs with
  | nil => rfl
  | cons c cs ih =>
    by_cases hc : c = sep
    · rw [hc, splitAt_cons_self, List.length_cons, ih, List.count_cons_self]
    · obtain ⟨part, parts, hcs, hparts⟩ := splitAt_cons_of_ne hc cs
      rw [hparts, List.count_cons_of_ne hc, ← ih, hcs, List.length_cons, List.length_cons]

omit [BEq α] [LawfulBEq α] in
/-- Two joins make one with a separator between them. -/
theorem joinWith_append {first second : List (List α)} (hfirst : first ≠ [])
    (hsecond : second ≠ []) :
    joinWith sep (first ++ second) = joinWith sep first ++ sep :: joinWith sep second := by
  induction first with
  | nil => exact absurd rfl hfirst
  | cons part first ih =>
    cases first with
    | nil =>
      obtain ⟨next, rest, rfl⟩ := List.exists_cons_of_ne_nil hsecond
      rfl
    | cons next first =>
      have hjoin : ∀ more, joinWith sep (part :: next :: more) =
          part ++ sep :: joinWith sep (next :: more) := fun _ => rfl
      rw [hjoin, List.append_assoc, List.cons_append, List.cons_append, List.cons_append, hjoin,
        ← List.cons_append, ih (List.cons_ne_nil next first)]

/-- A part that is not the last one stands at the beginning or behind a separator, and before
another separator. -/
theorem mem_dropLast_splitAt_iff {part : List α} (h : sep ∉ part) :
    part ∈ (splitAt sep cs).dropLast ↔
      ∃ before after, cs = before ++ part ++ sep :: after ∧
        (before = [] ∨ ∃ earlier, before = earlier ++ [sep]) := by
  constructor
  · intro hmem
    obtain ⟨earlier, later, hlist⟩ := List.append_of_mem hmem
    obtain ⟨rest, hrest, hsplit⟩ :
        ∃ rest, rest ≠ [] ∧ splitAt sep cs = earlier ++ part :: rest := by
      have hne := splitAt_ne_nil sep cs
      refine ⟨later ++ [(splitAt sep cs).getLast hne], by simp, ?_⟩
      rw [← List.cons_append, ← List.append_assoc, ← hlist, List.dropLast_append_getLast]
    have hpart : joinWith sep (part :: rest) = part ++ sep :: joinWith sep rest :=
      joinWith_append (List.cons_ne_nil part []) hrest
    rw [← joinWith_splitAt sep cs, hsplit]
    by_cases hearlier : earlier = []
    · refine ⟨[], joinWith sep rest, ?_, Or.inl rfl⟩
      rw [hearlier, List.nil_append, hpart, List.nil_append]
    · refine ⟨joinWith sep earlier ++ [sep], joinWith sep rest, ?_, Or.inr ⟨_, rfl⟩⟩
      rw [joinWith_append hearlier (List.cons_ne_nil part rest), hpart]
      simp
  · rintro ⟨before, after, rfl, hbefore⟩
    rw [splitAt_append_cons, List.dropLast_append_of_ne_nil (splitAt_ne_nil sep after)]
    apply List.mem_append_left
    rcases hbefore with rfl | ⟨earlier, rfl⟩
    · rw [List.nil_append, splitAt_of_not_mem h]
      exact List.mem_singleton_self part
    · rw [List.append_assoc, List.singleton_append, splitAt_append_cons, splitAt_of_not_mem h]
      exact List.mem_append_right _ (List.mem_singleton_self part)

/-! ### Words in parts -/

omit [BEq α] [LawfulBEq α] in
/-- A word without some symbol lies before or behind any occurrence of it. -/
theorem infix_of_not_mem {word ds : List α} (h : c ∉ word) (hocc : word <:+: cs ++ c :: ds) :
    word <:+: cs ∨ word <:+: ds := by
  rcases List.infix_append_iff.mp hocc with hfirst | hrest | ⟨start, last, rfl, hstart, hlast⟩
  · exact Or.inl hfirst
  · rcases List.infix_cons_iff.mp hrest with hprefix | hsecond
    · cases word with
      | nil => exact Or.inl List.nil_infix
      | cons d word =>
        obtain ⟨rfl, -⟩ := List.cons_prefix_cons.mp hprefix
        exact absurd List.mem_cons_self h
    · exact Or.inr hsecond
  · cases last with
    | nil => exact Or.inl (by simpa using hstart.isInfix)
    | cons d last =>
      obtain ⟨rfl, -⟩ := List.cons_prefix_cons.mp hlast
      exact absurd (List.mem_append_right start List.mem_cons_self) h

omit [BEq α] [LawfulBEq α] in
/-- A word without some symbol at the beginning of a text ends before the first such symbol. -/
theorem prefix_of_not_mem {word ds : List α} (h : c ∉ word) (hword : word <+: cs ++ c :: ds) :
    word <+: cs := by
  obtain ⟨rest, hrest⟩ := hword
  rcases List.append_eq_append_iff.mp hrest with ⟨more, hmore, -⟩ | ⟨last, hlast, hsplit⟩
  · exact ⟨more, hmore.symm⟩
  · cases last with
    | nil => exact ⟨[], by simpa using hlast⟩
    | cons d last =>
      obtain ⟨rfl, -⟩ := List.cons.inj hsplit
      exact absurd (hlast ▸ List.mem_append_right cs List.mem_cons_self) h

omit [BEq α] [LawfulBEq α] in
/-- A word without the separator that ends a text ends its last part. -/
theorem suffix_of_not_mem {word ds : List α} (h : c ∉ word) (hword : word <:+ cs ++ c :: ds) :
    word <:+ ds := by
  rw [← List.reverse_prefix] at hword ⊢
  have hreverse : word.reverse <+: ds.reverse ++ c :: cs.reverse := by simpa using hword
  exact prefix_of_not_mem (by simpa using h) hreverse

omit [BEq α] [LawfulBEq α] in
/-- A word without the separator stands before one or behind it. -/
theorem infix_append_sep_iff {word ds : List α} (h : sep ∉ word) :
    word <:+: cs ++ sep :: ds ↔ word <:+: cs ∨ word <:+: ds := by
  refine ⟨infix_of_not_mem h, ?_⟩
  rintro (hcs | hds)
  · exact hcs.trans (List.prefix_append cs _).isInfix
  · exact hds.trans ((List.suffix_cons sep ds).trans (List.suffix_append cs _)).isInfix

omit [BEq α] [LawfulBEq α] in
/-- A word without the separator stands in a join when it stands in one of the parts. -/
theorem infix_joinWith_iff {word : List α} {parts : List (List α)} (h : sep ∉ word)
    (hne : parts ≠ []) : word <:+: joinWith sep parts ↔ ∃ part ∈ parts, word <:+: part := by
  induction parts with
  | nil => exact absurd rfl hne
  | cons part parts ih =>
    cases parts with
    | nil => simp [joinWith]
    | cons next parts =>
      have hjoin : joinWith sep (part :: next :: parts) =
          part ++ sep :: joinWith sep (next :: parts) := rfl
      rw [hjoin, infix_append_sep_iff h, ih (List.cons_ne_nil _ _)]
      simp only [List.exists_mem_cons_iff]

/-- A word without separators occurs in a text exactly if it occurs in one of its parts. -/
theorem infix_iff_exists_part {word : List α} (h : sep ∉ word) :
    word <:+: cs ↔ ∃ part ∈ splitAt sep cs, word <:+: part := by
  rw [← infix_joinWith_iff h (splitAt_ne_nil sep cs), joinWith_splitAt]

end Parts

/-! ## Blank ends -/

/-- Blanks at the end are trimmed with the rest. -/
theorem trimEnd_append_blank {tail : List Char} (h : ∀ c ∈ tail, isBlank c) (cs : List Char) :
    trimEnd (cs ++ tail) = trimEnd cs := by
  rw [trimEnd, List.reverse_append, List.dropWhile_append_of_pos, trimEnd]
  simpa using h

/-- A character that is not blank stays, with all before it. -/
theorem trimEnd_append_cons {c : Char} (h : isBlank c = false) (cs rest : List Char) :
    trimEnd (cs ++ c :: rest) = cs ++ c :: trimEnd rest := by
  have hkept : (rest.reverse ++ (c :: cs.reverse)).dropWhile isBlank =
      rest.reverse.dropWhile isBlank ++ c :: cs.reverse := by
    rw [List.dropWhile_append]
    split
    · rename_i hempty
      rw [List.isEmpty_iff.mp hempty, List.dropWhile_cons_of_neg (by simp [h]), List.nil_append]
    · rfl
  rw [trimEnd, List.reverse_append, List.reverse_cons, List.append_assoc, List.singleton_append,
    hkept, trimEnd]
  simp

/-- A text ends in blanks after what is left without them. -/
theorem exists_trimEnd (cs : List Char) :
    ∃ tail, cs = trimEnd cs ++ tail ∧ ∀ c ∈ tail, isBlank c := by
  refine ⟨(cs.reverse.takeWhile isBlank).reverse, ?_, ?_⟩
  · rw [trimEnd, ← List.reverse_append, List.takeWhile_append_dropWhile, List.reverse_reverse]
  · intro c hc
    exact List.mem_takeWhile_imp (List.mem_reverse.mp hc)

/-- Only blanks are trimmed to nothing. -/
theorem isBlank_of_trimEnd_eq_nil {cs : List Char} (h : trimEnd cs = []) : ∀ c ∈ cs, isBlank c := by
  obtain ⟨tail, hsplit, htail⟩ := exists_trimEnd cs
  rw [h, List.nil_append] at hsplit
  rwa [hsplit]

/-- A text is what is left of it without its blank ends, between blanks. -/
theorem exists_trim (cs : List Char) :
    ∃ lead tail, cs = lead ++ trim cs ++ tail ∧ (∀ c ∈ lead, isBlank c) ∧
      ∀ c ∈ tail, isBlank c := by
  obtain ⟨tail, hsplit, htail⟩ := exists_trimEnd (cs.dropWhile isBlank)
  refine ⟨cs.takeWhile isBlank, tail, ?_, fun c hc => List.mem_takeWhile_imp hc, htail⟩
  rw [trim, List.append_assoc, ← hsplit, List.takeWhile_append_dropWhile]

/-- Blanks in front make no difference to the trimmed text. -/
theorem trim_append_of_blank {lead : List Char} (h : ∀ c ∈ lead, isBlank c) (cs : List Char) :
    trim (lead ++ cs) = trim cs := by
  rw [trim, List.dropWhile_append_of_pos h, trim]

/-- Nor do blanks at the end. -/
theorem trim_append_blank {tail : List Char} (h : ∀ c ∈ tail, isBlank c) (cs : List Char) :
    trim (cs ++ tail) = trim cs := by
  rw [trim, List.dropWhile_append]
  split
  · rename_i hempty
    have htail : tail.dropWhile isBlank = [] := List.dropWhile_eq_nil_iff.mpr h
    rw [htail, trim, List.isEmpty_iff.mp hempty]
  · rw [trimEnd_append_blank h, trim]

/-- Nor does a newline at the end. -/
theorem trim_append_newline (cs : List Char) : trim (cs ++ ['\n']) = trim cs :=
  trim_append_blank (List.forall_mem_singleton.mpr (by decide)) cs

/-- A word at the beginning stays. -/
theorem trim_word_append {word : List Char} (hne : word ≠ [])
    (hword : ∀ c ∈ word, isBlank c = false) (rest : List Char) :
    trim (word ++ rest) = word ++ trimEnd rest := by
  have hfirst : (word ++ rest).dropWhile isBlank = word ++ rest := by
    cases word with
    | nil => exact absurd rfl hne
    | cons c cs =>
      have hc : isBlank c = false := hword c List.mem_cons_self
      rw [List.cons_append, List.dropWhile_cons_of_neg (by simp [hc])]
  have hlast : isBlank (word.getLast hne) = false := hword _ (List.getLast_mem hne)
  have hend := trimEnd_append_cons hlast word.dropLast rest
  rw [trim, hfirst, ← List.dropLast_concat_getLast hne]
  simpa using hend

/-- Only the parts at its ends, which are not blank, lose blanks of a text. -/
theorem trim_append_append {first last : List Char} (hfirst : first.dropWhile isBlank ≠ [])
    (hlast : trimEnd last ≠ []) (mid : List Char) :
    trim (first ++ mid ++ last) = first.dropWhile isBlank ++ mid ++ trimEnd last := by
  have hkept : last.reverse.dropWhile isBlank ≠ [] := fun hnil => hlast (by rw [trimEnd, hnil]; rfl)
  have hstart : (first ++ mid ++ last).dropWhile isBlank =
      first.dropWhile isBlank ++ mid ++ last := by
    rw [List.append_assoc, List.dropWhile_append, if_neg (by simpa using hfirst), List.append_assoc]
  rw [trim, hstart, trimEnd, List.reverse_append, List.dropWhile_append,
    if_neg (by simpa using hkept),
    List.reverse_append, List.reverse_reverse, trimEnd]

/-- Nothing is left exactly of a blank text. -/
theorem trim_eq_nil_iff {cs : List Char} : trim cs = [] ↔ ∀ c ∈ cs, isBlank c := by
  constructor
  · intro hnil
    obtain ⟨lead, tail, hsplit, hlead, htail⟩ := exists_trim cs
    rw [hnil, List.append_nil] at hsplit
    intro c hc
    rw [hsplit, List.mem_append] at hc
    exact hc.elim (hlead c) (htail c)
  · intro hblank
    rw [← List.append_nil cs, trim_append_of_blank hblank]
    rfl

/-- A carriage return at the end of a line is one of its blanks. -/
theorem trim_dropReturn (line : List Char) : trim (dropReturn line) = trim line := by
  unfold dropReturn
  split
  · rename_i hlast
    obtain ⟨start, rfl⟩ := List.getLast?_eq_some_iff.mp (eq_of_beq hlast)
    rw [List.dropLast_concat, trim_append_blank (by simp [show isBlank '\r' = true by decide])]
  · rfl

end CallAtlas.Text
