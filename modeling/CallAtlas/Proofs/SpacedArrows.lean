import CallAtlas.Proofs.ArrowScans

/-!
# Lines whose arrows are spaced

Every arrow of a line, with all the hyphens before its bracket, should have one space of its own on
each side and no other space or tab beside these; two arrows with nothing but blanks between them
then stand two spaces apart (`Spaced`).  Spacing a line brings it into this form
(`spaced_spaceArrows`) and leaves a line that is in it as it is (`Spaced.spaceArrows_eq`).

Both are shown along the scan.  A character that leads to no arrow may be taken away from the
beginning of a line (`spaced_cons_iff`), and so may an arrow with a space on each side
(`spaced_arrow_iff`).
-/

set_option autoImplicit false

namespace CallAtlas.Tidy

open Text

variable {c : Char} {cs line before run run' after rest prev next : List Char}

/-- An occurrence of an arrow in a line, with all the hyphens before its bracket. -/
structure ArrowAt (line before run after : List Char) : Prop where
  split : line = before ++ (run ++ after)
  run : IsArrow run
  whole : ∀ c ∈ before.getLast?, c ≠ '-'

/-- The spaces that belong to an arrow on one of its sides, and to the next arrow if that comes
first there. -/
def ownSpaces (neighbour : Bool) : List Char := if neighbour then [' ', ' '] else [' ']

/-- Whether a text ends in an arrow. -/
def closesWithArrow (cs : List Char) : Bool := "-->".toList.isSuffixOf cs

/-- What stands before an arrow ends in the spaces that belong there and no more spaces and tabs. -/
def SpaceBefore (before : List Char) : Prop :=
  ∃ prev, before = prev ++ ownSpaces (closesWithArrow prev) ∧
    ∀ c ∈ prev.getLast?, isSpaceOrTab c = false

/-- What stands behind an arrow begins with the spaces that belong there and no more spaces and
tabs. -/
def SpaceAfter (after : List Char) : Prop :=
  ∃ next, after = ownSpaces (opensWithArrow next) ++ next ∧ ∀ c ∈ next.head?, isSpaceOrTab c = false

/-- Every arrow of a line has one space of its own on each side. -/
def Spaced (line : List Char) : Prop :=
  ∀ before run after, ArrowAt line before run after → SpaceBefore before ∧ SpaceAfter after

/-- The spaces that belong to an arrow are spaces. -/
theorem mem_ownSpaces {neighbour : Bool} (h : c ∈ ownSpaces neighbour) : c = ' ' := by
  cases neighbour <;> simpa [ownSpaces] using h

/-- They are spaces or tabs. -/
theorem ownSpaces_blank (neighbour : Bool) : ∀ c ∈ ownSpaces neighbour, isSpaceOrTab c := by
  intro c hc
  rw [mem_ownSpaces hc]
  decide

/-- A text ends in an arrow exactly when it ends in the shortest one. -/
theorem closesWithArrow_iff : closesWithArrow cs ↔ "-->".toList <:+ cs :=
  List.isSuffixOf_iff_suffix

/-- Within an arrow, only hyphens have something of it behind them. -/
theorem IsArrow.eq_hyphen {first second : List Char} (h : IsArrow (first ++ second))
    (hne : second ≠ []) : ∀ c ∈ first, c = '-' := by
  obtain ⟨n, hn⟩ := h
  have hinit := congrArg List.dropLast hn
  rw [List.dropLast_append_of_ne_nil hne, List.dropLast_concat] at hinit
  intro c hc
  exact List.eq_of_mem_replicate (hinit ▸ List.mem_append_left second.dropLast hc)

/-! ## Occurrences -/

/-- Where a line does not lead to an arrow, its occurrences are those behind the first
character. -/
theorem arrowAt_cons_iff (h : leadsToArrow (c :: cs) = false) :
    ArrowAt (c :: cs) before run after ↔
      ∃ before', before = c :: before' ∧ ArrowAt cs before' run after := by
  rw [← Bool.not_eq_true] at h
  constructor
  · rintro ⟨hsplit, hrun, hwhole⟩
    cases before with
    | nil => exact absurd (hsplit ▸ hrun.leadsToArrow after) h
    | cons d before =>
      obtain ⟨rfl, hcs⟩ := List.cons.inj hsplit
      refine ⟨before, rfl, hcs, hrun, fun e he => hwhole e ?_⟩
      rw [List.getLast?_cons, he]
      rfl
  · rintro ⟨before, rfl, hsplit, hrun, hwhole⟩
    refine ⟨by rw [hsplit, List.cons_append], hrun, fun e he => ?_⟩
    cases hlast : before.getLast? with
    | some d =>
      rw [List.getLast?_cons, hlast] at he
      exact hwhole e (hlast ▸ he)
    | none =>
      -- One more hyphen before an arrow would make a longer one.
      rintro rfl
      obtain rfl := List.getLast?_eq_none_iff.mp hlast
      obtain rfl : c = '-' := by simpa using he
      obtain ⟨n, rfl⟩ := hrun
      have hlonger : IsArrow ('-' :: (List.replicate (n + 2) '-' ++ ['>'])) := ⟨n + 1, rfl⟩
      rw [hsplit] at h
      exact h (hlonger.leadsToArrow after)

/-- The occurrences in a line that begins with a spaced arrow are this one and those behind it. -/
theorem arrowAt_arrow_iff (hrun : IsArrow run) :
    ArrowAt (' ' :: (run ++ ' ' :: cs)) before run' after ↔
      (before = [' '] ∧ run' = run ∧ after = ' ' :: cs) ∨
        ∃ before', before = ' ' :: (run ++ ' ' :: before') ∧ ArrowAt cs before' run' after := by
  constructor
  · rintro ⟨hsplit, hrun', hwhole⟩
    obtain ⟨more, hmore⟩ := hrun'.exists_cons
    cases before with
    | nil => exact absurd hsplit (by simp [hmore])
    | cons d before =>
      obtain ⟨rfl, hrest⟩ := List.cons.inj hsplit
      rcases List.append_eq_append_iff.mp hrest with ⟨gap, rfl, hgap⟩ | ⟨left, hleft, heq⟩
      · cases gap with
        | nil => exact absurd hgap (by simp [hmore])
        | cons d gap =>
          obtain ⟨rfl, hcs⟩ := List.cons.inj hgap
          refine Or.inr ⟨gap, rfl, hcs, hrun', fun e he => hwhole e ?_⟩
          rw [← List.cons_append, List.getLast?_append, List.getLast?_cons, he]
          rfl
      · -- An occurrence that begins within the first one begins with it, or it would not be whole.
        have hne : left ≠ [] := by
          rintro rfl
          exact absurd heq (by simp [hmore])
        have hnone : before = [] := by
          by_contra hbefore
          have hlast := (hleft ▸ hrun).eq_hyphen hne _ (List.getLast_mem hbefore)
          refine hwhole '-' ?_ rfl
          rw [List.getLast?_cons, List.getLast?_eq_getLast_of_ne_nil hbefore, hlast]
          rfl
        subst hnone
        rw [List.nil_append] at hleft
        obtain ⟨rfl, hafter⟩ := hrun'.eq_of_append_eq (hleft ▸ hrun) heq
        exact Or.inl ⟨rfl, hleft.symm, hafter⟩
  · rintro (⟨rfl, rfl, rfl⟩ | ⟨before, rfl, hsplit, hrun', hwhole⟩)
    · exact ⟨rfl, hrun, by simp⟩
    · refine ⟨by simp [hsplit], hrun', fun e he => ?_⟩
      rw [← List.cons_append, List.getLast?_append, List.getLast?_cons] at he
      cases hlast : before.getLast? with
      | some d =>
        rw [hlast] at he
        exact hwhole e (hlast ▸ he)
      | none =>
        rw [hlast] at he
        obtain rfl : ' ' = e := by simpa using he
        decide

/-! ## Spaces before an arrow -/

/-- What an arrow ends, ends in an arrow. -/
theorem IsArrow.closesWithArrow (h : IsArrow run) (first : List Char) :
    closesWithArrow (first ++ run) := by
  obtain ⟨n, rfl⟩ := h
  rw [closesWithArrow_iff]
  refine ⟨first ++ List.replicate n '-', ?_⟩
  rw [List.replicate_add, List.append_assoc, List.append_assoc]
  rfl

/-- A character that does not lead to an arrow in front changes nothing about the end. -/
theorem closesWithArrow_cons (h : leadsToArrow (c :: (cs ++ rest)) = false) :
    closesWithArrow (c :: cs) = closesWithArrow cs := by
  rw [Bool.eq_iff_iff, closesWithArrow_iff, closesWithArrow_iff, List.suffix_cons_iff,
    or_iff_right_iff_imp]
  intro harrow
  have hrun : IsArrow (c :: cs) := ⟨0, harrow.symm⟩
  have hleads := hrun.leadsToArrow rest
  rw [List.cons_append, h] at hleads
  exact absurd hleads (by decide)

/-- What stands before a space changes nothing about the end. -/
theorem closesWithArrow_append_space {first second : List Char} :
    closesWithArrow (first ++ ' ' :: second) = closesWithArrow second := by
  rw [Bool.eq_iff_iff, closesWithArrow_iff, closesWithArrow_iff]
  constructor
  · rintro ⟨start, hstart⟩
    rcases List.append_eq_append_iff.mp hstart with ⟨last, -, hlast⟩ | ⟨last, -, hlast⟩
    · have hmem : ' ' ∈ "-->".toList := hlast ▸ List.mem_append_right last List.mem_cons_self
      exact absurd hmem (by decide)
    · cases last with
      | nil => exact absurd hlast (by simp)
      | cons d last => exact ⟨last, (List.cons.inj hlast).2.symm⟩
  · intro h
    exact h.trans ((List.suffix_cons ' ' second).trans (List.suffix_append first _))

/-- Where a line does not lead to an arrow, the spaces before its arrows are the same without the
first character. -/
theorem spaceBefore_cons_iff (h : leadsToArrow (c :: (before ++ (run ++ after))) = false)
    (hrun : IsArrow run) : SpaceBefore (c :: before) ↔ SpaceBefore before := by
  have hgap : ¬∀ d ∈ c :: before, isSpaceOrTab d := by
    intro hall
    have hleads := leadsToArrow_append hall hrun after
    rw [List.cons_append, h] at hleads
    exact absurd hleads (by decide)
  constructor
  · rintro ⟨prev, hsplit, hlast⟩
    cases prev with
    | nil =>
      rw [List.nil_append] at hsplit
      exact absurd (hsplit ▸ ownSpaces_blank _) hgap
    | cons d prev =>
      rw [List.cons_append, List.cons_eq_cons] at hsplit
      obtain ⟨rfl, hbefore⟩ := hsplit
      rw [hbefore, List.append_assoc] at h
      refine ⟨prev, by rwa [closesWithArrow_cons h] at hbefore, fun e he => hlast e ?_⟩
      rw [List.getLast?_cons, he]
      rfl
  · rintro ⟨prev, rfl, hlast⟩
    rw [List.append_assoc] at h
    refine ⟨c :: prev, by rw [closesWithArrow_cons h, List.cons_append], fun e he => ?_⟩
    cases prev with
    | nil =>
      obtain rfl : c = e := by simpa using he
      rw [← Bool.not_eq_true]
      intro hblank
      rw [List.nil_append, List.forall_mem_cons] at hgap
      exact hgap ⟨hblank, ownSpaces_blank _⟩
    | cons d prev =>
      rw [List.getLast?_cons_cons] at he
      exact hlast e he

/-- Behind a spaced arrow, the spaces before an arrow are as if the line began there. -/
theorem spaceBefore_arrow_iff (hrun : IsArrow run) :
    SpaceBefore (' ' :: (run ++ ' ' :: before)) ↔ SpaceBefore before := by
  have hend : (' ' :: run).getLast? = some '>' := by
    obtain ⟨n, rfl⟩ := hrun
    rw [← List.cons_append, List.getLast?_concat]
  have hcloses : closesWithArrow (' ' :: run) := hrun.closesWithArrow [' ']
  rw [← List.cons_append]
  constructor
  · rintro ⟨prev, hsplit, hlast⟩
    have hprefix : ' ' :: run <+: prev := by
      rcases List.append_eq_append_iff.mp hsplit with ⟨gap, hgap, -⟩ | ⟨blanks, hblanks, hown⟩
      · exact ⟨gap, hgap.symm⟩
      · rw [hblanks, List.getLast?_append] at hend
        cases hlast : blanks.getLast? with
        | none => exact ⟨[], by rw [hblanks, List.getLast?_eq_none_iff.mp hlast]; simp⟩
        | some d =>
          have hmem : d ∈ ownSpaces (closesWithArrow prev) :=
            hown ▸ List.mem_append_left _ (List.mem_of_getLast? hlast)
          rw [hlast, mem_ownSpaces hmem] at hend
          exact absurd hend (by simp)
    obtain ⟨gap, rfl⟩ := hprefix
    rw [List.append_assoc, List.append_cancel_left_eq] at hsplit
    cases gap with
    | nil =>
      rw [List.append_nil, hcloses] at hsplit
      obtain rfl := (List.cons.inj hsplit).2
      exact ⟨[], rfl, by simp⟩
    | cons d gap =>
      obtain ⟨rfl, hbefore⟩ := List.cons.inj hsplit
      refine ⟨gap, by rwa [closesWithArrow_append_space] at hbefore, fun e he => hlast e ?_⟩
      rw [List.getLast?_append, List.getLast?_cons, he]
      rfl
  · rintro ⟨prev, rfl, hlast⟩
    cases prev with
    | nil =>
      refine ⟨' ' :: run, by rw [hcloses]; rfl, fun e he => ?_⟩
      rw [hend] at he
      obtain rfl := Option.some.inj he
      decide
    | cons d prev =>
      refine ⟨(' ' :: run) ++ ' ' :: (d :: prev), ?_, fun e he => hlast e ?_⟩
      · rw [closesWithArrow_append_space, List.append_assoc]
        rfl
      · rwa [List.getLast?_append, List.getLast?_cons_cons] at he

/-! ## Spaced lines -/

/-- The empty line is spaced. -/
theorem spaced_nil : Spaced [] := by
  rintro before run after ⟨hsplit, hrun, -⟩
  obtain ⟨more, rfl⟩ := hrun.exists_cons
  exact absurd hsplit (by simp)

/-- A character that leads to no arrow makes no difference. -/
theorem spaced_cons_iff (h : leadsToArrow (c :: cs) = false) : Spaced (c :: cs) ↔ Spaced cs := by
  have hbefore : ∀ {before run after}, ArrowAt cs before run after →
      (SpaceBefore (c :: before) ↔ SpaceBefore before) := fun hat =>
    spaceBefore_cons_iff (hat.split ▸ h) hat.run
  constructor
  · intro hspaced before run after hat
    have hsides := hspaced (c :: before) run after ((arrowAt_cons_iff h).mpr ⟨before, rfl, hat⟩)
    exact ⟨(hbefore hat).mp hsides.1, hsides.2⟩
  · intro hspaced before run after hat
    obtain ⟨before, rfl, hbehind⟩ := (arrowAt_cons_iff h).mp hat
    have hsides := hspaced before run after hbehind
    exact ⟨(hbefore hbehind).mpr hsides.1, hsides.2⟩

/-- Behind an arrow with a space on each side, a line is spaced as if it began there. -/
theorem spaced_arrow_iff (hrun : IsArrow run) :
    Spaced (' ' :: (run ++ ' ' :: cs)) ↔ SpaceAfter (' ' :: cs) ∧ Spaced cs := by
  constructor
  · intro hspaced
    refine ⟨(hspaced [' '] run (' ' :: cs) ⟨rfl, hrun, by simp⟩).2, ?_⟩
    intro before run' after hat
    have hsides := hspaced _ run' after ((arrowAt_arrow_iff hrun).mpr (Or.inr ⟨before, rfl, hat⟩))
    exact ⟨(spaceBefore_arrow_iff hrun).mp hsides.1, hsides.2⟩
  · rintro ⟨hafter, hspaced⟩ before run' after hat
    rcases (arrowAt_arrow_iff hrun).mp hat with ⟨rfl, rfl, rfl⟩ | ⟨before, rfl, hbehind⟩
    · exact ⟨⟨[], rfl, by simp⟩, hafter⟩
    · have hsides := hspaced before run' after hbehind
      exact ⟨(spaceBefore_arrow_iff hrun).mpr hsides.1, hsides.2⟩

/-- Spacing makes no difference to whether a line leads to an arrow. -/
theorem leadsToArrow_spaceArrows (cs : List Char) :
    leadsToArrow (spaceArrows cs) = leadsToArrow cs := by
  induction cs using arrows_induct with
  | nil => rfl
  | skip c cs hskip ih =>
    rw [spaceArrows_cons hskip, hskip]
    by_cases hc : isSpaceOrTab c
    · rw [leadsToArrow_cons_of_blank hc] at hskip
      rw [leadsToArrow_cons_of_blank hc, ih, hskip]
    · rw [Bool.not_eq_true] at hc
      rw [leadsToArrow_cons_of_not_blank hc, ← Bool.not_eq_true]
      intro hopens
      obtain ⟨run, rest, hrun, hsplit⟩ := opensWithArrow_iff.mp hopens
      have hprefix : run <+: c :: cs := by
        apply prefix_of_prefix_spaceArrows hrun.isGapless
        exact ⟨rest, by rw [spaceArrows_cons hskip, hsplit]⟩
      obtain ⟨rest, hrest⟩ := hprefix
      rw [← hrest, hrun.leadsToArrow] at hskip
      exact absurd hskip (by decide)
  | arrow lead run tail rest hparts _ =>
    have hspace : ∀ c ∈ [' '], isSpaceOrTab c := List.forall_mem_singleton.mpr rfl
    rw [spaceArrows_arrow hparts, hparts.leadsToArrow]
    exact leadsToArrow_append hspace hparts.run _

/-- Behind an arrow that has been spaced comes the space of the next arrow, if any. -/
theorem spaceAfter_spaceArrows (h : ∀ c ∈ rest.head?, isSpaceOrTab c = false) :
    SpaceAfter (' ' :: spaceArrows rest) := by
  by_cases hleads : leadsToArrow rest
  · obtain ⟨lead, run, tail, rest, hparts, rfl⟩ := exists_arrowParts hleads
    refine ⟨run ++ ' ' :: spaceArrows rest, ?_, ?_⟩
    · rw [opensWithArrow_iff.mpr ⟨run, _, hparts.run, rfl⟩, spaceArrows_arrow hparts]
      rfl
    · obtain ⟨more, hmore⟩ := hparts.run.exists_cons
      intro c hc
      obtain rfl : '-' = c := by simpa [hmore] using hc
      decide
  · rw [Bool.not_eq_true] at hleads
    cases rest with
    | nil => exact ⟨[], rfl, h⟩
    | cons c rest =>
      have hc : isSpaceOrTab c = false := h c rfl
      have hopens : opensWithArrow (spaceArrows (c :: rest)) = false := by
        rw [← hleads, ← leadsToArrow_spaceArrows, spaceArrows_cons hleads,
          leadsToArrow_cons_of_not_blank hc]
      refine ⟨spaceArrows (c :: rest), by rw [hopens]; rfl, ?_⟩
      rw [spaceArrows_cons hleads]
      exact h

/-- The arrows of a line are spaced when they have been spaced. -/
theorem spaced_spaceArrows (line : List Char) : Spaced (spaceArrows line) := by
  induction line using arrows_induct with
  | nil => exact spaced_nil
  | skip c cs hskip ih =>
    rw [spaceArrows_cons hskip, spaced_cons_iff]
    · exact ih
    · rw [← spaceArrows_cons hskip, leadsToArrow_spaceArrows, hskip]
  | arrow lead run tail rest hparts ih =>
    rw [spaceArrows_arrow hparts, spaced_arrow_iff hparts.run]
    exact ⟨spaceAfter_spaceArrows hparts.rest, ih⟩

example : spaceArrows "a\t-->--->b".toList = "a -->  ---> b".toList := by decide

/-- If only spaces and tabs stand before an arrow, they are one space. -/
theorem SpaceBefore.eq_of_blank (h : SpaceBefore before) (hblank : ∀ c ∈ before, isSpaceOrTab c) :
    before = [' '] := by
  obtain ⟨prev, rfl, hlast⟩ := h
  cases hprev : prev.getLast? with
  | none =>
    rw [List.getLast?_eq_none_iff.mp hprev]
    rfl
  | some d =>
    have hd := hblank d (List.mem_append_left _ (List.mem_of_getLast? hprev))
    rw [hlast d hprev] at hd
    exact absurd hd (by decide)

/-- All spaces and tabs behind an arrow are those that belong there. -/
theorem SpaceAfter.eq_ownSpaces (h : SpaceAfter (after ++ rest))
    (hblank : ∀ c ∈ after, isSpaceOrTab c) (hrest : ∀ c ∈ rest.head?, isSpaceOrTab c = false) :
    after = ownSpaces (opensWithArrow rest) := by
  obtain ⟨next, hsplit, hnext⟩ := h
  have hown := takeWhile_of_stop (ownSpaces_blank (opensWithArrow next)) hnext
  rw [← hsplit, takeWhile_of_stop hblank hrest] at hown
  rw [hown, List.append_cancel_left_eq] at hsplit
  rw [hown, hsplit]

/-- A line whose arrows are spaced is left as it is. -/
theorem Spaced.spaceArrows_eq (h : Spaced line) : spaceArrows line = line := by
  induction hn : line.length using Nat.strongRecOn generalizing line with
  | _ n ih =>
    by_cases hleads : leadsToArrow line
    · obtain ⟨lead, run, tail, rest, hparts, rfl⟩ := exists_arrowParts hleads
      have hwhole : ∀ c ∈ lead.getLast?, c ≠ '-' := by
        rintro c hc rfl
        exact absurd (hparts.lead '-' (List.mem_of_getLast? hc)) (by decide)
      obtain ⟨hbefore, hafter⟩ := h lead run (tail ++ rest) ⟨rfl, hparts.run, hwhole⟩
      have hlead : lead = [' '] := hbefore.eq_of_blank hparts.lead
      have htail := hafter.eq_ownSpaces hparts.tail hparts.rest
      -- The space of the next arrow, if any, is left to the rest of the line.
      obtain ⟨cs, hcs, hrest⟩ : ∃ cs, tail ++ rest = ' ' :: cs ∧
          spaceArrows cs = spaceArrows rest := by
        cases hopens : opensWithArrow rest with
        | false => exact ⟨rest, by rw [htail, hopens]; rfl, rfl⟩
        | true =>
          obtain ⟨run', after, hrun', rfl⟩ := opensWithArrow_iff.mp hopens
          exact ⟨' ' :: (run' ++ after), by rw [htail, hopens]; rfl,
            spaceArrows_cons_of_blank (by decide) (hrun'.leadsToArrow after)⟩
      rw [spaceArrows_arrow hparts, ← hrest]
      rw [hlead, hcs] at h hn ⊢
      have hspaced := ((spaced_arrow_iff hparts.run).mp h).2
      simp only [List.length_append, List.length_cons] at hn
      rw [ih cs.length (by omega) hspaced rfl]
      rfl
    · cases line with
      | nil => rfl
      | cons c cs =>
        rw [Bool.not_eq_true] at hleads
        rw [List.length_cons] at hn
        rw [spaceArrows_cons hleads, ih cs.length (by omega) ((spaced_cons_iff hleads).mp h) rfl]

/-- A line is spaced exactly when spacing its arrows leaves it as it is. -/
theorem spaced_iff : Spaced line ↔ spaceArrows line = line :=
  ⟨Spaced.spaceArrows_eq, fun h => h ▸ spaced_spaceArrows line⟩

end CallAtlas.Tidy
