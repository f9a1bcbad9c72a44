import CallAtlas.Diagram.Tidy
import CallAtlas.Proofs.FragmentReplacement
import CallAtlas.Proofs.MatchScans
import CallAtlas.Proofs.TextLines

/-!
# Scans for arrows

Spacing the arrows of a line goes through the line from the left.  Where spaces and tabs, if any,
and then an arrow come, all of these and the spaces and tabs behind the arrow are taken, and the
arrow is put in with one space on each side (`spaceArrows_arrow`); any other character stays
(`spaceArrows_cons`).  Since these are all the steps there are, what holds of a line by these two
holds of every line (`arrows_induct`).
-/

set_option autoImplicit false

namespace CallAtlas

namespace Text

variable {α : Type}

/-! ## Matches that take as much as they can -/

/-- The preferred cut of a repeated test takes as much as passes the test. -/
theorem Pattern.head?_cuts_star_one (test : α → Bool) (before : Option α) (input : List α) :
    ((Pattern.star (.one test)).cuts before input).head? =
      some (input.takeWhile test, input.dropWhile test) := by
  suffices h : ∀ before, (repeated (Pattern.one test).cuts input before input).head? =
      some (input.takeWhile test, input.dropWhile test) from h before
  induction input with
  | nil => exact fun before => rfl
  | cons a input ih =>
    intro before
    by_cases ha : test a
    · have hone : ((Pattern.one test).cuts before (a :: input)).filter (fun c => !c.1.isEmpty) =
          [([a], input)] := by
        simp [cuts, ha]
      rw [repeated, hone, chain, List.flatMap_singleton, List.head?_append, List.head?_map, ih,
        List.takeWhile_cons_of_pos ha, List.dropWhile_cons_of_pos ha]
      rfl
    · simp [repeated, chain, cuts, ha]

namespace Probe

variable {p : Probe α} {past input : List α} {f : Found α}

/-- The tail of a match is the preferred one. -/
theorem head?_cuts_tail (h : p.matchHere past input = some f) :
    ∃ before, (p.tail.cuts before (f.tail ++ f.rest)).head? = some (f.tail, f.rest) := by
  simp only [matchHere, Pattern.search_eq] at h
  obtain ⟨⟨lead, afterLead⟩, -, hinner⟩ := List.exists_of_findSome?_eq_some h
  obtain ⟨⟨target, afterTarget⟩, -, hinnermost⟩ := List.exists_of_findSome?_eq_some hinner
  generalize hbefore : Option.or ([] : List α).head? _ = before at hinnermost
  refine ⟨before, ?_⟩
  cases hcuts : p.tail.cuts before afterTarget with
  | nil =>
    rw [hcuts] at hinnermost
    exact absurd hinnermost (by simp)
  | cons c cs =>
    rw [hcuts, List.findSome?_cons] at hinnermost
    have hsplit := Pattern.append_of_mem_cuts (hcuts ▸ List.mem_cons_self)
    simp only [List.append_nil, List.reverse_reverse, Option.some.injEq] at hinnermost
    subst hinnermost
    rw [hsplit, hcuts]
    rfl

/-! ## Substitutions that look at no neighbours -/

variable {new : Found α → List α}

/-- Characters to be skipped leave no text, and are behind the scan from there on. -/
theorem substituteAfter_skipped (skipped past rest : List α) :
    p.substituteAfter new skipped.length past (skipped ++ rest) =
      p.substituteAfter new 0 (skipped.reverse ++ past) rest := by
  induction skipped generalizing past with
  | nil => rfl
  | cons a skipped ih =>
    rw [List.length_cons, List.cons_append, substituteAfter, ih, List.reverse_cons,
      List.append_assoc, List.singleton_append]

/-- A probe without edges is replaced in the same way whatever stands before the input. -/
theorem substituteAfter_congr_past (h : p.isEdgeless)
    (hnew : ∀ f past, new { f with past := past } = new f) (skip : Nat)
    (past past' input : List α) :
    p.substituteAfter new skip past input = p.substituteAfter new skip past' input := by
  induction input generalizing skip past past' with
  | nil => simp [substituteAfter]
  | cons a rest ih =>
    cases skip with
    | succ skip => exact ih skip (a :: past) (a :: past')
    | zero =>
      rw [substituteAfter, substituteAfter, matchHere_congr_past h past past']
      cases p.matchHere past' (a :: rest) with
      | none => exact congrArg (a :: ·) (ih 0 (a :: past) (a :: past'))
      | some f =>
        simp only [Option.map_some, hnew]
        exact congrArg (new f ++ ·) (ih _ (a :: past) (a :: past'))

/-- A match at the beginning is replaced, and the substitution goes on behind it. -/
theorem substituteAfter_of_match (h : p.matchHere past input = some f) (hne : f.whole ≠ []) :
    p.substituteAfter new 0 past input =
      new f ++ p.substituteAfter new 0 (f.whole.reverse ++ past) f.rest := by
  obtain ⟨a, whole, hwhole⟩ := List.exists_cons_of_ne_nil hne
  have hinput : input = a :: (whole ++ f.rest) := by
    rw [← onward_of_matchHere h, Found.onward, hwhole, List.cons_append]
  subst hinput
  have hlength : f.whole.length - 1 = whole.length := by
    rw [hwhole, List.length_cons, Nat.add_sub_cancel]
  rw [substituteAfter, h]
  simp only [hlength]
  rw [substituteAfter_skipped, hwhole, List.reverse_cons, List.append_assoc, List.singleton_append]

end Probe

end Text

namespace Tidy

open Text

variable {c : Char} {cs lead run tail rest part word first second : List Char}

/-! ## Arrows -/

/-- Whether a run of characters is an arrow: two or more hyphens and a closing bracket. -/
def IsArrow (run : List Char) : Prop :=
  ∃ n, run = List.replicate (n + 2) '-' ++ ['>']

/-- Whether a run of characters has no spaces and tabs. -/
def isGapless (cs : List Char) : Bool :=
  cs.all fun c => !isSpaceOrTab c

/-- Whether a text begins with an arrow. -/
def opensWithArrow (cs : List Char) : Bool :=
  Nat.ble 2 (cs.takeWhile (· == '-')).length && (cs.dropWhile (· == '-')).head? == some '>'

/-- Whether a text begins with spaces and tabs, if any, and then an arrow. -/
def leadsToArrow (cs : List Char) : Bool :=
  opensWithArrow (cs.dropWhile isSpaceOrTab)

/-- The parts of a text that leads to an arrow: spaces and tabs, the arrow, all spaces and tabs
behind it, and the rest. -/
structure ArrowParts (lead run tail rest : List Char) : Prop where
  lead : ∀ c ∈ lead, isSpaceOrTab c
  run : IsArrow run
  tail : ∀ c ∈ tail, isSpaceOrTab c
  rest : ∀ c ∈ rest.head?, isSpaceOrTab c = false

/-- A run is without gaps when none of its characters is a space or a tab. -/
theorem isGapless_iff : isGapless cs ↔ ∀ c ∈ cs, isSpaceOrTab c = false := by
  simp [isGapless]

/-- The first character of a run without gaps is no space or tab, and the others have none. -/
theorem isGapless_cons : isGapless (c :: cs) ↔ isSpaceOrTab c = false ∧ isGapless cs := by
  simp [isGapless]

/-- An arrow begins with a hyphen. -/
theorem IsArrow.exists_cons (h : IsArrow run) : ∃ more, run = '-' :: more := by
  obtain ⟨n, rfl⟩ := h
  exact ⟨List.replicate (n + 1) '-' ++ ['>'], by rw [List.replicate_succ, List.cons_append]⟩

/-- An arrow is made of hyphens and a closing bracket. -/
theorem IsArrow.mem (h : IsArrow run) (hc : c ∈ run) : c = '-' ∨ c = '>' := by
  obtain ⟨n, rfl⟩ := h
  rcases List.mem_append.mp hc with hc | hc
  · exact Or.inl (List.eq_of_mem_replicate hc)
  · exact Or.inr (List.mem_singleton.mp hc)

/-- An arrow has no spaces and tabs inside. -/
theorem IsArrow.isGapless (h : IsArrow run) : isGapless run := by
  rw [isGapless_iff]
  intro c hc
  rcases h.mem hc with rfl | rfl <;> decide

/-- A text begins with one arrow only. -/
theorem IsArrow.eq_of_append_eq {run' rest' : List Char} (h : IsArrow run) (h' : IsArrow run')
    (heq : run ++ rest = run' ++ rest') : run = run' ∧ rest = rest' := by
  obtain ⟨n, rfl⟩ := h
  obtain ⟨n', rfl⟩ := h'
  have hhyphens : ∀ n, '>' ∉ List.replicate n '-' := by
    intro n hmem
    exact absurd (List.eq_of_mem_replicate hmem) (by decide)
  rw [List.append_assoc, List.append_assoc] at heq
  obtain ⟨hrun, hrest⟩ := eq_of_append_sep_eq (hhyphens _) (hhyphens _) heq
  rw [hrun]
  exact ⟨rfl, hrest⟩

/-- A text begins with an arrow exactly when it splits into one and a rest. -/
theorem opensWithArrow_iff :
    opensWithArrow cs ↔ ∃ run rest, IsArrow run ∧ cs = run ++ rest := by
  rw [opensWithArrow, Bool.and_eq_true, Nat.ble_eq, beq_iff_eq]
  constructor
  · rintro ⟨hlength, hhead⟩
    obtain ⟨rest, hrest⟩ : ∃ rest, cs.dropWhile (· == '-') = '>' :: rest := by
      cases hdrop : cs.dropWhile (· == '-') with
      | nil => rw [hdrop] at hhead; exact absurd hhead (by simp)
      | cons c rest =>
        rw [hdrop] at hhead
        obtain rfl := Option.some.inj hhead
        exact ⟨rest, rfl⟩
    have hhyphens : cs.takeWhile (· == '-') =
        List.replicate (cs.takeWhile (· == '-')).length '-' :=
      List.eq_replicate_of_mem fun c hc => eq_of_beq (List.mem_takeWhile_imp (p := (· == '-')) hc)
    obtain ⟨n, hn⟩ := Nat.exists_eq_add_of_le' hlength
    refine ⟨List.replicate (n + 2) '-' ++ ['>'], rest, ⟨n, rfl⟩, ?_⟩
    rw [← hn, ← hhyphens, List.append_assoc, List.singleton_append, ← hrest,
      List.takeWhile_append_dropWhile]
  · rintro ⟨run, rest, ⟨n, rfl⟩, rfl⟩
    have hhyphens : ∀ c ∈ List.replicate (n + 2) '-', (c == '-') = true := by
      intro c hc
      rw [List.eq_of_mem_replicate hc]
      rfl
    rw [List.append_assoc, takeWhile_of_stop hhyphens (by simp),
      List.dropWhile_append_of_pos hhyphens]
    simp

/-- Spaces and tabs before an arrow lead to it. -/
theorem leadsToArrow_append (hlead : ∀ c ∈ lead, isSpaceOrTab c) (hrun : IsArrow run)
    (rest : List Char) : leadsToArrow (lead ++ (run ++ rest)) := by
  obtain ⟨more, hmore⟩ := hrun.exists_cons
  have hstop : (run ++ rest).dropWhile isSpaceOrTab = run ++ rest := by
    rw [hmore, List.cons_append, List.dropWhile_cons_of_neg (by decide)]
  rw [leadsToArrow, List.dropWhile_append_of_pos hlead, hstop, opensWithArrow_iff]
  exact ⟨run, rest, hrun, rfl⟩

/-- An arrow leads to itself. -/
theorem IsArrow.leadsToArrow (h : IsArrow run) (rest : List Char) : leadsToArrow (run ++ rest) :=
  leadsToArrow_append (List.forall_mem_nil _) h rest

/-- A text that falls into the parts of an arrow leads to one. -/
theorem ArrowParts.leadsToArrow (h : ArrowParts lead run tail rest) :
    leadsToArrow (lead ++ (run ++ (tail ++ rest))) :=
  leadsToArrow_append h.lead h.run _

/-- What is left after dropping characters of a class begins with none of them. -/
theorem head?_dropWhile_eq_false {test : Char → Bool} :
    ∀ c ∈ (cs.dropWhile test).head?, test c = false := by
  intro c hc
  have hstop := List.head?_dropWhile_not test cs
  rwa [Option.mem_def.mp hc] at hstop

/-- A text that leads to an arrow falls into its parts. -/
theorem exists_arrowParts (h : leadsToArrow cs) :
    ∃ lead run tail rest, ArrowParts lead run tail rest ∧ cs = lead ++ (run ++ (tail ++ rest)) := by
  obtain ⟨run, after, hrun, hsplit⟩ := opensWithArrow_iff.mp h
  refine ⟨cs.takeWhile isSpaceOrTab, run, after.takeWhile isSpaceOrTab,
    after.dropWhile isSpaceOrTab, ⟨fun c hc => List.mem_takeWhile_imp hc, hrun,
      fun c hc => List.mem_takeWhile_imp hc, head?_dropWhile_eq_false⟩, ?_⟩
  rw [List.takeWhile_append_dropWhile, ← hsplit, List.takeWhile_append_dropWhile]

/-- A space or tab in front changes nothing about what a text leads to. -/
theorem leadsToArrow_cons_of_blank (h : isSpaceOrTab c) :
    leadsToArrow (c :: cs) = leadsToArrow cs := by
  rw [leadsToArrow, List.dropWhile_cons_of_pos h, leadsToArrow]

/-- Where no space or tab stands in front, leading to an arrow is beginning with one. -/
theorem leadsToArrow_cons_of_not_blank (h : isSpaceOrTab c = false) :
    leadsToArrow (c :: cs) = opensWithArrow (c :: cs) := by
  rw [leadsToArrow, List.dropWhile_cons_of_neg (by simp [h])]

/-- A text that begins with no hyphen begins with no arrow. -/
theorem opensWithArrow_cons (h : c ≠ '-') : opensWithArrow (c :: cs) = false := by
  simp [opensWithArrow, h]

/-- No arrow goes beyond a character that belongs neither to arrows nor to the gaps around them. -/
theorem leadsToArrow_of_append (hblank : isSpaceOrTab c = false) (hhyphen : c ≠ '-')
    (hbracket : c ≠ '>') (h : leadsToArrow (first ++ c :: second)) : leadsToArrow first := by
  obtain ⟨lead, run, tail, rest, hparts, heq⟩ := exists_arrowParts h
  rw [← List.append_assoc] at heq
  have hnot : c ∉ lead ++ run := by
    intro hmem
    rcases List.mem_append.mp hmem with hmem | hmem
    · rw [hparts.lead c hmem] at hblank
      exact absurd hblank (by decide)
    · exact (hparts.run.mem hmem).elim hhyphen hbracket
  rcases List.append_eq_append_iff.mp heq with ⟨more, hmore, hsecond⟩ | ⟨more, rfl, -⟩
  · cases more with
    | nil =>
      have happend := leadsToArrow_append hparts.lead hparts.run []
      rwa [List.append_nil, hmore, List.append_nil] at happend
    | cons d more =>
      obtain ⟨rfl, -⟩ := List.cons.inj hsecond
      exact absurd (hmore ▸ List.mem_append_right first List.mem_cons_self) hnot
  · rw [List.append_assoc]
    exact leadsToArrow_append hparts.lead hparts.run more

/-! ## The steps of the scan -/

/-- The target of the arrow probe takes an arrow at the beginning of the input and nothing else. -/
theorem mem_cuts_target_iff {before : Option Char} {input : List Char} :
    (run, rest) ∈ arrow.target.cuts before input ↔ IsArrow run ∧ run ++ rest = input := by
  simp only [arrow, Pattern.all, Pattern.mem_cuts_seq_iff, Pattern.mem_cuts_one_iff,
    Pattern.mem_cuts_plus_one_iff, beq_iff_eq]
  constructor
  · rintro ⟨_, _, _, rfl, ⟨_, rfl, rfl, rfl⟩, hyphens, _, _, rfl, ⟨hne, rfl, hhyphens⟩, _, rfl, rfl,
      rfl⟩
    obtain ⟨n, hn⟩ := Nat.exists_eq_succ_of_ne_zero (List.length_pos_iff.mpr hne).ne'
    refine ⟨⟨n, ?_⟩, by simp⟩
    have hall : hyphens = List.replicate (n + 1) '-' := by
      rw [← Nat.succ_eq_add_one, ← hn]
      exact List.eq_replicate_of_mem hhyphens
    rw [hall, List.replicate_succ (n := n + 1)]
    rfl
  · rintro ⟨⟨n, rfl⟩, rfl⟩
    refine ⟨['-'], List.replicate (n + 1) '-' ++ ['>'],
      List.replicate (n + 1) '-' ++ ('>' :: rest), ?_, ⟨'-', rfl, rfl, ?_⟩,
      List.replicate (n + 1) '-', ['>'], '>' :: rest, rfl, ⟨by simp, rfl, ?_⟩, '>', rfl, rfl, rfl⟩
    · rw [List.replicate_succ (n := n + 1)]
      rfl
    · simp [List.replicate_succ]
    · exact fun c hc => List.eq_of_mem_replicate hc

/-- A match takes the arrow and all spaces and tabs around it. -/
theorem matchHere_of_arrowParts (h : ArrowParts lead run tail rest) (past : List Char) :
    arrow.matchHere past (lead ++ (run ++ (tail ++ rest))) =
      some ⟨past, lead, run, tail, rest⟩ := by
  have hexists : ∃ f, arrow.matchHere past (lead ++ (run ++ (tail ++ rest))) = some f := by
    apply Probe.exists_matchHere (Pattern.mem_cuts_star_one_iff.mpr ⟨rfl, h.lead⟩)
      (mem_cuts_target_iff.mpr ⟨h.run, rfl⟩) (Pattern.mem_cuts_star_one_iff.mpr ⟨rfl, h.tail⟩)
  obtain ⟨f, hf⟩ := hexists
  obtain ⟨hpast, hlead, htarget, -⟩ := Probe.matchHere_eq_some hf
  obtain ⟨hsplit, hblank⟩ := Pattern.mem_cuts_star_one_iff.mp hlead
  have harrow := (mem_cuts_target_iff.mp htarget).1
  -- Both leads end where the hyphens begin.
  have hstop : ∀ {run}, IsArrow run → ∀ after, ∀ c ∈ (run ++ after).head?,
      isSpaceOrTab c = false := by
    intro run hrun after c hc
    obtain ⟨more, rfl⟩ := hrun.exists_cons
    obtain rfl : '-' = c := by simpa using hc
    decide
  have hleads : f.lead = lead := by
    rw [← takeWhile_of_stop hblank (hstop harrow (f.tail ++ f.rest)),
      ← takeWhile_of_stop h.lead (hstop h.run (tail ++ rest)), ← hsplit,
      List.append_assoc]
  rw [hleads, List.append_assoc] at hsplit
  obtain ⟨hruns, hafter⟩ := harrow.eq_of_append_eq h.run (List.append_cancel_left hsplit)
  obtain ⟨before, hhead⟩ := Probe.head?_cuts_tail hf
  have hpreferred := Pattern.head?_cuts_star_one isSpaceOrTab before (f.tail ++ f.rest)
  have htail := hpreferred.symm.trans hhead
  rw [hafter, takeWhile_of_stop h.tail h.rest, Option.some.injEq, Prod.mk.injEq] at htail
  have hrests : f.rest = rest := by
    rw [← htail.1] at hafter
    exact List.append_cancel_left hafter
  rw [hf, ← hpast, ← hleads, ← hruns, htail.1, ← hrests]

/-- The arrow probe does not match where no arrow is led to. -/
theorem matchHere_of_not_leadsToArrow (h : leadsToArrow cs = false) (past : List Char) :
    arrow.matchHere past cs = none := by
  rw [Option.eq_none_iff_forall_ne_some]
  intro f hf
  obtain ⟨-, hlead, htarget, -⟩ := Probe.matchHere_eq_some hf
  obtain ⟨hsplit, hblank⟩ := Pattern.mem_cuts_star_one_iff.mp hlead
  have hleads := leadsToArrow_append hblank (mem_cuts_target_iff.mp htarget).1 (f.tail ++ f.rest)
  rw [← List.append_assoc f.target, hsplit, h] at hleads
  exact absurd hleads (by decide)

/-- Substituting every arrow by a spaced one is `spaceArrows`. -/
theorem substituteAfter_arrow_eq (past cs : List Char) :
    arrow.substituteAfter (fun f => ' ' :: f.target ++ [' ']) 0 past cs = spaceArrows cs :=
  Probe.substituteAfter_congr_past (by decide) (fun _ _ => rfl) 0 past [] cs

/-- A character that leads to no arrow stays. -/
theorem spaceArrows_cons (h : leadsToArrow (c :: cs) = false) :
    spaceArrows (c :: cs) = c :: spaceArrows cs := by
  rw [spaceArrows, Probe.substitute, Probe.substituteAfter, matchHere_of_not_leadsToArrow h]
  simp only [substituteAfter_arrow_eq]

/-- An arrow is put in with one space on each side. -/
theorem spaceArrows_arrow (h : ArrowParts lead run tail rest) :
    spaceArrows (lead ++ (run ++ (tail ++ rest))) = ' ' :: (run ++ ' ' :: spaceArrows rest) := by
  have hmatch := matchHere_of_arrowParts h []
  have hne : (⟨[], lead, run, tail, rest⟩ : Found Char).whole ≠ [] := by
    obtain ⟨more, hmore⟩ := h.run.exists_cons
    simp [Found.whole, hmore]
  rw [spaceArrows, Probe.substitute, Probe.substituteAfter_of_match hmatch hne]
  simp only [substituteAfter_arrow_eq]
  simp

/-- A space or tab more before an arrow makes no difference. -/
theorem spaceArrows_cons_of_blank (hc : isSpaceOrTab c) (h : leadsToArrow cs) :
    spaceArrows (c :: cs) = spaceArrows cs := by
  obtain ⟨lead, run, tail, rest, hparts, rfl⟩ := exists_arrowParts h
  have hmore : ArrowParts (c :: lead) run tail rest :=
    ⟨List.forall_mem_cons.mpr ⟨hc, hparts.lead⟩, hparts.run, hparts.tail, hparts.rest⟩
  rw [← List.cons_append, spaceArrows_arrow hmore, spaceArrows_arrow hparts]

/-- What holds of the empty line, and of a line if it holds of what follows the first character or
the first arrow, whichever the scan takes first, holds of every line. -/
theorem arrows_induct {motive : List Char → Prop} (nil : motive [])
    (skip : ∀ c cs, leadsToArrow (c :: cs) = false → motive cs → motive (c :: cs))
    (arrow : ∀ lead run tail rest, ArrowParts lead run tail rest → motive rest →
      motive (lead ++ (run ++ (tail ++ rest)))) (cs : List Char) : motive cs := by
  induction hn : cs.length using Nat.strongRecOn generalizing cs with
  | _ n ih =>
    by_cases hleads : leadsToArrow cs
    · obtain ⟨lead, run, tail, rest, hparts, rfl⟩ := exists_arrowParts hleads
      obtain ⟨more, hmore⟩ := hparts.run.exists_cons
      apply arrow lead run tail rest hparts (ih rest.length _ rest rfl)
      simp only [List.length_append, hmore, List.length_cons] at hn
      omega
    · cases cs with
      | nil => exact nil
      | cons c cs =>
        rw [List.length_cons] at hn
        exact skip c cs (by simpa using hleads) (ih cs.length (by omega) cs rfl)

/-! ## What the scan passes over -/

/-- What begins a line behind its spacing, without spaces and tabs, begins the line itself. -/
theorem prefix_of_prefix_spaceArrows (hpart : isGapless part)
    (h : part <+: spaceArrows cs) : part <+: cs := by
  induction cs using arrows_induct generalizing part with
  | nil => exact h
  | skip c cs hskip ih =>
    rw [spaceArrows_cons hskip] at h
    rcases List.prefix_cons_iff.mp h with rfl | ⟨more, rfl, hmore⟩
    · exact List.nil_prefix
    · exact List.cons_prefix_cons.mpr ⟨rfl, ih (isGapless_cons.mp hpart).2 hmore⟩
  | arrow lead run tail rest hparts _ =>
    rw [spaceArrows_arrow hparts] at h
    rcases List.prefix_cons_iff.mp h with rfl | ⟨more, rfl, -⟩
    · exact List.nil_prefix
    · exact absurd (isGapless_cons.mp hpart).1 (by decide)

/-- No fragment without spaces and tabs arises when arrows are spaced. -/
theorem infix_of_infix_spaceArrows (hpart : isGapless part)
    (h : part <:+: spaceArrows cs) : part <:+: cs := by
  have hspace : ' ' ∉ part := fun hmem => absurd (isGapless_iff.mp hpart ' ' hmem) (by decide)
  induction cs using arrows_induct with
  | nil => exact h
  | skip c cs hskip ih =>
    rw [spaceArrows_cons hskip, List.infix_cons_iff, ← spaceArrows_cons hskip] at h
    rcases h with h | h
    · exact (prefix_of_prefix_spaceArrows hpart h).isInfix
    · exact (ih h).trans (List.suffix_cons c cs).isInfix
  | arrow lead run tail rest hparts ih =>
    rw [spaceArrows_arrow hparts, ← List.nil_append (' ' :: _)] at h
    rcases infix_of_not_mem hspace h with h | h
    · rw [List.infix_nil.mp h]
      exact List.nil_infix
    · have hrun : run <:+: lead ++ (run ++ (tail ++ rest)) := ⟨lead, tail ++ rest, by simp⟩
      have hrest : rest <:+: lead ++ (run ++ (tail ++ rest)) := ⟨lead ++ run ++ tail, [], by simp⟩
      exact (infix_of_not_mem hspace h).elim (fun h => h.trans hrun) (fun h => (ih h).trans hrest)

/-- A word of other characters parts a line into two that are spaced on their own, unless it begins
like the end of an arrow. -/
theorem spaceArrows_append_word (hword : isGapless word) (hhyphen : '-' ∉ word)
    (hhead : ∃ c more, word = c :: more ∧ c ≠ '>') (first second : List Char) :
    spaceArrows (first ++ (word ++ second)) =
      spaceArrows first ++ (word ++ spaceArrows second) := by
  have hpassed : ∀ word : List Char, isGapless word → '-' ∉ word →
      spaceArrows (word ++ second) = word ++ spaceArrows second := by
    intro word hword hhyphen
    induction word with
    | nil => rfl
    | cons c word ih =>
      rw [isGapless_cons] at hword
      rw [List.mem_cons, not_or] at hhyphen
      have hnot : leadsToArrow (c :: (word ++ second)) = false := by
        rw [leadsToArrow_cons_of_not_blank hword.1, opensWithArrow_cons (Ne.symm hhyphen.1)]
      rw [List.cons_append, spaceArrows_cons hnot, ih hword.2 hhyphen.2, List.cons_append]
  obtain ⟨a, more, hmore, hbracket⟩ := hhead
  have ha : isSpaceOrTab a = false := isGapless_iff.mp hword a (hmore ▸ List.mem_cons_self)
  have ha_hyphen : a ≠ '-' := by
    rintro rfl
    exact hhyphen (hmore ▸ List.mem_cons_self)
  induction first using arrows_induct with
  | nil => exact hpassed word hword hhyphen
  | skip c first hskip ih =>
    have hnot : leadsToArrow (c :: (first ++ (word ++ second))) = false := by
      rw [← Bool.not_eq_true] at hskip ⊢
      intro hleads
      rw [hmore, ← List.cons_append] at hleads
      exact hskip (leadsToArrow_of_append ha ha_hyphen hbracket hleads)
    rw [List.cons_append, spaceArrows_cons hnot, spaceArrows_cons hskip, ih, List.cons_append]
  | arrow lead run tail rest hparts ih =>
    have hlonger : ArrowParts lead run tail (rest ++ (word ++ second)) := by
      refine ⟨hparts.lead, hparts.run, hparts.tail, fun c hc => ?_⟩
      cases rest with
      | nil =>
        obtain rfl : a = c := by simpa [hmore] using hc
        exact ha
      | cons d rest => exact hparts.rest c hc
    have hsplit : lead ++ (run ++ (tail ++ rest)) ++ (word ++ second) =
        lead ++ (run ++ (tail ++ (rest ++ (word ++ second)))) := by
      simp only [List.append_assoc]
    rw [hsplit, spaceArrows_arrow hlonger, spaceArrows_arrow hparts, ih]
    simp

end Tidy

end CallAtlas
