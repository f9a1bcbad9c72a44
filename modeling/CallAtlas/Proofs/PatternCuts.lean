import CallAtlas.Text.Pattern
import Mathlib.Data.List.Basic

/-!
# What a match takes

A cut of an input is a run and the rest, and the two make up the input (`append_of_mem_cuts`).  So
a match of a probe cuts the text into consecutive parts, each a run of its pattern
(`matchHere_eq_some`): nothing is lost, and nothing is taken that is not there.  A scan goes from
match to match; it comes to a place unless a match goes beyond it (`matchesAfter_append`).
-/

set_option autoImplicit false

namespace CallAtlas.Text

/-- The members that pass a test are taken up to the first that does not. -/
theorem takeWhile_of_stop {α : Type} {test : α → Bool} {run rest : List α}
    (hrun : ∀ a ∈ run, test a) (hrest : ∀ a ∈ rest.head?, test a = false) :
    (run ++ rest).takeWhile test = run := by
  rw [List.takeWhile_append_of_pos hrun]
  cases rest with
  | nil => simp
  | cons a rest => simp [hrest a rfl]

namespace Pattern

variable {α : Type}

/-- Where two steps split their inputs, one after the other they do. -/
theorem append_of_mem_chain {before : Option α} {first : List (Cut α)}
    {second : Option α → List α → List (Cut α)} {input : List α} {c : Cut α}
    (hfirst : ∀ d ∈ first, d.1 ++ d.2 = input)
    (hsecond : ∀ before rest, ∀ d ∈ second before rest, d.1 ++ d.2 = rest)
    (h : c ∈ chain before first second) : c.1 ++ c.2 = input := by
  obtain ⟨d, hd, hc⟩ := List.mem_flatMap.mp h
  obtain ⟨e, he, rfl⟩ := List.mem_map.mp hc
  rw [List.append_assoc, hsecond _ _ e he, hfirst d hd]

/-- Where a step splits its input, its repetition does. -/
theorem append_of_mem_repeated {step : Option α → List α → List (Cut α)}
    (hstep : ∀ before input, ∀ d ∈ step before input, d.1 ++ d.2 = input) {bound : List α}
    {before : Option α} {input : List α} {c : Cut α} (h : c ∈ repeated step bound before input) :
    c.1 ++ c.2 = input := by
  induction bound generalizing before input c with
  | nil =>
    obtain rfl := List.mem_singleton.mp h
    rfl
  | cons x bound ih =>
    rw [repeated, List.mem_append] at h
    rcases h with h | h
    · exact append_of_mem_chain (fun d hd => hstep _ _ d (List.mem_filter.mp hd).1)
        (fun _ _ _ hd => ih hd) h
    · obtain rfl := List.mem_singleton.mp h
      rfl

/-- The run and the rest of a cut make up the input. -/
theorem append_of_mem_cuts {p : Pattern α} {before : Option α} {input : List α} {c : Cut α}
    (h : c ∈ p.cuts before input) : c.1 ++ c.2 = input := by
  induction p generalizing before input c with
  | empty =>
    obtain rfl := List.mem_singleton.mp h
    rfl
  | one test =>
    cases input with
    | nil => simp [cuts] at h
    | cons a rest =>
      by_cases ha : test a
      · obtain rfl : c = ([a], rest) := by simpa [cuts, ha] using h
        rfl
      · simp [cuts, ha] at h
  | edge test =>
    by_cases hedge : test before input.head?
    · obtain rfl : c = ([], input) := by simpa [cuts, hedge] using h
      rfl
    · simp [cuts, hedge] at h
  | seq p q ihp ihq => exact append_of_mem_chain (fun _ hd => ihp hd) (fun _ _ _ hd => ihq hd) h
  | alt p q ihp ihq => exact (List.mem_append.mp h).elim ihp ihq
  | star p ih => exact append_of_mem_repeated (fun _ _ _ hd => ih hd) h

/-- What holds of all symbols that a step takes holds of those that its repetition takes. -/
theorem forall_of_mem_repeated {P : α → Prop} {step : Option α → List α → List (Cut α)}
    (hstep : ∀ before input, ∀ d ∈ step before input, ∀ a ∈ d.1, P a) {bound : List α}
    {before : Option α} {input : List α} {c : Cut α} (h : c ∈ repeated step bound before input) :
    ∀ a ∈ c.1, P a := by
  induction bound generalizing before input c with
  | nil =>
    obtain rfl := List.mem_singleton.mp h
    simp
  | cons x bound ih =>
    rw [repeated, List.mem_append] at h
    rcases h with h | h
    · obtain ⟨d, hd, hc⟩ := List.mem_flatMap.mp h
      obtain ⟨e, he, rfl⟩ := List.mem_map.mp hc
      intro a ha
      rcases List.mem_append.mp ha with ha | ha
      · exact hstep _ _ d (List.mem_filter.mp hd).1 a ha
      · exact ih he a ha
    · obtain rfl := List.mem_singleton.mp h
      simp

/-- A test takes one symbol that passes it. -/
theorem exists_of_mem_cuts_one {test : α → Bool} {before : Option α} {input : List α} {c : Cut α}
    (h : c ∈ (one test).cuts before input) : ∃ a, test a ∧ c.1 = [a] := by
  cases input with
  | nil => simp [cuts] at h
  | cons a rest =>
    by_cases ha : test a
    · obtain rfl : c = ([a], rest) := by simpa [cuts, ha] using h
      exact ⟨a, ha, rfl⟩
    · simp [cuts, ha] at h

/-- A repeated test takes only symbols that pass it. -/
theorem forall_of_mem_cuts_star_one {test : α → Bool} {before : Option α} {input : List α}
    {c : Cut α} (h : c ∈ (star (one test)).cuts before input) : ∀ a ∈ c.1, test a := by
  refine forall_of_mem_repeated (fun before input d hd a ha => ?_) h
  obtain ⟨b, hb, hrun⟩ := exists_of_mem_cuts_one hd
  rw [hrun, List.mem_singleton] at ha
  rwa [ha]

/-! ## The cuts of each form -/

/-- Two patterns in a row take a run of the first and then one of the second. -/
theorem mem_cuts_seq_iff {p q : Pattern α} {before : Option α} {input run rest : List α} :
    (run, rest) ∈ (seq p q).cuts before input ↔
      ∃ first second middle, run = first ++ second ∧ (first, middle) ∈ p.cuts before input ∧
        (second, rest) ∈ q.cuts (lastOf before first) middle := by
  rw [cuts, chain, List.mem_flatMap]
  constructor
  · rintro ⟨⟨first, middle⟩, hfirst, hsecond⟩
    obtain ⟨⟨second, rest'⟩, hrest, heq⟩ := List.mem_map.mp hsecond
    obtain ⟨rfl, rfl⟩ := Prod.mk.inj heq
    exact ⟨first, second, middle, rfl, hfirst, hrest⟩
  · rintro ⟨first, second, middle, rfl, hfirst, hsecond⟩
    exact ⟨(first, middle), hfirst, List.mem_map.mpr ⟨(second, rest), hsecond, rfl⟩⟩

/-- A test takes the first symbol of the input if it passes. -/
theorem mem_cuts_one_iff {test : α → Bool} {before : Option α} {input run rest : List α} :
    (run, rest) ∈ (one test).cuts before input ↔ ∃ a, test a ∧ run = [a] ∧ input = a :: rest := by
  cases input with
  | nil => simp [cuts]
  | cons a input =>
    by_cases ha : test a
    · simp only [cuts, ha, if_true, List.mem_singleton, Prod.mk.injEq, List.cons.injEq]
      constructor
      · rintro ⟨rfl, rfl⟩
        exact ⟨a, ha, rfl, rfl, rfl⟩
      · rintro ⟨b, -, hrun, rfl, hrest⟩
        exact ⟨hrun, hrest.symm⟩
    · simp only [cuts, ha, Bool.false_eq_true, if_false, List.not_mem_nil, false_iff]
      rintro ⟨b, hb, -, hinput⟩
      rw [(List.cons.inj hinput).1] at ha
      exact ha hb

/-- A repetition may take nothing. -/
theorem nil_mem_repeated (step : Option α → List α → List (Cut α)) (bound : List α)
    (before : Option α) (input : List α) : ([], input) ∈ repeated step bound before input := by
  cases bound with
  | nil => exact List.mem_cons_self
  | cons x bound => exact List.mem_append_right _ List.mem_cons_self

/-- A repeated pattern may take nothing. -/
theorem nil_mem_cuts_star (p : Pattern α) (before : Option α) (input : List α) :
    ([], input) ∈ (star p).cuts before input :=
  nil_mem_repeated _ input before input

/-- A repeated test takes any number of symbols that pass it. -/
theorem mem_cuts_star_one_iff {test : α → Bool} {before : Option α} {input run rest : List α} :
    (run, rest) ∈ (star (one test)).cuts before input ↔
      run ++ rest = input ∧ ∀ a ∈ run, test a := by
  constructor
  · intro h
    exact ⟨append_of_mem_cuts h, forall_of_mem_cuts_star_one h⟩
  · rintro ⟨rfl, hrun⟩
    -- The bound of the repetition may be any list that is long enough.
    have hbound : ∀ bound : List α, run.length ≤ bound.length → ∀ before,
        (run, rest) ∈ repeated ((one test).cuts) bound before (run ++ rest) := by
      induction run with
      | nil => exact fun bound _ before => nil_mem_repeated _ bound before rest
      | cons a run ih =>
        rw [List.forall_mem_cons] at hrun
        intro bound hlength before
        cases bound with
        | nil => simp at hlength
        | cons x bound =>
          have hstep : ([a], run ++ rest) ∈
              ((one test).cuts before (a :: (run ++ rest))).filter fun c => !c.1.isEmpty := by
            rw [List.mem_filter]
            exact ⟨mem_cuts_one_iff.mpr ⟨a, hrun.1, rfl, rfl⟩, rfl⟩
          have hrest := ih hrun.2 bound (by simpa using hlength) (lastOf before [a])
          apply List.mem_append_left
          exact List.mem_flatMap.mpr ⟨_, hstep, List.mem_map.mpr ⟨_, hrest, rfl⟩⟩
    exact hbound _ (by simp) before

/-- At least one symbol, and only such that pass the test. -/
theorem mem_cuts_plus_one_iff {test : α → Bool} {before : Option α} {input run rest : List α} :
    (run, rest) ∈ (plus (one test)).cuts before input ↔
      run ≠ [] ∧ run ++ rest = input ∧ ∀ a ∈ run, test a := by
  constructor
  · intro h
    obtain ⟨first, more, middle, rfl, hfirst, hmore⟩ := mem_cuts_seq_iff.mp h
    obtain ⟨a, ha, rfl, rfl⟩ := mem_cuts_one_iff.mp hfirst
    obtain ⟨hmiddle, hmore⟩ := mem_cuts_star_one_iff.mp hmore
    refine ⟨List.cons_ne_nil a more, ?_, List.forall_mem_cons.mpr ⟨ha, hmore⟩⟩
    rw [← hmiddle, List.singleton_append, List.cons_append]
  · rintro ⟨hne, hinput, hrun⟩
    obtain ⟨a, more, rfl⟩ := List.exists_cons_of_ne_nil hne
    rw [List.forall_mem_cons] at hrun
    exact mem_cuts_seq_iff.mpr ⟨[a], more, more ++ rest, rfl,
      mem_cuts_one_iff.mpr ⟨a, hrun.1, rfl, hinput.symm⟩, mem_cuts_star_one_iff.mpr ⟨rfl, hrun.2⟩⟩

/-- A word takes itself only. -/
theorem eq_of_mem_cuts_word [BEq α] [LawfulBEq α] {w : List α} {before : Option α}
    {input run rest : List α} (h : (run, rest) ∈ (word w).cuts before input) : run = w := by
  induction w generalizing before input run with
  | nil => exact (Prod.mk.inj (List.mem_singleton.mp h)).1
  | cons a w ih =>
    cases w with
    | nil =>
      obtain ⟨b, hb, rfl, -⟩ := mem_cuts_one_iff.mp h
      rw [eq_of_beq hb]
    | cons a' w =>
      obtain ⟨first, second, middle, rfl, hfirst, hsecond⟩ := mem_cuts_seq_iff.mp h
      obtain ⟨b, hb, rfl, -⟩ := mem_cuts_one_iff.mp hfirst
      rw [eq_of_beq hb, ih hsecond, List.singleton_append]

/-! ## The symbol before a place -/

/-- The symbol before a place behind two runs is found in one go or in two. -/
theorem lastOf_append (before : Option α) (first second : List α) :
    lastOf before (first ++ second) = lastOf (lastOf before first) second := by
  simp only [lastOf, List.getLast?_append, Option.or_assoc]

/-- What every step keeps of the symbol before a place, a repetition keeps. -/
theorem lastOf_of_mem_cuts_star {P : Option α → Prop} {p : Pattern α}
    (hstep : ∀ before input, ∀ d ∈ p.cuts before input, P before → P (lastOf before d.1))
    {before : Option α} {input : List α} {c : Cut α} (h : c ∈ (star p).cuts before input)
    (hbefore : P before) : P (lastOf before c.1) := by
  have hbound : ∀ bound before input, ∀ c ∈ repeated p.cuts bound before input,
      P before → P (lastOf before c.1) := by
    intro bound
    induction bound with
    | nil =>
      intro before input c hc hbefore
      obtain rfl := List.mem_singleton.mp hc
      exact hbefore
    | cons x bound ih =>
      intro before input c hc hbefore
      rw [repeated, List.mem_append] at hc
      rcases hc with hc | hc
      · obtain ⟨d, hd, hc⟩ := List.mem_flatMap.mp hc
        obtain ⟨e, he, rfl⟩ := List.mem_map.mp hc
        rw [lastOf_append]
        exact ih _ _ e he (hstep _ _ d (List.mem_filter.mp hd).1 hbefore)
      · obtain rfl := List.mem_singleton.mp hc
        exact hbefore
  exact hbound input before input c h hbefore

end Pattern

namespace Probe

variable {α : Type}

/-- A match begins where it was looked for, and its lead, target and tail are runs of their
patterns, one after the other. -/
theorem matchHere_eq_some {p : Probe α} {past input : List α} {f : Found α}
    (h : p.matchHere past input = some f) :
    f.past = past ∧
      (f.lead, f.target ++ f.tail ++ f.rest) ∈ p.lead.cuts past.head? input ∧
      (f.target, f.tail ++ f.rest) ∈
        p.target.cuts (f.lead.reverse.head?.or past.head?) (f.target ++ f.tail ++ f.rest) ∧
      (f.tail, f.rest) ∈
        p.tail.cuts (f.target.reverse.head?.or (f.lead.reverse.head?.or past.head?))
          (f.tail ++ f.rest) := by
  rw [matchHere, Pattern.search_eq] at h
  obtain ⟨⟨lead, afterLead⟩, hlead, hinner⟩ := List.exists_of_findSome?_eq_some h
  simp only [Pattern.search_eq] at hinner
  obtain ⟨⟨target, afterTarget⟩, htarget, hinnermost⟩ := List.exists_of_findSome?_eq_some hinner
  obtain ⟨⟨tail, rest⟩, htail, hfound⟩ := List.exists_of_findSome?_eq_some hinnermost
  obtain rfl : tail ++ rest = afterTarget := Pattern.append_of_mem_cuts htail
  obtain rfl : target ++ (tail ++ rest) = afterLead := Pattern.append_of_mem_cuts htarget
  simp only [List.append_nil, List.reverse_reverse, Option.some.injEq] at hfound
  subst hfound
  simp only [List.append_nil, List.head?_nil, Option.none_or] at hlead htarget htail
  rw [← List.append_assoc] at hlead htarget
  exact ⟨rfl, hlead, htarget, htail⟩

/-- A match and what follows it make up the input it was found in. -/
theorem onward_of_matchHere {p : Probe α} {past input : List α} {f : Found α}
    (h : p.matchHere past input = some f) : f.onward = input := by
  obtain ⟨-, hlead, -, -⟩ := matchHere_eq_some h
  rw [← Pattern.append_of_mem_cuts hlead, Found.onward, Found.whole]
  simp only [List.append_assoc]

/-- Where the three patterns have cuts one after the other, there is a match. -/
theorem exists_matchHere {p : Probe α} {past input lead target tail middle after rest : List α}
    (hlead : (lead, middle) ∈ p.lead.cuts past.head? input)
    (htarget : (target, after) ∈ p.target.cuts (lead.reverse.head?.or past.head?) middle)
    (htail : (tail, rest) ∈
      p.tail.cuts (target.reverse.head?.or (lead.reverse.head?.or past.head?)) after) :
    ∃ f, p.matchHere past input = some f := by
  rw [← Option.isSome_iff_exists, matchHere, Pattern.search_eq, List.findSome?_isSome_iff]
  refine ⟨(lead, middle), hlead, ?_⟩
  simp only [Pattern.search_eq, List.append_nil, List.head?_nil, Option.none_or]
  rw [List.findSome?_isSome_iff]
  refine ⟨(target, after), htarget, ?_⟩
  rw [List.findSome?_isSome_iff]
  exact ⟨(tail, rest), htail, rfl⟩

/-! ## Scans -/

/-- A match that a scan finds stands in the text. -/
theorem of_mem_findAll {p : Probe α} {text : List α} {f : Found α} (h : f ∈ p.findAll text) :
    p.matchHere f.past f.onward = some f ∧ f.past.reverse ++ f.onward = text := by
  have hafter : ∀ input skip past, f ∈ p.matchesAfter skip past input →
      p.matchHere f.past f.onward = some f ∧
        f.past.reverse ++ f.onward = past.reverse ++ input := by
    -- What has been passed and what is to come make up the text at every place of the scan.
    intro input
    induction input with
    | nil => intro skip past hmem; simp [matchesAfter] at hmem
    | cons a input ih =>
      intro skip past hmem
      have hnext : ∀ skip, f ∈ p.matchesAfter skip (a :: past) input →
          p.matchHere f.past f.onward = some f ∧
            f.past.reverse ++ f.onward = past.reverse ++ a :: input := by
        intro skip hmem
        simpa using ih skip (a :: past) hmem
      cases skip with
      | succ skip => exact hnext skip hmem
      | zero =>
        rw [matchesAfter] at hmem
        split at hmem
        · rename_i g hfound
          rcases List.mem_cons.mp hmem with rfl | hmem
          · have hpast := (matchHere_eq_some hfound).1
            have honward := onward_of_matchHere hfound
            rw [honward, hpast]
            exact ⟨hfound, rfl⟩
          · exact hnext _ hmem
        · exact hnext 0 hmem
  exact hafter text 0 [] h

/-- **A scan comes to the end of a beginning of the text** if no match that starts in that
beginning goes beyond it: from there on the scan goes as if it began there. -/
theorem matchesAfter_append {p : Probe α} {head rest : List α}
    (h : ∀ a later, a :: later <:+ head → ∀ past f,
      p.matchHere past (a :: later ++ rest) = some f → f.whole.length ≤ later.length + 1)
    {skip : Nat} (hskip : skip ≤ head.length) (past : List α) :
    ∃ found, p.matchesAfter skip past (head ++ rest) =
      found ++ p.matchesAfter 0 (head.reverse ++ past) rest := by
  -- The number of symbols to skip is what the last match still covers of the beginning.
  induction head generalizing skip past with
  | nil =>
    obtain rfl : skip = 0 := Nat.le_zero.mp hskip
    exact ⟨[], rfl⟩
  | cons a head ih =>
    have hlater : ∀ {skip}, skip ≤ head.length → ∃ found,
        p.matchesAfter skip (a :: past) (head ++ rest) =
          found ++ p.matchesAfter 0 ((a :: head).reverse ++ past) rest := by
      intro skip hskip
      rw [List.reverse_cons, List.append_assoc]
      exact ih (fun b later hb => h b later (hb.trans (List.suffix_cons a head))) hskip (a :: past)
    rw [List.cons_append]
    cases skip with
    | succ skip => exact hlater (Nat.le_of_succ_le_succ hskip)
    | zero =>
      rw [matchesAfter]
      cases hfound : p.matchHere past (a :: (head ++ rest)) with
      | none => exact hlater (Nat.zero_le _)
      | some f =>
        have hwhole : f.whole.length ≤ head.length + 1 :=
          h a head (List.suffix_refl _) past f hfound
        obtain ⟨found, heq⟩ := hlater (Nat.sub_le_of_le_add hwhole)
        exact ⟨f :: found, congrArg (f :: ·) heq⟩

end Probe

end CallAtlas.Text
