import CallAtlas.Proofs.PatternCuts

/-!
# Which symbols a pattern takes

Four questions about the runs of a pattern are answered by its form alone: whether a run may be
empty, which symbols it may hold, and which it may begin and end with.  The answers may be too
generous, never too strict (`takes_of_mem_cuts`, `mayBegin_of_mem_cuts`, `mayEnd_of_mem_cuts`).

They tell where a run must end.  A pattern is settled before some symbols if no input has two
different cuts of it with one of these symbols, or nothing, behind the run (`Settled`).  That is so
whenever the pattern takes none of them (`settled_of_not_takes`), and patterns in a row are settled
if each is settled before what the next may begin with (`Settled.seq`).
-/

set_option autoImplicit false

namespace CallAtlas.Text.Pattern

variable {α : Type} {p q : Pattern α} {before : Option α} {input run rest : List α} {a : α}

/-- Whether a pattern may take the empty run. -/
def nullable : Pattern α → Bool
  | empty => true
  | one _ => false
  | edge _ => true
  | seq p q => p.nullable && q.nullable
  | alt p q => p.nullable || q.nullable
  | star _ => true

/-- Whether a run of a pattern may hold a symbol. -/
def takes (a : α) : Pattern α → Bool
  | empty => false
  | one test => test a
  | edge _ => false
  | seq p q => p.takes a || q.takes a
  | alt p q => p.takes a || q.takes a
  | star p => p.takes a

/-- Whether a run of a pattern may begin with a symbol. -/
def mayBegin (a : α) : Pattern α → Bool
  | empty => false
  | one test => test a
  | edge _ => false
  | seq p q => p.mayBegin a || (p.nullable && q.mayBegin a)
  | alt p q => p.mayBegin a || q.mayBegin a
  | star p => p.mayBegin a

/-- Whether a run of a pattern may end with a symbol. -/
def mayEnd (a : α) : Pattern α → Bool
  | empty => false
  | one test => test a
  | edge _ => false
  | seq p q => q.mayEnd a || (q.nullable && p.mayEnd a)
  | alt p q => p.mayEnd a || q.mayEnd a
  | star p => p.mayEnd a

/-! ## Cuts of choices and edges -/

/-- A choice takes what either of the two takes. -/
theorem mem_cuts_alt_iff :
    (run, rest) ∈ (alt p q).cuts before input ↔
      (run, rest) ∈ p.cuts before input ∨ (run, rest) ∈ q.cuts before input := by
  rw [cuts, List.mem_append]

/-- The empty pattern takes nothing. -/
theorem mem_cuts_empty_iff :
    (run, rest) ∈ (empty : Pattern α).cuts before input ↔ run = [] ∧ rest = input := by
  rw [cuts, List.mem_singleton, Prod.mk.injEq]

/-- An edge takes nothing, where its test passes. -/
theorem mem_cuts_edge_iff {test : Option α → Option α → Bool} :
    (run, rest) ∈ (edge test).cuts before input ↔
      test before input.head? ∧ run = [] ∧ rest = input := by
  unfold cuts
  split
  · rename_i htest
    simp [htest]
  · rename_i htest
    simp [htest]

/-- A choice among many takes what one of them takes. -/
theorem mem_cuts_any_iff {ps : List (Pattern α)} :
    (run, rest) ∈ (any ps).cuts before input ↔ ∃ p ∈ ps, (run, rest) ∈ p.cuts before input := by
  induction ps with
  | nil => cases input <;> simp [any, cuts]
  | cons p ps ih =>
    cases ps with
    | nil => simp [any]
    | cons q ps =>
      have hany : any (p :: q :: ps) = .alt p (any (q :: ps)) := rfl
      rw [hany, mem_cuts_alt_iff, ih]
      simp only [List.exists_mem_cons_iff]

/-- A repetition takes nothing, or a run of the pattern that is not empty and then more. -/
theorem mem_repeated_cons_iff {step : Option α → List α → List (Cut α)} {x : α} {bound : List α} :
    (run, rest) ∈ repeated step (x :: bound) before input ↔
      (run = [] ∧ rest = input) ∨ ∃ first second middle, first ≠ [] ∧ run = first ++ second ∧
        (first, middle) ∈ step before input ∧
        (second, rest) ∈ repeated step bound (lastOf before first) middle := by
  simp only [repeated, chain, List.mem_append, List.mem_flatMap, List.mem_filter, List.mem_map,
    List.mem_singleton, Prod.mk.injEq]
  constructor
  · rintro (⟨⟨first, middle⟩, ⟨hfirst, hne⟩, ⟨second, rest'⟩, hsecond, rfl, rfl⟩ | h)
    · exact Or.inr ⟨first, second, middle, by simpa using hne, rfl, hfirst, hsecond⟩
    · exact Or.inl h
  · rintro (h | ⟨first, second, middle, hne, rfl, hfirst, hsecond⟩)
    · exact Or.inr h
    · exact Or.inl ⟨(first, middle), ⟨hfirst, by simpa using hne⟩, (second, rest), hsecond, rfl,
        rfl⟩

/-- The bound of a repetition may be any list that is no shorter than the run. -/
theorem mem_repeated_of_length_le {step : Option α → List α → List (Cut α)} {bound bound' : List α}
    (h : (run, rest) ∈ repeated step bound before input) (hlength : run.length ≤ bound'.length) :
    (run, rest) ∈ repeated step bound' before input := by
  induction bound generalizing before input run bound' with
  | nil =>
    obtain ⟨rfl, rfl⟩ := Prod.mk.inj (List.mem_singleton.mp h)
    exact nil_mem_repeated step bound' before rest
  | cons x bound ih =>
    rcases mem_repeated_cons_iff.mp h with ⟨rfl, rfl⟩ | ⟨first, second, middle, hne, rfl, hfirst,
      hsecond⟩
    · exact nil_mem_repeated step bound' before rest
    · have hpos : 0 < first.length := List.length_pos_iff.mpr hne
      rw [List.length_append] at hlength
      cases bound' with
      | nil =>
        rw [List.length_nil] at hlength
        omega
      | cons x' bound' =>
        rw [List.length_cons] at hlength
        have hrest : (second, rest) ∈ repeated step bound' (lastOf before first) middle :=
          ih hsecond (by omega)
        exact mem_repeated_cons_iff.mpr (Or.inr ⟨first, second, middle, hne, rfl, hfirst, hrest⟩)

/-- A repeated pattern takes nothing, or a run of the pattern that is not empty and then more. -/
theorem mem_cuts_star_iff :
    (run, rest) ∈ (star p).cuts before input ↔
      (run = [] ∧ rest = input) ∨ ∃ first second middle, first ≠ [] ∧ run = first ++ second ∧
        (first, middle) ∈ p.cuts before input ∧
        (second, rest) ∈ (star p).cuts (lastOf before first) middle := by
  have hbound : ∀ {second middle : List α}, second ++ rest = middle →
      second.length ≤ middle.length := by
    intro second middle h
    rw [← h, List.length_append]
    exact Nat.le_add_right _ _
  constructor
  · intro h
    cases input with
    | nil => exact Or.inl (Prod.mk.inj (List.mem_singleton.mp h))
    | cons a input =>
      apply (mem_repeated_cons_iff.mp h).imp_right
      rintro ⟨first, second, middle, hne, hrun, hfirst, hsecond⟩
      have hlength : second.length ≤ middle.length :=
        hbound (append_of_mem_repeated (fun _ _ _ => append_of_mem_cuts) hsecond)
      exact ⟨first, second, middle, hne, hrun, hfirst, mem_repeated_of_length_le hsecond hlength⟩
  · rintro (⟨rfl, rfl⟩ | ⟨first, second, middle, hne, rfl, hfirst, hsecond⟩)
    · exact nil_mem_cuts_star p before rest
    · have hinput : first ++ middle = input := append_of_mem_cuts hfirst
      obtain ⟨a, first, rfl⟩ := List.exists_cons_of_ne_nil hne
      subst hinput
      have hlength : second.length ≤ (first ++ middle).length := by
        rw [List.length_append]
        exact Nat.le_add_left_of_le (hbound (append_of_mem_cuts hsecond))
      apply mem_repeated_cons_iff.mpr
      exact Or.inr ⟨a :: first, second, middle, hne, rfl, hfirst,
        mem_repeated_of_length_le hsecond hlength⟩

/-- A property of the runs of a repeated pattern holds if it holds of the empty run and of a run of
the pattern that is followed by such a run. -/
theorem cuts_star_induct {motive : Option α → List α → List α → Prop}
    (nil : ∀ before, motive before rest [])
    (cons : ∀ {before input first middle second}, first ≠ [] →
      (first, middle) ∈ p.cuts before input →
      (second, rest) ∈ (star p).cuts (lastOf before first) middle →
      motive (lastOf before first) middle second → motive before input (first ++ second))
    (h : (run, rest) ∈ (star p).cuts before input) : motive before input run := by
  induction hn : run.length using Nat.strongRecOn generalizing before input run with
  | _ n ih =>
    rcases mem_cuts_star_iff.mp h with ⟨rfl, rfl⟩ | ⟨first, second, middle, hne, rfl, hfirst,
      hsecond⟩
    · exact nil before
    · have hpos : 0 < first.length := List.length_pos_iff.mpr hne
      rw [List.length_append] at hn
      exact cons hne hfirst hsecond (ih second.length (by omega) hsecond rfl)

/-! ## What the answers mean -/

/-- A pattern that takes the empty run is nullable. -/
theorem nullable_of_mem_cuts (h : ([], rest) ∈ p.cuts before input) : p.nullable := by
  induction p generalizing before input rest with
  | empty => rfl
  | one test =>
    obtain ⟨a, -, hrun, -⟩ := mem_cuts_one_iff.mp h
    exact absurd hrun (List.cons_ne_nil a []).symm
  | edge test => rfl
  | seq p q ihp ihq =>
    obtain ⟨first, second, middle, hrun, hfirst, hsecond⟩ := mem_cuts_seq_iff.mp h
    obtain ⟨rfl, rfl⟩ := List.append_eq_nil_iff.mp hrun.symm
    rw [nullable, ihp hfirst, ihq hsecond, Bool.and_self]
  | alt p q ihp ihq =>
    rw [nullable, Bool.or_eq_true]
    exact (mem_cuts_alt_iff.mp h).imp ihp ihq
  | star p ih => rfl

/-- A run holds only symbols that its pattern takes. -/
theorem takes_of_mem_cuts (h : (run, rest) ∈ p.cuts before input) (ha : a ∈ run) : p.takes a := by
  induction p generalizing before input run rest a with
  | empty =>
    obtain ⟨rfl, -⟩ := mem_cuts_empty_iff.mp h
    simp at ha
  | one test =>
    obtain ⟨b, hb, rfl, -⟩ := mem_cuts_one_iff.mp h
    rw [List.mem_singleton.mp ha]
    exact hb
  | edge test =>
    obtain ⟨-, rfl, -⟩ := mem_cuts_edge_iff.mp h
    simp at ha
  | seq p q ihp ihq =>
    obtain ⟨first, second, middle, rfl, hfirst, hsecond⟩ := mem_cuts_seq_iff.mp h
    rw [takes, Bool.or_eq_true]
    exact (List.mem_append.mp ha).imp (ihp hfirst) (ihq hsecond)
  | alt p q ihp ihq =>
    rw [takes, Bool.or_eq_true]
    exact (mem_cuts_alt_iff.mp h).imp (fun h => ihp h ha) (fun h => ihq h ha)
  | star p ih => exact forall_of_mem_repeated (fun _ _ d hd a ha => ih hd ha) h a ha

/-- A run begins with a symbol that its pattern may begin with. -/
theorem mayBegin_of_mem_cuts (h : (a :: run, rest) ∈ p.cuts before input) : p.mayBegin a := by
  induction p generalizing before input run rest with
  | empty => exact absurd (mem_cuts_empty_iff.mp h).1 (List.cons_ne_nil a run)
  | one test =>
    obtain ⟨b, hb, hrun, -⟩ := mem_cuts_one_iff.mp h
    obtain ⟨rfl, -⟩ := List.cons.inj hrun
    exact hb
  | edge test => exact absurd (mem_cuts_edge_iff.mp h).2.1 (List.cons_ne_nil a run)
  | seq p q ihp ihq =>
    obtain ⟨first, second, middle, hrun, hfirst, hsecond⟩ := mem_cuts_seq_iff.mp h
    rw [mayBegin, Bool.or_eq_true, Bool.and_eq_true]
    cases first with
    | nil =>
      rw [List.nil_append] at hrun
      rw [← hrun] at hsecond
      exact Or.inr ⟨nullable_of_mem_cuts hfirst, ihq hsecond⟩
    | cons b first =>
      obtain ⟨rfl, -⟩ := List.cons.inj hrun
      exact Or.inl (ihp hfirst)
  | alt p q ihp ihq =>
    rw [mayBegin, Bool.or_eq_true]
    exact (mem_cuts_alt_iff.mp h).imp ihp ihq
  | star p ih =>
    rcases mem_cuts_star_iff.mp h with ⟨hrun, -⟩ | ⟨first, second, middle, hne, hrun, hfirst, -⟩
    · exact absurd hrun (List.cons_ne_nil a run)
    · obtain ⟨b, first, rfl⟩ := List.exists_cons_of_ne_nil hne
      obtain ⟨rfl, -⟩ := List.cons.inj hrun
      exact ih hfirst

/-- A run ends with a symbol that its pattern may end with. -/
theorem mayEnd_of_mem_cuts (h : (run ++ [a], rest) ∈ p.cuts before input) : p.mayEnd a := by
  have hne : run ++ [a] ≠ [] := List.append_ne_nil_of_right_ne_nil run (List.cons_ne_nil a [])
  induction p generalizing before input run rest with
  | empty => exact absurd (mem_cuts_empty_iff.mp h).1 hne
  | one test =>
    obtain ⟨b, hb, hrun, -⟩ := mem_cuts_one_iff.mp h
    obtain rfl : a = b := by simpa using congrArg List.getLast? hrun
    exact hb
  | edge test => exact absurd (mem_cuts_edge_iff.mp h).2.1 hne
  | seq p q ihp ihq =>
    obtain ⟨first, second, middle, hrun, hfirst, hsecond⟩ := mem_cuts_seq_iff.mp h
    rw [mayEnd, Bool.or_eq_true, Bool.and_eq_true]
    rcases List.eq_nil_or_concat' second with rfl | ⟨second, b, rfl⟩
    · rw [List.append_nil] at hrun
      rw [← hrun] at hfirst
      exact Or.inr ⟨nullable_of_mem_cuts hsecond, ihp hfirst hne⟩
    · obtain rfl : a = b := by simpa using congrArg List.getLast? hrun
      exact Or.inl (ihq hsecond (by simp))
  | alt p q ihp ihq =>
    rw [mayEnd, Bool.or_eq_true]
    exact (mem_cuts_alt_iff.mp h).imp (fun h => ihp h hne) (fun h => ihq h hne)
  | star p ih =>
    -- Of several runs in a row the last one ends with the symbol.
    refine cuts_star_induct
      (motive := fun _ _ whole => ∀ run, whole = run ++ [a] → p.mayEnd a) ?_ ?_ h run rfl
    · intro _ run hrun
      exact absurd hrun.symm (List.append_ne_nil_of_right_ne_nil run (List.cons_ne_nil a []))
    · intro _ _ first middle second hpos hfirst _ hlast run hrun
      rcases List.eq_nil_or_concat' second with rfl | ⟨second, b, rfl⟩
      · rw [List.append_nil] at hrun
        rw [hrun] at hfirst hpos
        exact ih hfirst hpos
      · rw [← List.append_assoc] at hrun
        obtain rfl : b = a := by simpa using (List.append_inj' hrun rfl).2
        exact hlast second rfl

/-! ## Where a run ends -/

/-- What may stand at a place where a run of the pattern and then one of the given symbols comes. -/
def opens (p : Pattern α) (next : α → Bool) (a : α) : Bool :=
  p.mayBegin a || (p.nullable && next a)

/-- Whether a rest begins with one of the given symbols, if with any. -/
def Follows (next : α → Bool) (rest : List α) : Prop :=
  ∀ a ∈ rest.head?, next a

/-- Where a pattern is tried stands what it opens with. -/
theorem follows_of_mem_cuts {next : α → Bool} (h : (run, rest) ∈ p.cuts before input)
    (hrest : Follows next rest) : Follows (p.opens next) input := by
  intro a ha
  have hinput : run ++ rest = input := append_of_mem_cuts h
  rw [opens, Bool.or_eq_true, Bool.and_eq_true]
  cases run with
  | nil =>
    rw [← hinput] at ha
    exact Or.inr ⟨nullable_of_mem_cuts h, hrest a ha⟩
  | cons b run =>
    rw [← hinput] at ha
    obtain rfl : b = a := by simpa using ha
    exact Or.inl (mayBegin_of_mem_cuts h)

/-- Whether a run of the pattern can end in one place only, given what may stand behind it. -/
structure Settled (p : Pattern α) (next : α → Bool) : Prop where
  eq_of_cuts : ∀ {before : Option α} {input run rest run' rest' : List α},
    (run, rest) ∈ p.cuts before input → (run', rest') ∈ p.cuts before input →
      Follows next rest → Follows next rest' → run = run'

/-- Two beginnings of a list whose symbols all pass a test, with nothing that passes it behind
them, are the same. -/
theorem eq_of_stops (test : α → Bool) {run' rest' : List α} (h : run ++ rest = run' ++ rest')
    (hrun : ∀ a ∈ run, test a) (hrun' : ∀ a ∈ run', test a)
    (hrest : Follows (fun a => !test a) rest) (hrest' : Follows (fun a => !test a) rest') :
    run = run' := by
  have hstop : ∀ {rest : List α}, Follows (fun a => !test a) rest →
      ∀ a ∈ rest.head?, test a = false := by
    intro rest hrest a ha
    simpa using hrest a ha
  rw [← takeWhile_of_stop hrun (hstop hrest), h, takeWhile_of_stop hrun' (hstop hrest')]

/-- A run ends in one place if no symbol that may stand behind it could belong to it. -/
theorem settled_of_not_takes {next : α → Bool} (h : ∀ a, next a → p.takes a = false) :
    p.Settled next := by
  constructor
  intro before input run rest run' rest' hcut hcut' hrest hrest'
  have hstop : ∀ {rest : List α}, Follows next rest → Follows (fun a => !p.takes a) rest := by
    intro rest hrest a ha
    simpa using h a (hrest a ha)
  have hsame : run ++ rest = run' ++ rest' := by
    rw [append_of_mem_cuts hcut, append_of_mem_cuts hcut']
  exact eq_of_stops _ hsame (fun a => takes_of_mem_cuts hcut) (fun a => takes_of_mem_cuts hcut')
    (hstop hrest) (hstop hrest')

/-- A test is settled before anything. -/
theorem settled_one (test : α → Bool) (next : α → Bool) : (one test).Settled next := by
  constructor
  intro before input run rest run' rest' hcut hcut' _ _
  obtain ⟨a, -, rfl, hinput⟩ := mem_cuts_one_iff.mp hcut
  obtain ⟨b, -, rfl, hinput'⟩ := mem_cuts_one_iff.mp hcut'
  rw [(List.cons.inj (hinput.symm.trans hinput')).1]

/-- A word is settled before anything. -/
theorem settled_word [BEq α] [LawfulBEq α] (w : List α) (next : α → Bool) :
    (word w).Settled next := by
  constructor
  intro before input run rest run' rest' hcut hcut' _ _
  rw [eq_of_mem_cuts_word hcut, eq_of_mem_cuts_word hcut']

/-- Patterns in a row are settled if each is settled before what comes next. -/
theorem Settled.seq {next : α → Bool} (hp : p.Settled (q.opens next)) (hq : q.Settled next) :
    (p.seq q).Settled next := by
  constructor
  intro before input run rest run' rest' hcut hcut' hrest hrest'
  obtain ⟨first, second, middle, rfl, hfirst, hsecond⟩ := mem_cuts_seq_iff.mp hcut
  obtain ⟨first', second', middle', rfl, hfirst', hsecond'⟩ := mem_cuts_seq_iff.mp hcut'
  obtain rfl : first = first' := hp.eq_of_cuts hfirst hfirst' (follows_of_mem_cuts hsecond hrest)
    (follows_of_mem_cuts hsecond' hrest')
  obtain rfl : middle = middle' := List.append_cancel_left
    ((append_of_mem_cuts hfirst).trans (append_of_mem_cuts hfirst').symm)
  rw [hq.eq_of_cuts hsecond hsecond' hrest hrest']

/-- A choice is settled if its sides are and cannot begin alike. -/
theorem Settled.alt {next : α → Bool} (hp : p.Settled next) (hq : q.Settled next)
    (h : ∀ a, p.opens next a → q.opens next a = false) : (p.alt q).Settled next := by
  have hboth : ∀ {before input run rest run' rest'}, (run, rest) ∈ p.cuts before input →
      (run', rest') ∈ q.cuts before input → Follows next rest → Follows next rest' →
      run = run' := by
    intro before input run rest run' rest' hcut hcut' hrest hrest'
    have hopen := follows_of_mem_cuts hcut hrest
    have hopen' := follows_of_mem_cuts hcut' hrest'
    cases input with
    | nil =>
      have hnil : run = [] := (List.append_eq_nil_iff.mp (append_of_mem_cuts hcut)).1
      have hnil' : run' = [] := (List.append_eq_nil_iff.mp (append_of_mem_cuts hcut')).1
      rw [hnil, hnil']
    | cons a input =>
      have hnot := h a (hopen a rfl)
      rw [hopen' a rfl] at hnot
      exact absurd hnot (by simp)
  constructor
  intro before input run rest run' rest' hcut hcut' hrest hrest'
  rcases mem_cuts_alt_iff.mp hcut with hcut | hcut <;>
    rcases mem_cuts_alt_iff.mp hcut' with hcut' | hcut'
  · exact hp.eq_of_cuts hcut hcut' hrest hrest'
  · exact hboth hcut hcut' hrest hrest'
  · exact (hboth hcut' hcut hrest' hrest).symm
  · exact hq.eq_of_cuts hcut hcut' hrest hrest'

end CallAtlas.Text.Pattern
