/-!
# Patterns

A pattern describes runs of symbols.  Its meaning is the list of ways to cut the given input into
a run it accepts and the rest, the preferred way first: a choice prefers its left side, and a
repetition prefers to go on.  The first match of a pattern in a text is the preferred cut at the
leftmost place that has one.
-/

set_option autoImplicit false

namespace CallAtlas.Text

/-- A description of runs of symbols of type `α`. -/
inductive Pattern (α : Type) where
  /-- The empty run. -/
  | empty
  /-- One symbol that passes the test. -/
  | one (test : α → Bool)
  /-- The empty run, at a place whose neighbours on the left and right pass the test. -/
  | edge (test : Option α → Option α → Bool)
  /-- A run of the first pattern and then one of the second. -/
  | seq (p q : Pattern α)
  /-- A run of either pattern, the first one preferred. -/
  | alt (p q : Pattern α)
  /-- Any number of runs of the pattern, as many as possible preferred. -/
  | star (p : Pattern α)

namespace Pattern

variable {α : Type}

/-- A run of the pattern, or nothing. -/
def optional (p : Pattern α) : Pattern α := alt p empty

/-- One or more runs of the pattern. -/
def plus (p : Pattern α) : Pattern α := seq p (star p)

/-- The given patterns one after the other. -/
def all : List (Pattern α) → Pattern α
  | [] => empty
  | [p] => p
  | p :: ps => seq p (all ps)

/-- One of the given patterns; the empty list accepts nothing. -/
def any : List (Pattern α) → Pattern α
  | [] => one fun _ => false
  | [p] => p
  | p :: ps => alt p (any ps)

/-- Exactly the given symbols. -/
def word [BEq α] (w : List α) : Pattern α := all (w.map fun a => one (· == a))

/-- One way to cut an input: the run that is taken and what is left. -/
abbrev Cut (α : Type) := List α × List α

/-- The symbol to the left of the place that a run leads to. -/
def lastOf (before : Option α) (run : List α) : Option α :=
  run.getLast?.or before

/-- Follows every cut by the cuts of a second step, in the order of preference. -/
def chain (before : Option α) (first : List (Cut α))
    (second : Option α → List α → List (Cut α)) : List (Cut α) :=
  first.flatMap fun c => (second (lastOf before c.1) c.2).map fun d => (c.1 ++ d.1, d.2)

/-- The cuts of repetitions of a step, none of them empty and at most one for each symbol of the
bound. -/
def repeated (step : Option α → List α → List (Cut α)) :
    List α → Option α → List α → List (Cut α)
  | [], _, input => [([], input)]
  | _ :: bound, before, input =>
    chain before ((step before input).filter fun c => !c.1.isEmpty) (repeated step bound) ++
      [([], input)]

/-- All cuts of an input that the pattern accepts, the preferred one first; `before` is the symbol
to the left of the input. -/
def cuts : Pattern α → Option α → List α → List (Cut α)
  | empty, _, input => [([], input)]
  | one test, _, input =>
    match input with
    | [] => []
    | a :: rest => if test a then [([a], rest)] else []
  | edge test, before, input => if test before input.head? then [([], input)] else []
  | seq p q, before, input => chain before (cuts p before input) (cuts q)
  | alt p q, before, input => cuts p before input ++ cuts q before input
  | star p, before, input => repeated (cuts p) input before input

/-! ## Search

A search goes through the cuts in the order of preference and ends at the first one that will do.
It is told what to make of a run, which it gives backwards, and of the rest.
-/

variable {β : Type}

/-- Searches through repetitions of a step after the runs `done`, as `repeated` lists them. -/
def iterate (step : Option α → (List α → List α → Option β) → List α → Option β)
    (use : List α → List α → Option β) :
    List α → List α → Option α → List α → Option β
  | [], done, _, input => use done input
  | _ :: bound, done, before, input =>
    let longer := step before (fun run rest =>
      if run.isEmpty then none
      else iterate step use bound (run ++ done) (run.head?.or before) rest) input
    match longer with
    | some b => some b
    | none => use done input

/-- The first result of `use` on the cuts of an input, the preferred cut first.  The input follows
`done`, read backwards, and the symbol `before`; a run that is found is put before `done`. -/
def search : Pattern α → Option α → List α → (List α → List α → Option β) → List α → Option β
  | empty, _, done, use, input => use done input
  | one test, _, done, use, input =>
    match input with
    | [] => none
    | a :: rest => if test a then use (a :: done) rest else none
  | edge test, before, done, use, input =>
    if test (done.head?.or before) input.head? then use done input else none
  | seq p q, before, done, use, input =>
    p.search before done (fun done rest => q.search before done use rest) input
  | alt p q, before, done, use, input =>
    match p.search before done use input with
    | some b => some b
    | none => q.search before done use input
  | star p, before, done, use, input =>
    iterate (fun before use input => p.search before [] use input) use input done
      (done.head?.or before) input

/-- The first result on lists in a row. -/
theorem findSome_flatMap {γ δ : Type} (xs : List γ) (f : γ → List δ) (g : δ → Option β) :
    (xs.flatMap f).findSome? g = xs.findSome? fun x => (f x).findSome? g := by
  induction xs with
  | nil => rfl
  | cons x xs ih =>
    rw [List.flatMap_cons, List.findSome?_append, List.findSome?_cons, ih]
    cases (f x).findSome? g <;> rfl

/-- The first result on the members that pass a test. -/
theorem findSome_filter {γ : Type} (xs : List γ) (test : γ → Bool) (g : γ → Option β) :
    (xs.filter test).findSome? g = xs.findSome? fun x => if test x then g x else none := by
  induction xs with
  | nil => rfl
  | cons x xs ih =>
    cases h : test x
    · simp [h, ih]
    · simp only [List.filter_cons_of_pos h, List.findSome?_cons, h, ite_true, ih]

/-- What a search through repetitions finds, once the search of the step is known. -/
theorem iterate_eq {step : Option α → (List α → List α → Option β) → List α → Option β}
    {list : Option α → List α → List (Cut α)}
    (h : ∀ before use input,
      step before use input = (list before input).findSome? fun c => use c.1.reverse c.2)
    (use : List α → List α → Option β) (bound done : List α) (before : Option α)
    (input : List α) :
    iterate step use bound done before input =
      (repeated list bound before input).findSome? fun c => use (c.1.reverse ++ done) c.2 := by
  induction bound generalizing done before input with
  | nil => simp [iterate, repeated]
  | cons x bound ih =>
    have inner : ∀ c : Cut α,
        (if c.1.reverse.isEmpty then none
          else iterate step use bound (c.1.reverse ++ done) (c.1.reverse.head?.or before) c.2) =
        if (!c.1.isEmpty) = true then
          ((repeated list bound (lastOf before c.1) c.2).map fun d => (c.1 ++ d.1, d.2)).findSome?
            fun d => use (d.1.reverse ++ done) d.2
        else none := by
      intro c
      by_cases hc : c.1 = []
      · simp [hc]
      · simp [hc, ih, lastOf, List.findSome?_map, Function.comp_def]
    simp only [iterate, repeated, chain, h, List.findSome?_append, List.findSome?_cons,
      List.findSome?_nil, inner, findSome_flatMap, findSome_filter, List.reverse_nil,
      List.nil_append]
    split
    · rename_i found
      rw [found]; rfl
    · rename_i found
      rw [found]; cases use done input <;> rfl

/-- A search finds the first result on the list of cuts. -/
theorem search_eq (p : Pattern α) (before : Option α) (done : List α)
    (use : List α → List α → Option β) (input : List α) :
    p.search before done use input =
      (p.cuts (done.head?.or before) input).findSome? fun c => use (c.1.reverse ++ done) c.2 := by
  induction p generalizing before done use input with
  | empty => simp [search, cuts]
  | one test =>
    cases input with
    | nil => simp [search, cuts]
    | cons a rest => by_cases h : test a <;> simp [search, cuts, h]
  | edge test => by_cases h : test (done.head?.or before) input.head? <;> simp [search, cuts, h]
  | seq p q ihp ihq =>
    simp only [search, cuts, chain, ihp, ihq, findSome_flatMap, List.findSome?_map,
      Function.comp_def, lastOf, List.head?_append, List.head?_reverse, List.reverse_append,
      List.append_assoc, Option.or_assoc]
  | alt p q ihp ihq =>
    simp only [search, cuts, ihp, ihq, List.findSome?_append]
    cases (p.cuts (done.head?.or before) input).findSome?
      fun c => use (c.1.reverse ++ done) c.2 <;> rfl
  | star p ih =>
    have step : ∀ (before : Option α) (use : List α → List α → Option β) (input : List α),
        p.search before [] use input =
          (p.cuts before input).findSome? fun c => use c.1.reverse c.2 := by
      intro before use input
      simp [ih]
    simp only [search, cuts, iterate_eq step]

/-- Whether the pattern accepts the whole input. -/
def accepts (p : Pattern α) (input : List α) : Bool :=
  (p.search none [] (fun _ rest => if rest.isEmpty then some () else none) input).isSome

/-- Whether some part of the input is a run of the pattern. -/
def occurs (p : Pattern α) : Option α → List α → Bool
  | before, [] => (p.search before [] (fun _ _ => some ()) []).isSome
  | before, a :: rest =>
    (p.search before [] (fun _ _ => some ()) (a :: rest)).isSome || occurs p (some a) rest

end Pattern

/-- A pattern in three parts, of which the middle one is what a match is for. -/
structure Probe (α : Type) where
  /-- What stands before the part looked for. -/
  lead : Pattern α
  /-- The part looked for. -/
  target : Pattern α
  /-- What stands after it. -/
  tail : Pattern α

/-- A match of a probe in a text, which is cut into `past` (read backwards), `lead`, `target`,
`tail` and `rest`. -/
structure Found (α : Type) where
  /-- What stands before the match, the nearest symbol first. -/
  past : List α
  /-- What the match takes before its target. -/
  lead : List α
  /-- The target. -/
  target : List α
  /-- What the match takes after its target. -/
  tail : List α
  /-- What follows the match. -/
  rest : List α
  deriving DecidableEq

namespace Found

variable {α : Type}

/-- Everything the match takes. -/
def whole (f : Found α) : List α := f.lead ++ f.target ++ f.tail

/-- The text from the beginning of the match on. -/
def onward (f : Found α) : List α := f.whole ++ f.rest

end Found

namespace Probe

variable {α : Type}

/-- The preferred match of the probe at the beginning of the input, which follows `past`. -/
def matchHere (p : Probe α) (past input : List α) : Option (Found α) :=
  p.lead.search past.head? [] (fun lead rest =>
    let middle := lead.head?.or past.head?
    p.target.search middle [] (fun target rest =>
      p.tail.search (target.head?.or middle) [] (fun tail rest =>
        some ⟨past, lead.reverse, target.reverse, tail.reverse, rest⟩) rest) rest) input

/-- The matches from left to right, without overlaps, that begin after the next `skip` symbols of
the input, which follows `past`. -/
def matchesAfter (p : Probe α) : Nat → List α → List α → List (Found α)
  | _, _, [] => []
  | skip + 1, past, a :: rest => matchesAfter p skip (a :: past) rest
  | 0, past, a :: rest =>
    match p.matchHere past (a :: rest) with
    | some f => f :: matchesAfter p (f.whole.length - 1) (a :: past) rest
    | none => matchesAfter p 0 (a :: past) rest

/-- The matches of the probe in a text, from left to right and without overlaps. -/
def findAll (p : Probe α) (text : List α) : List (Found α) :=
  matchesAfter p 0 [] text

/-- Replaces the matches that begin after the next `skip` symbols; the rest stays as it is. -/
def substituteAfter (p : Probe α) (new : Found α → List α) : Nat → List α → List α → List α
  | _, _, [] => []
  | skip + 1, past, a :: rest => substituteAfter p new skip (a :: past) rest
  | 0, past, a :: rest =>
    match p.matchHere past (a :: rest) with
    | some f => new f ++ substituteAfter p new (f.whole.length - 1) (a :: past) rest
    | none => a :: substituteAfter p new 0 (a :: past) rest

/-- The text with every match of the probe replaced. -/
def substitute (p : Probe α) (new : Found α → List α) (text : List α) : List α :=
  substituteAfter p new 0 [] text

end Probe

end CallAtlas.Text
