import CallAtlas.Proofs.DecidedHeads
import CallAtlas.Proofs.ExtractedListings
import CallAtlas.Proofs.TextRewriting

/-!
# Line endings

A text may end its lines with a carriage return and a newline, not with a newline alone.  The
definitions that are extracted from it are the same (`line_endings_do_not_matter`).

A pattern is blind to line endings if its cuts of the one text are those of the other, as long as
no newline is left without its carriage return (`LineBlind`).  Patterns in a row stay so unless the
first may end with a carriage return and the second begin with a newline (`LineBlind.seq`).  Where
that is possible, in the gaps of heads, the two may be read as one repetition.  The heads and the
calls are decided, so from the cuts their matches follow (`matchHere_crlf`), and from these the
whole scan (`findAll_crlf`).
-/

set_option autoImplicit false

namespace CallAtlas

namespace Text

variable {c : Char} {cs input first second : List Char}

/-- The text with a carriage return before every newline. -/
def crlf (cs : List Char) : List Char :=
  cs.flatMap fun c => if c = '\n' then ['\r', '\n'] else [c]

/-- Replacing every newline by a carriage return and a newline gives this text. -/
theorem toList_replaced_newline (text : String) :
    (replaced "\n" "\r\n" text).toList = crlf text.toList := by
  rw [replaced, String.toList_ofList]
  exact replaceAll_singleton '\n' ['\r', '\n'] text.toList

/-- The empty text stays empty. -/
@[simp] theorem crlf_nil : crlf [] = [] := rfl

/-- A newline gets a carriage return before it. -/
@[simp] theorem crlf_cons_newline : crlf ('\n' :: cs) = '\r' :: '\n' :: crlf cs := by
  simp [crlf]

/-- Any other character stays as it is. -/
theorem crlf_cons (h : c ≠ '\n') : crlf (c :: cs) = c :: crlf cs := by
  simp [crlf, h]

/-- The parts of a text are changed each on its own. -/
@[simp] theorem crlf_append : crlf (first ++ second) = crlf first ++ crlf second :=
  List.flatMap_append

/-- A text without newlines stays as it is. -/
theorem crlf_eq_self (h : '\n' ∉ cs) : crlf cs = cs := by
  induction cs with
  | nil => rfl
  | cons c cs ih =>
    rw [List.mem_cons, not_or] at h
    rw [crlf_cons (Ne.symm h.1), ih h.2]

/-- Only the empty text becomes empty. -/
theorem crlf_eq_nil_iff : crlf cs = [] ↔ cs = [] := by
  cases cs with
  | nil => simp
  | cons c cs => by_cases hc : c = '\n' <;> simp [crlf, hc]

/-- No character is lost. -/
theorem mem_crlf (h : c ∈ cs) : c ∈ crlf cs := by
  rw [crlf, List.mem_flatMap]
  refine ⟨c, h, ?_⟩
  split <;> simp_all

/-- No character is added but carriage returns, and these only where there are newlines. -/
theorem mem_of_mem_crlf (h : c ∈ crlf cs) : c ∈ cs ∨ (c = '\r' ∧ '\n' ∈ cs) := by
  obtain ⟨d, hd, hc⟩ := List.mem_flatMap.mp h
  split at hc
  · rename_i heq
    subst heq
    rcases List.mem_pair.mp hc with rfl | rfl
    · exact Or.inr ⟨rfl, hd⟩
    · exact Or.inl hd
  · rw [List.mem_singleton.mp hc]
    exact Or.inl hd

/-- The last character stays the last one. -/
theorem getLast?_crlf : (crlf cs).getLast? = cs.getLast? := by
  rcases List.eq_nil_or_concat' cs with rfl | ⟨cs, c, rfl⟩
  · rfl
  · by_cases hc : c = '\n' <;> simp [crlf, hc]

/-- Behind a text, too, the character before the place is the same. -/
theorem lastOf_crlf (before : Option Char) :
    Pattern.lastOf before (crlf cs) = Pattern.lastOf before cs := by
  rw [Pattern.lastOf, Pattern.lastOf, getLast?_crlf]

/-- The text has as many newlines as before. -/
theorem count_newline_crlf : (crlf cs).count '\n' = cs.count '\n' := by
  induction cs with
  | nil => rfl
  | cons c cs ih =>
    by_cases hc : c = '\n'
    · simp [hc, ih]
    · simp [crlf_cons hc, ih, hc]

/-- A cut of such a text is a cut of the text itself, or it parts a newline from its carriage
return. -/
theorem crlf_eq_append (h : crlf input = first ++ second) :
    (∃ run rest, input = run ++ rest ∧ crlf run = first ∧ crlf rest = second) ∨
      first.getLast? = some '\r' ∧ second.head? = some '\n' := by
  induction input generalizing first with
  | nil =>
    obtain ⟨rfl, rfl⟩ := List.append_eq_nil_iff.mp h.symm
    exact Or.inl ⟨[], [], rfl, rfl, rfl⟩
  | cons c input ih =>
    cases first with
    | nil => exact Or.inl ⟨[], c :: input, rfl, rfl, h⟩
    | cons d first =>
      by_cases hc : c = '\n'
      · rw [hc, crlf_cons_newline, List.cons_append] at h
        obtain ⟨hd, hnewline⟩ := List.cons.inj h
        cases first with
        | nil =>
          right
          rw [← hd, ← List.nil_append second, ← hnewline]
          exact ⟨rfl, rfl⟩
        | cons e first =>
          obtain ⟨he, hrest⟩ := List.cons.inj hnewline
          rcases ih hrest with ⟨run, rest, rfl, rfl, rfl⟩ | ⟨hlast, hhead⟩
          · left
            refine ⟨'\n' :: run, rest, by rw [hc, List.cons_append], ?_, rfl⟩
            rw [crlf_cons_newline, hd, he]
          · right
            simp [List.getLast?_cons, hlast, hhead]
      · rw [crlf_cons hc, List.cons_append] at h
        obtain ⟨hd, hrest⟩ := List.cons.inj h
        rcases ih hrest with ⟨run, rest, rfl, rfl, rfl⟩ | ⟨hlast, hhead⟩
        · left
          exact ⟨c :: run, rest, rfl, by rw [crlf_cons hc, hd], rfl⟩
        · right
          simp [List.getLast?_cons, hlast, hhead]

/-- No newline stands without its carriage return. -/
theorem getLast?_of_crlf_eq (h : crlf input = first ++ '\n' :: second) :
    first.getLast? = some '\r' := by
  rcases crlf_eq_append h with ⟨run, rest, -, -, hrest⟩ | ⟨hlast, -⟩
  · exfalso
    cases rest with
    | nil => simp at hrest
    | cons c rest => by_cases hc : c = '\n' <;> simp [crlf, hc] at hrest
  · exact hlast

/-- Where no newline is cut off from its carriage return, the parts come from parts of the text. -/
theorem exists_of_crlf_eq (h : crlf input = first ++ second)
    (hsecond : Pattern.Follows (· != '\n') second) :
    ∃ run rest, input = run ++ rest ∧ crlf run = first ∧ crlf rest = second := by
  rcases crlf_eq_append h with hparts | ⟨-, hhead⟩
  · exact hparts
  · exact absurd (hsecond '\n' hhead) (by simp)

/-! ## Patterns -/

namespace Pattern

variable {p q : Pattern Char} {before : Option Char} {run rest run' rest' middle : List Char}

/-- Whether a pattern takes the same of a text whichever way the lines end. -/
structure LineBlind (p : Pattern Char) : Prop where
  crlf_mem : ∀ {before : Option Char} {input run rest : List Char},
    (run, rest) ∈ p.cuts before input → (crlf run, crlf rest) ∈ p.cuts before (crlf input)
  exists_mem : ∀ {before : Option Char} {input run' rest' : List Char},
    (run', rest') ∈ p.cuts before (crlf input) → Follows (· != '\n') rest' →
      ∃ run rest, (run, rest) ∈ p.cuts before input ∧ crlf run = run' ∧ crlf rest = rest'

/-- A pattern with the cuts of one that is blind to line endings is blind to them as well. -/
theorem LineBlind.congr (hq : q.LineBlind)
    (h : ∀ before input run rest,
      (run, rest) ∈ p.cuts before input ↔ (run, rest) ∈ q.cuts before input) : p.LineBlind := by
  constructor
  · intro before input run rest hcut
    rw [h] at hcut ⊢
    exact hq.crlf_mem hcut
  · intro before input run' rest' hcut hrest
    obtain ⟨run, rest, hmem, hrun⟩ := hq.exists_mem ((h _ _ _ _).mp hcut) hrest
    exact ⟨run, rest, (h _ _ _ _).mpr hmem, hrun⟩

/-- Behind a run that cannot end with a carriage return no newline is cut off from one. -/
theorem follows_of_mayEnd (hcut : (run, rest) ∈ p.cuts before (crlf input))
    (h : p.mayEnd '\r' = false) : Follows (· != '\n') rest := by
  intro a ha
  rw [bne_iff_ne]
  rintro rfl
  cases rest with
  | nil => simp at ha
  | cons b rest =>
    obtain rfl : b = '\n' := by simpa using ha
    have hinput : run ++ '\n' :: rest = crlf input := append_of_mem_cuts hcut
    obtain ⟨start, rfl⟩ := List.getLast?_eq_some_iff.mp (getLast?_of_crlf_eq hinput.symm)
    rw [mayEnd_of_mem_cuts hcut] at h
    exact absurd h (by simp)

/-- Before a run that cannot begin with a newline none is cut off. -/
theorem follows_of_mayBegin (hcut : (run, rest) ∈ p.cuts before middle)
    (h : p.mayBegin '\n' = false) (hrest : run = [] → Follows (· != '\n') rest) :
    Follows (· != '\n') middle := by
  have hmiddle : run ++ rest = middle := append_of_mem_cuts hcut
  subst hmiddle
  cases run with
  | nil => exact hrest rfl
  | cons b run =>
    intro a ha
    obtain rfl : b = a := by simpa using ha
    rw [bne_iff_ne]
    rintro rfl
    rw [mayBegin_of_mem_cuts hcut] at h
    exact absurd h (by simp)

/-- Between two runs no newline is cut off from its carriage return, if the first run cannot end
with one or the second not begin with a newline. -/
theorem follows_middle {before' : Option Char}
    (hfirst : (first, middle) ∈ p.cuts before (crlf input))
    (hsecond : (second, rest) ∈ q.cuts before' middle)
    (h : (p.mayEnd '\r' && q.mayBegin '\n') = false) (hrest : Follows (· != '\n') rest) :
    Follows (· != '\n') middle := by
  rcases Bool.and_eq_false_iff.mp h with h | h
  · exact follows_of_mayEnd hfirst h
  · exact follows_of_mayBegin hsecond h fun _ => hrest

/-- The empty pattern is blind to line endings. -/
theorem lineBlind_empty : (empty : Pattern Char).LineBlind := by
  constructor
  · intro before input run rest h
    obtain ⟨rfl, rfl⟩ := mem_cuts_empty_iff.mp h
    exact mem_cuts_empty_iff.mpr ⟨rfl, rfl⟩
  · intro before input run' rest' h hrest
    obtain ⟨rfl, rfl⟩ := mem_cuts_empty_iff.mp h
    exact ⟨[], input, mem_cuts_empty_iff.mpr ⟨rfl, rfl⟩, rfl, rfl⟩

/-- A test that neither of the two characters passes is blind to line endings. -/
theorem lineBlind_one {test : Char → Bool}
    (h : test '\n' = false ∧ test '\r' = false) : (one test).LineBlind := by
  have hne : ∀ {c}, test c → c ≠ '\n' := by
    rintro c hc rfl
    rw [h.1] at hc
    exact absurd hc (by simp)
  constructor
  · intro before input run rest hcut
    obtain ⟨c, hc, rfl, rfl⟩ := mem_cuts_one_iff.mp hcut
    exact mem_cuts_one_iff.mpr ⟨c, hc, crlf_cons (hne hc), crlf_cons (hne hc)⟩
  · intro before input run' rest' hcut hrest
    obtain ⟨c, hc, rfl, hinput⟩ := mem_cuts_one_iff.mp hcut
    cases input with
    | nil => simp at hinput
    | cons d input =>
      by_cases hd : d = '\n'
      · rw [hd, crlf_cons_newline] at hinput
        obtain ⟨rfl, -⟩ := List.cons.inj hinput
        rw [h.2] at hc
        exact absurd hc (by simp)
      · rw [crlf_cons hd] at hinput
        obtain ⟨rfl, rfl⟩ := List.cons.inj hinput
        exact ⟨[d], input, mem_cuts_one_iff.mpr ⟨d, hc, rfl, rfl⟩, crlf_cons hd, rfl⟩

/-- An edge is blind to line endings if it takes the two characters for the same behind it. -/
theorem lineBlind_edge {test : Option Char → Option Char → Bool}
    (h : ∀ before, test before (some '\n') = test before (some '\r')) : (edge test).LineBlind := by
  have hhead : ∀ before (input : List Char),
      test before (crlf input).head? = test before input.head? := by
    intro before input
    cases input with
    | nil => rfl
    | cons c input =>
      by_cases hc : c = '\n'
      · simp [hc, h]
      · simp [crlf_cons hc]
  constructor
  · intro before input run rest hcut
    obtain ⟨htest, rfl, rfl⟩ := mem_cuts_edge_iff.mp hcut
    exact mem_cuts_edge_iff.mpr ⟨by rwa [hhead], rfl, rfl⟩
  · intro before input run' rest' hcut hrest
    obtain ⟨htest, rfl, rfl⟩ := mem_cuts_edge_iff.mp hcut
    exact ⟨[], input, mem_cuts_edge_iff.mpr ⟨by rwa [hhead] at htest, rfl, rfl⟩, rfl, rfl⟩

/-- Two patterns in a row are blind to line endings unless a line ending may lie across them. -/
theorem LineBlind.seq (hp : p.LineBlind) (hq : q.LineBlind)
    (h : (p.mayEnd '\r' && q.mayBegin '\n') = false) : (p.seq q).LineBlind := by
  constructor
  · intro before input run rest hcut
    obtain ⟨first, second, middle, rfl, hfirst, hsecond⟩ := mem_cuts_seq_iff.mp hcut
    have hsecond' := hq.crlf_mem hsecond
    rw [← lastOf_crlf] at hsecond'
    exact mem_cuts_seq_iff.mpr ⟨_, _, _, crlf_append, hp.crlf_mem hfirst, hsecond'⟩
  · intro before input run' rest' hcut hrest
    obtain ⟨first', second', middle', rfl, hfirst, hsecond⟩ := mem_cuts_seq_iff.mp hcut
    obtain ⟨first, middle, hmem, rfl, rfl⟩ :=
      hp.exists_mem hfirst (follows_middle hfirst hsecond h hrest)
    rw [lastOf_crlf] at hsecond
    obtain ⟨second, rest, hmem', rfl, rfl⟩ := hq.exists_mem hsecond hrest
    exact ⟨first ++ second, rest,
      mem_cuts_seq_iff.mpr ⟨first, second, middle, rfl, hmem, hmem'⟩, crlf_append, rfl⟩

/-- A choice between two patterns that are blind to line endings is blind to them. -/
theorem LineBlind.alt (hp : p.LineBlind) (hq : q.LineBlind) : (p.alt q).LineBlind := by
  constructor
  · intro before input run rest hcut
    exact mem_cuts_alt_iff.mpr ((mem_cuts_alt_iff.mp hcut).imp hp.crlf_mem hq.crlf_mem)
  · intro before input run' rest' hcut hrest
    rcases mem_cuts_alt_iff.mp hcut with hcut | hcut
    · obtain ⟨run, rest, hmem, heq⟩ := hp.exists_mem hcut hrest
      exact ⟨run, rest, mem_cuts_alt_iff.mpr (Or.inl hmem), heq⟩
    · obtain ⟨run, rest, hmem, heq⟩ := hq.exists_mem hcut hrest
      exact ⟨run, rest, mem_cuts_alt_iff.mpr (Or.inr hmem), heq⟩

/-- A repetition is blind to line endings unless one may lie across two of its runs. -/
theorem LineBlind.star (hp : p.LineBlind)
    (h : (p.mayEnd '\r' && p.mayBegin '\n') = false) : (star p).LineBlind := by
  constructor
  · intro before input run rest hcut
    refine cuts_star_induct (motive := fun before input run =>
      (crlf run, crlf rest) ∈ p.star.cuts before (crlf input)) ?_ ?_ hcut
    · intro before
      exact nil_mem_cuts_star p before (crlf rest)
    · intro before input first middle second hne hfirst _ hsecond
      rw [← lastOf_crlf] at hsecond
      exact mem_cuts_star_iff.mpr (Or.inr ⟨_, _, _, mt crlf_eq_nil_iff.mp hne, crlf_append,
        hp.crlf_mem hfirst, hsecond⟩)
  · intro before input run' rest' hcut hrest
    refine cuts_star_induct (motive := fun before input' run' => ∀ input, input' = crlf input →
      ∃ run rest, (run, rest) ∈ p.star.cuts before input ∧ crlf run = run' ∧ crlf rest = rest')
      ?_ ?_ hcut input rfl
    · intro before input hinput
      exact ⟨[], input, nil_mem_cuts_star p before input, rfl, hinput.symm⟩
    · intro before input' first' middle' second' hne hfirst hsecond ih input hinput
      rw [hinput] at hfirst
      obtain ⟨first, middle, hmem, rfl, rfl⟩ :=
        hp.exists_mem hfirst (follows_middle hfirst hsecond h hrest)
      obtain ⟨second, rest, hmem', rfl, rfl⟩ := ih middle rfl
      rw [lastOf_crlf] at hmem'
      exact ⟨first ++ second, rest, mem_cuts_star_iff.mpr (Or.inr ⟨first, second, middle,
        mt crlf_eq_nil_iff.mpr hne, rfl, hmem, hmem'⟩), crlf_append, rfl⟩

/-- A word without the two characters is blind to line endings. -/
theorem lineBlind_word {w : List Char} (h : '\n' ∉ w ∧ '\r' ∉ w) : (word w).LineBlind := by
  induction w with
  | nil => exact lineBlind_empty
  | cons a w ih =>
    simp only [List.mem_cons, not_or] at h
    have hone : (one (· == a)).LineBlind := lineBlind_one (by simp [h.1.1, h.2.1])
    cases w with
    | nil => exact hone
    | cons b w =>
      have hend : (one (· == a)).mayEnd '\r' = false := by simp [mayEnd, h.2.1]
      exact hone.seq (ih ⟨h.1.2, h.2.2⟩) (by rw [hend, Bool.false_and])

/-- All characters still pass a test that takes carriage returns where it takes newlines. -/
theorem forall_mem_crlf_iff {test : Char → Bool} (h : test '\n' → test '\r') :
    (∀ a ∈ crlf run, test a) ↔ ∀ a ∈ run, test a := by
  constructor
  · intro hrun a ha
    exact hrun a (mem_crlf ha)
  · intro hrun a ha
    rcases mem_of_mem_crlf ha with ha | ⟨rfl, hnewline⟩
    · exact hrun a ha
    · exact h (hrun '\n' hnewline)

/-- A repeated test is blind to line endings if it takes carriage returns where it takes newlines,
even where the one ends a run and the other begins the next. -/
theorem lineBlind_star_one {test : Char → Bool} (h : test '\n' → test '\r') :
    (Pattern.star (one test)).LineBlind := by
  constructor
  · intro before input run rest hcut
    obtain ⟨rfl, hrun⟩ := mem_cuts_star_one_iff.mp hcut
    exact mem_cuts_star_one_iff.mpr ⟨crlf_append.symm, (forall_mem_crlf_iff h).mpr hrun⟩
  · intro before input run' rest' hcut hrest
    obtain ⟨hinput, hrun⟩ := mem_cuts_star_one_iff.mp hcut
    obtain ⟨run, rest, rfl, rfl, rfl⟩ := exists_of_crlf_eq hinput.symm hrest
    exact ⟨run, rest, mem_cuts_star_one_iff.mpr ⟨rfl, (forall_mem_crlf_iff h).mp hrun⟩, rfl, rfl⟩

/-- Such a test is blind to line endings, too, when it is repeated at least once. -/
theorem lineBlind_plus_one {test : Char → Bool} (h : test '\n' → test '\r') :
    (plus (one test)).LineBlind := by
  constructor
  · intro before input run rest hcut
    obtain ⟨hne, rfl, hrun⟩ := mem_cuts_plus_one_iff.mp hcut
    exact mem_cuts_plus_one_iff.mpr
      ⟨mt crlf_eq_nil_iff.mp hne, crlf_append.symm, (forall_mem_crlf_iff h).mpr hrun⟩
  · intro before input run' rest' hcut hrest
    obtain ⟨hne, hinput, hrun⟩ := mem_cuts_plus_one_iff.mp hcut
    obtain ⟨run, rest, rfl, rfl, rfl⟩ := exists_of_crlf_eq hinput.symm hrest
    exact ⟨run, rest, mem_cuts_plus_one_iff.mpr
      ⟨mt crlf_eq_nil_iff.mpr hne, rfl, (forall_mem_crlf_iff h).mp hrun⟩, rfl, rfl⟩

end Pattern

/-! ## Matches -/

/-- The match in the text with a carriage return before every newline. -/
def Found.crlf (f : Found Char) : Found Char :=
  ⟨(Text.crlf f.past.reverse).reverse, Text.crlf f.lead, Text.crlf f.target, Text.crlf f.tail,
    Text.crlf f.rest⟩

/-- What the changed match takes is what the match takes, changed. -/
theorem Found.whole_crlf (f : Found Char) : f.crlf.whole = Text.crlf f.whole := by
  simp [Found.whole, Found.crlf]

/-- From the changed match onward stands what stood from the match onward, changed. -/
theorem Found.onward_crlf (f : Found Char) : f.crlf.onward = Text.crlf f.onward := by
  rw [Found.onward, Found.onward, whole_crlf, crlf_append]
  rfl

namespace Probe

variable {p : Probe Char} {before : Option Char} {past input lead target tail rest : List Char}

/-- Whether a probe has the same matches in a text whichever way the lines end: its parts are blind
to line endings, and no target is empty, begins or ends a line. -/
structure LineBlind (p : Probe Char) : Prop where
  decided : p.Decided
  lead : p.lead.LineBlind
  target : p.target.LineBlind
  tail : p.tail.LineBlind
  target_inside : p.target.nullable = false ∧ p.target.mayBegin '\n' = false ∧
    p.target.mayEnd '\r' = false
  lead_begin : p.lead.mayBegin '\n' = false
  tail_end : p.tail.mayEnd '\r' = false

/-- The target of such a probe is not empty. -/
theorem LineBlind.target_ne_nil (hp : p.LineBlind) (h : p.Reads before lead target tail rest) :
    target ≠ [] := by
  rintro rfl
  have hnullable := Pattern.nullable_of_mem_cuts h.target_mem
  rw [hp.target_inside.1] at hnullable
  exact absurd hnullable (by simp)

/-- Behind the lead of such a probe no newline comes. -/
theorem LineBlind.follows_lead (hp : p.LineBlind) (h : p.Reads before lead target tail rest) :
    Pattern.Follows (· != '\n') (target ++ (tail ++ rest)) := by
  apply Pattern.follows_of_mayBegin h.target_mem hp.target_inside.2.1
  intro hnil
  exact absurd hnil (hp.target_ne_nil h)

/-- A reading of the text is one of the changed text. -/
theorem LineBlind.reads_crlf (hp : p.LineBlind) (h : p.Reads before lead target tail rest) :
    p.Reads before (crlf lead) (crlf target) (crlf tail) (crlf rest) := by
  constructor
  · simpa using hp.lead.crlf_mem h.lead_mem
  · simpa [lastOf_crlf] using hp.target.crlf_mem h.target_mem
  · simpa [lastOf_crlf] using hp.tail.crlf_mem h.tail_mem

/-- A reading of the changed text comes from one of the text. -/
theorem LineBlind.exists_reads (hp : p.LineBlind) (h : p.Reads before lead target tail rest)
    (hinput : lead ++ (target ++ (tail ++ rest)) = crlf input) :
    ∃ lead target tail rest, p.Reads before lead target tail rest ∧
      lead ++ (target ++ (tail ++ rest)) = input := by
  have hlead' := h.lead_mem
  rw [hinput] at hlead'
  obtain ⟨lead, onward, hlead, rfl, honward⟩ := hp.lead.exists_mem hlead' (hp.follows_lead h)
  have htarget' := h.target_mem
  rw [lastOf_crlf, ← honward] at htarget'
  obtain ⟨target, onward', htarget, rfl, honward'⟩ :=
    hp.target.exists_mem htarget' (Pattern.follows_of_mayEnd htarget' hp.target_inside.2.2)
  have htail' := h.tail_mem
  rw [lastOf_crlf, lastOf_crlf, ← honward'] at htail'
  obtain ⟨tail, rest, htail, rfl, rfl⟩ :=
    hp.tail.exists_mem htail' (Pattern.follows_of_mayEnd htail' hp.tail_end)
  obtain rfl : tail ++ rest = onward' := Pattern.append_of_mem_cuts htail
  obtain rfl : target ++ (tail ++ rest) = onward := Pattern.append_of_mem_cuts htarget
  obtain rfl : lead ++ (target ++ (tail ++ rest)) = input := Pattern.append_of_mem_cuts hlead
  exact ⟨lead, target, tail, rest, ⟨hlead, htarget, htail⟩, rfl⟩

/-- **A match is found in the one text where it is found in the other.** -/
theorem LineBlind.matchHere_crlf (hp : p.LineBlind) (past input : List Char) :
    p.matchHere (crlf past.reverse).reverse (crlf input) =
      (p.matchHere past input).map Found.crlf := by
  have hbefore : (crlf past.reverse).reverse.head? = past.head? := by
    rw [List.head?_reverse, getLast?_crlf, List.getLast?_reverse]
  cases hfound : p.matchHere past input with
  | some f =>
    obtain ⟨hreads, rfl, rfl⟩ := reads_of_matchHere hfound
    have hreads' := hp.reads_crlf hreads
    rw [← hbefore] at hreads'
    simpa [Found.crlf] using hp.decided.matchHere_eq hreads'
  | none =>
    cases hfound' : p.matchHere (crlf past.reverse).reverse (crlf input) with
    | none => rfl
    | some f =>
      obtain ⟨hreads, -, hinput⟩ := reads_of_matchHere hfound'
      rw [hbefore] at hreads
      obtain ⟨lead, target, tail, rest, hreads', rfl⟩ := hp.exists_reads hreads hinput
      rw [hp.decided.matchHere_eq hreads'] at hfound
      exact absurd hfound (by simp)

/-- No match of such a probe begins with a newline. -/
theorem LineBlind.matchHere_newline (hp : p.LineBlind) (past rest : List Char) :
    p.matchHere past ('\n' :: rest) = none := by
  cases hfound : p.matchHere past ('\n' :: rest) with
  | none => rfl
  | some f =>
    obtain ⟨hreads, -, hinput⟩ := reads_of_matchHere hfound
    have hfollows := Pattern.follows_of_mayBegin hreads.lead_mem hp.lead_begin
      fun _ => hp.follows_lead hreads
    rw [hinput] at hfollows
    exact absurd (hfollows '\n' rfl) (by simp)

/-- A scan of the changed text finds the matches of the text, changed. -/
theorem LineBlind.matchesAfter_crlf (hp : p.LineBlind) (past input : List Char) :
    p.matchesAfter 0 (crlf past.reverse).reverse (crlf input) =
      (p.matchesAfter 0 past input).map Found.crlf := by
  -- The scans go in step from match to match, and between matches from symbol to symbol.
  induction hn : input.length using Nat.strong_induction_on generalizing past input with
  | _ n ih =>
    cases input with
    | nil => simp [matchesAfter]
    | cons c rest =>
      have hhere := hp.matchHere_crlf past (c :: rest)
      cases hfound : p.matchHere past (c :: rest) with
      | some f =>
        rw [hfound, Option.map_some] at hhere
        obtain ⟨hreads, -, hinput⟩ := reads_of_matchHere hfound
        have htarget : f.target ≠ [] := hp.target_ne_nil hreads
        have hne : f.whole ≠ [] := by
          simp [Found.whole, htarget]
        have hne' : f.crlf.whole ≠ [] := by
          rw [Found.whole_crlf]
          exact mt crlf_eq_nil_iff.mp hne
        have hlength : f.rest.length < n := by
          have hpos := List.length_pos_iff.mpr htarget
          rw [← hn, ← hinput]
          simp only [List.length_append]
          omega
        rw [matchesAfter_of_match hhere hne', matchesAfter_of_match hfound hne, List.map_cons,
          ← ih _ hlength _ _ rfl, Found.whole_crlf]
        simp [Found.crlf]
      | none =>
        rw [hfound, Option.map_none] at hhere
        have hnext := ih rest.length (by rw [← hn]; simp) (c :: past) rest rfl
        rw [matchesAfter_of_none hfound, ← hnext]
        by_cases hc : c = '\n'
        · subst hc
          rw [crlf_cons_newline] at hhere ⊢
          rw [matchesAfter_of_none hhere, matchesAfter_of_none (hp.matchHere_newline _ _)]
          simp
        · rw [crlf_cons hc] at hhere ⊢
          rw [matchesAfter_of_none hhere]
          simp [crlf_cons hc]

/-- The matches in a text are those in the text with other line endings. -/
theorem LineBlind.findAll_crlf (hp : p.LineBlind) (text : List Char) :
    p.findAll (crlf text) = (p.findAll text).map Found.crlf :=
  hp.matchesAfter_crlf [] text

end Probe

end Text

namespace Lexical

open Text
open Text.Pattern (LineBlind lineBlind_one lineBlind_word lineBlind_edge lineBlind_star_one
  lineBlind_plus_one)

/-! ## Heads and calls -/

/-- Optional blanks are blind to line endings. -/
theorem lineBlind_blanks : blanks.LineBlind :=
  lineBlind_star_one (by decide)

/-- Blanks are blind to line endings. -/
theorem lineBlind_someBlanks : someBlanks.LineBlind :=
  lineBlind_plus_one (by decide)

/-- Every symbol but the two is blind to line endings. -/
theorem lineBlind_sym {a : Char} (h : a ≠ '\n' ∧ a ≠ '\r') : (sym a).LineBlind := by
  apply lineBlind_one
  simp [h.1.symm, h.2.symm]

/-- The edge of a word is blind to line endings. -/
theorem lineBlind_wordEdge : wordEdge.LineBlind := by
  have hword : isWord '\n' = isWord '\r' := by decide
  exact lineBlind_edge fun before => congrArg (before.any isWord != ·) hword

/-- The beginning of a line is blind to line endings. -/
theorem lineBlind_lineStart : lineStart.LineBlind :=
  lineBlind_edge fun _ => rfl

/-- Identifiers are blind to line endings. -/
theorem lineBlind_identifier : identifier.LineBlind :=
  LineBlind.seq (lineBlind_one (by decide)) (lineBlind_star_one (by decide)) (by decide)

/-- The opening of a call is blind to line endings. -/
theorem lineBlind_opening : (Pattern.all [blanks, sym '(']).LineBlind :=
  lineBlind_blanks.seq (lineBlind_sym (by decide)) (by decide)

/-- Parameters are blind to line endings. -/
theorem lineBlind_parameters : parameters.LineBlind := by
  have hclosing : (Pattern.all [.star (.one (· != ')')), sym ')']).LineBlind :=
    LineBlind.seq (lineBlind_star_one (by decide)) (lineBlind_sym (by decide)) (by decide)
  exact LineBlind.seq (lineBlind_sym (by decide)) hclosing (by decide)

/-- The whitespace before a type could as well belong to it. -/
theorem lineBlind_annotation {test : Char → Bool} (h : ∀ c, isBlank c → test c) :
    ( annotation test).LineBlind := by
  have htype : (Pattern.seq blanks (.plus (.one test))).LineBlind := by
    apply (lineBlind_plus_one fun _ => h '\r' (by decide)).congr
    intro before input run rest
    rw [Pattern.mem_cuts_plus_one_iff]
    constructor
    · intro hcut
      obtain ⟨gap, body, middle, rfl, hgap, hbody⟩ := Pattern.mem_cuts_seq_iff.mp hcut
      obtain ⟨rfl, hblank⟩ := Pattern.mem_cuts_star_one_iff.mp hgap
      obtain ⟨hne, rfl, htype⟩ := Pattern.mem_cuts_plus_one_iff.mp hbody
      refine ⟨List.append_ne_nil_of_right_ne_nil gap hne, List.append_assoc .., ?_⟩
      rw [List.forall_mem_append]
      exact ⟨fun c hc => h c (hblank c hc), htype⟩
    · intro hrun
      exact Pattern.mem_cuts_seq_iff.mpr ⟨[], run, input, rfl,
        Pattern.nil_mem_cuts_star _ before input, Pattern.mem_cuts_plus_one_iff.mpr hrun⟩
  have hcolon : (Pattern.all [sym ':', blanks, .plus (.one test)]).LineBlind :=
    LineBlind.seq (lineBlind_sym (by decide)) htype (Bool.false_and _)
  exact hcolon.alt Pattern.lineBlind_empty

/-- Without a star the whitespace before the name of a function is one run. -/
theorem lineBlind_functionGap :
    (Pattern.all [blanks, .optional (sym '*'), blanks]).LineBlind := by
  have hstar : (Pattern.all [blanks, sym '*', blanks]).LineBlind := by
    have hrest : (Pattern.all [sym '*', blanks]).LineBlind :=
      LineBlind.seq (lineBlind_sym (by decide)) lineBlind_blanks (by decide)
    exact lineBlind_blanks.seq hrest (by decide)
  apply (lineBlind_blanks.alt hstar).congr
  intro before input run rest
  rw [Pattern.mem_cuts_alt_iff]
  constructor
  · intro hcut
    obtain ⟨gap, more, middle, rfl, hgap, hmore⟩ := Pattern.mem_cuts_seq_iff.mp hcut
    obtain ⟨star, gap', middle', rfl, hstar, hgap'⟩ := Pattern.mem_cuts_seq_iff.mp hmore
    rcases Pattern.mem_cuts_alt_iff.mp hstar with hstar | hstar
    · right
      exact Pattern.mem_cuts_seq_iff.mpr ⟨gap, star ++ gap', middle, rfl, hgap,
        Pattern.mem_cuts_seq_iff.mpr ⟨star, gap', middle', rfl, hstar, hgap'⟩⟩
    · left
      obtain ⟨rfl, rfl⟩ := Pattern.mem_cuts_empty_iff.mp hstar
      obtain ⟨rfl, hblank⟩ := Pattern.mem_cuts_star_one_iff.mp hgap
      obtain ⟨rfl, hblank'⟩ := Pattern.mem_cuts_star_one_iff.mp hgap'
      apply Pattern.mem_cuts_star_one_iff.mpr
      rw [List.nil_append, List.forall_mem_append]
      exact ⟨List.append_assoc .., hblank, hblank'⟩
  · rintro (hcut | hcut)
    · have hnil : ([], rest) ∈ (Pattern.all [.optional (sym '*'), blanks]).cuts
          (Pattern.lastOf before run) rest := by
        apply Pattern.mem_cuts_seq_iff.mpr
        exact ⟨[], [], rest, rfl, Pattern.mem_cuts_alt_iff.mpr (Or.inr List.mem_cons_self),
          Pattern.nil_mem_cuts_star _ _ rest⟩
      exact Pattern.mem_cuts_seq_iff.mpr ⟨run, [], rest, (List.append_nil run).symm, hcut, hnil⟩
    · obtain ⟨gap, more, middle, rfl, hgap, hmore⟩ := Pattern.mem_cuts_seq_iff.mp hcut
      obtain ⟨star, gap', middle', rfl, hstar, hgap'⟩ := Pattern.mem_cuts_seq_iff.mp hmore
      exact Pattern.mem_cuts_seq_iff.mpr ⟨gap, star ++ gap', middle, rfl, hgap,
        Pattern.mem_cuts_seq_iff.mpr ⟨star, gap', middle', rfl,
          Pattern.mem_cuts_alt_iff.mpr (Or.inl hstar), hgap'⟩⟩

/-- The head of a function declaration is blind to line endings. -/
theorem lineBlind_functionHead : functionHead.LineBlind where
  decided := decided_functionHead
  target_inside := by decide
  lead_begin := by decide
  tail_end := by decide
  lead := by
    have hkeyword : (Pattern.seq (keyword "function")
        (.all [blanks, .optional (sym '*'), blanks])).LineBlind :=
      LineBlind.seq (lineBlind_word (by decide)) lineBlind_functionGap (by decide)
    exact lineBlind_wordEdge.seq hkeyword (by decide)
  target := lineBlind_identifier
  tail := lineBlind_opening

/-- The type of a value is blind to line endings. -/
theorem lineBlind_valueType : ( annotation (· != '=')).LineBlind := by
  apply lineBlind_annotation
  intro c hc
  rw [bne_iff_ne]
  rintro rfl
  exact absurd hc (by decide)

/-- What stands behind the parameters of an arrow function is blind to line endings. -/
theorem lineBlind_arrowEnd : arrowEnd.LineBlind := by
  have harrow : (Pattern.all [sym '=', sym '>']).LineBlind :=
    LineBlind.seq (lineBlind_sym (by decide)) (lineBlind_sym (by decide)) (by decide)
  exact lineBlind_blanks.seq (lineBlind_valueType.seq harrow (by decide)) (by decide)

/-- The head of an arrow function is blind to line endings. -/
theorem lineBlind_arrowHead : arrowHead.LineBlind where
  decided := decided_arrowHead
  target_inside := by decide
  lead_begin := by decide
  tail_end := by decide
  lead := by
    have hbinding : (Pattern.any [keyword "const", keyword "let", keyword "var"]).LineBlind :=
      LineBlind.alt (lineBlind_word (by decide))
        (LineBlind.alt (lineBlind_word (by decide)) (lineBlind_word (by decide)))
    exact lineBlind_wordEdge.seq (hbinding.seq lineBlind_someBlanks (by decide)) (by decide)
  target := lineBlind_identifier
  tail := by
    rw [arrowHead_tail_eq]
    have hparameters : arrowParameters.LineBlind :=
      (lineBlind_parameters.alt lineBlind_identifier).seq lineBlind_arrowEnd (by decide)
    have hasync : asyncMark.LineBlind :=
      LineBlind.seq (lineBlind_word (by decide)) lineBlind_someBlanks (by decide)
    have hbody : (Pattern.seq (.optional asyncMark) arrowParameters).LineBlind :=
      (hasync.alt Pattern.lineBlind_empty).seq hparameters (by decide)
    have hequals : ((sym '=').seq
        (blanks.seq (.seq (.optional asyncMark) arrowParameters))).LineBlind :=
      LineBlind.seq (lineBlind_sym (by decide)) (lineBlind_blanks.seq hbody (by decide)) (by decide)
    exact lineBlind_blanks.seq (lineBlind_valueType.seq hequals (by decide)) (by decide)

/-- The modifier of a method is blind to line endings. -/
theorem lineBlind_modifier : modifier.LineBlind := by
  have hany : ∀ words : List String, (∀ w ∈ words, '\n' ∉ w.toList ∧ '\r' ∉ w.toList) →
      (Pattern.any (words.map keyword)).LineBlind := by
    intro words
    induction words with
    | nil => exact fun _ => lineBlind_one (by decide)
    | cons w words ih =>
      intro hwords
      rw [List.forall_mem_cons] at hwords
      cases words with
      | nil => exact lineBlind_word hwords.1
      | cons w' words => exact (lineBlind_word hwords.1).alt (ih hwords.2)
  exact hany _ (by decide)

/-- The head of a method is blind to line endings. -/
theorem lineBlind_methodHead : methodHead.LineBlind where
  decided := decided_methodHead
  target_inside := by decide
  lead_begin := by decide
  tail_end := by decide
  lead := by
    have hmodifier : (Pattern.seq modifier someBlanks).LineBlind :=
      lineBlind_modifier.seq lineBlind_someBlanks (by decide)
    have hspaces : (Pattern.star (.one isSpaceOrTab)).LineBlind := lineBlind_star_one (by decide)
    have hindent : ((Pattern.star (.one isSpaceOrTab)).seq
        (.star (.seq modifier someBlanks))).LineBlind :=
      hspaces.seq (hmodifier.star (by decide)) (by decide)
    exact lineBlind_lineStart.seq hindent (by decide)
  target := lineBlind_identifier
  tail := by
    have htyped : ( annotation fun c => c != '\x7b' && c != ';').LineBlind := by
      apply lineBlind_annotation
      intro c hc
      rw [Bool.and_eq_true, bne_iff_ne, bne_iff_ne]
      constructor <;> rintro rfl <;> exact absurd hc (by decide)
    have hend : (Pattern.all [blanks, annotation (fun c => c != '\x7b' && c != ';'),
        sym '\x7b']).LineBlind :=
      lineBlind_blanks.seq (htyped.seq (lineBlind_sym (by decide)) (by decide)) (by decide)
    exact lineBlind_blanks.seq (lineBlind_parameters.seq hend (by decide)) (by decide)

/-- All heads are blind to line endings. -/
theorem lineBlind_of_mem_heads {kind : DefinitionKind} {p : Probe Char} (h : (kind, p) ∈ heads) :
    p.LineBlind := by
  rcases mem_heads_iff.mp h with ⟨-, rfl⟩ | ⟨-, rfl⟩ | ⟨-, rfl⟩
  · exact lineBlind_functionHead
  · exact lineBlind_arrowHead
  · exact lineBlind_methodHead

/-- Calls are blind to line endings. -/
theorem lineBlind_call : call.LineBlind where
  decided := decided_call
  target_inside := by decide
  lead_begin := by decide
  tail_end := by decide
  lead := Pattern.lineBlind_empty
  target := by
    have hmore : (Pattern.seq (sym '.') identifier).LineBlind :=
      LineBlind.seq (lineBlind_sym (by decide)) lineBlind_identifier (by decide)
    exact lineBlind_identifier.seq (hmore.star (by decide)) (by decide)
  tail := lineBlind_opening

/-! ## Definitions -/

/-- A target without newlines stays as it is. -/
theorem target_crlf {p : Probe Char} {text : List Char} {f : Found Char} (hf : f ∈ p.findAll text)
    (hp : p.target.takes '\n' = false) : f.crlf.target = f.target := by
  obtain ⟨-, -, htarget, -⟩ := Probe.matchHere_eq_some (Probe.of_mem_findAll hf).1
  apply crlf_eq_self
  intro hnewline
  rw [Pattern.takes_of_mem_cuts htarget hnewline] at hp
  exact absurd hp (by simp)

/-- The two texts have the same call targets. -/
theorem callTargets_crlf (text : List Char) : callTargets (crlf text) = callTargets text := by
  rw [callTargets, callTargets, lineBlind_call.findAll_crlf, List.map_map]
  apply List.map_congr_left
  intro f hf
  rw [Function.comp_apply, target_crlf hf (by decide)]

/-- A changed match makes the same definition if its target stays. -/
theorem definitionAt_crlf (excluded : List String) (file : String) (kind : DefinitionKind)
    {f : Found Char} (htarget : f.crlf.target = f.target) :
    definitionAt excluded file kind f.crlf = definitionAt excluded file kind f := by
  have hline : newlines f.crlf.past = newlines f.past := by
    simp only [newlines, Found.crlf, List.count_reverse, count_newline_crlf]
  simp only [definitionAt, htarget, hline, callsFrom, Found.onward_crlf, callTargets_crlf]

/-- The two texts have the same definitions of each head. -/
theorem blockOf_crlf (excluded : List String) (text file : String)
    {head : DefinitionKind × Probe Char} (h : head ∈ heads) :
    blockOf excluded (Text.replaced "\n" "\r\n" text) file head =
      blockOf excluded text file head := by
  obtain ⟨kind, p⟩ := head
  have hp := lineBlind_of_mem_heads h
  have htakes : p.target.takes '\n' = false := by
    rcases mem_heads_iff.mp h with ⟨-, rfl⟩ | ⟨-, rfl⟩ | ⟨-, rfl⟩ <;> decide
  have htarget : ∀ f ∈ p.findAll text.toList, f.crlf.target = f.target :=
    fun f hf => target_crlf hf htakes
  simp only [blockOf, toList_replaced_newline, hp.findAll_crlf, List.filter_map, List.map_map]
  have hfilter : (p.findAll text.toList).filter
      ((fun f => !isKeyword (String.ofList f.target)) ∘ Found.crlf) =
        (p.findAll text.toList).filter fun f => !isKeyword (String.ofList f.target) := by
    apply List.filter_congr
    intro f hf
    rw [Function.comp_apply, htarget f hf]
  rw [hfilter]
  apply List.map_congr_left
  intro f hf
  exact definitionAt_crlf excluded file kind (htarget f (List.mem_filter.mp hf).1)

end Lexical

/-- **Line endings do not matter**: the definitions of a text are those of the text in which every
newline is replaced by a carriage return and a newline. -/
theorem line_endings_do_not_matter (excluded : List String) (text file : String) :
    Lexical.extract excluded (Text.replaced "\n" "\r\n" text) file =
      Lexical.extract excluded text file := by
  rw [Lexical.extract_eq, Lexical.extract_eq]
  exact List.flatMap_congr fun head hhead => Lexical.blockOf_crlf excluded text file hhead

end CallAtlas
