import CallAtlas.Diagram.Tidy
import CallAtlas.Proofs.CharClasses
import CallAtlas.Proofs.PatternSymbols
import CallAtlas.Proofs.TextLines
import Mathlib.Data.List.TakeWhile

/-!
# Names that say utility

A line of a diagram says that its components are utilities by two patterns.  The one is a handler
word in any case, and it occurs where the word occurs in the line with its letters folded
(`handlerWord_occurs_iff`).  The other is a bracketed label that begins with a branch word or ends
in a question mark (`HasBranch`); on a line with one label it comes down to the leading word of that
label (`branchNode_occurs_iff`).  Both together are what it takes (`namesUtility_iff`).
-/

set_option autoImplicit false

namespace CallAtlas

open Text

namespace Text.Pattern

variable {α : Type} {p : Pattern α} {before : Option α} {input : List α}

/-- A pattern occurs where it has a cut. -/
theorem occurs_iff : p.occurs before input ↔ ∃ passed later cut, input = passed ++ later ∧
    cut ∈ p.cuts (lastOf before passed) later := by
  have hhere : ∀ before input, (p.search before [] (fun _ _ => some ()) input).isSome ↔
      ∃ cut, cut ∈ p.cuts before input := by
    intro before input
    rw [search_eq, List.findSome?_isSome_iff]
    simp
  induction input generalizing before with
  | nil =>
    rw [occurs, hhere]
    constructor
    · rintro ⟨cut, hcut⟩
      exact ⟨[], [], cut, rfl, hcut⟩
    · rintro ⟨passed, later, cut, hinput, hcut⟩
      obtain ⟨rfl, rfl⟩ := List.append_eq_nil_iff.mp hinput.symm
      exact ⟨cut, hcut⟩
  | cons a input ih =>
    have hlast : ∀ passed, lastOf before (a :: passed) = lastOf (some a) passed :=
      lastOf_append before [a]
    rw [occurs, Bool.or_eq_true, hhere]
    refine (or_congr_right ih).trans ?_
    constructor
    · rintro (⟨cut, hcut⟩ | ⟨passed, later, cut, rfl, hcut⟩)
      · exact ⟨[], a :: input, cut, rfl, hcut⟩
      · exact ⟨a :: passed, later, cut, rfl, by rwa [hlast]⟩
    · rintro ⟨passed, later, cut, hinput, hcut⟩
      cases passed with
      | nil =>
        rw [List.nil_append] at hinput
        exact Or.inl ⟨cut, hinput ▸ hcut⟩
      | cons b passed =>
        obtain ⟨rfl, rfl⟩ := List.cons.inj hinput
        exact Or.inr ⟨passed, later, cut, rfl, by rwa [hlast] at hcut⟩

end Text.Pattern

namespace Tidy

variable {before : Option Char} {line input run rest lead label tail : List Char}

/-- The words that handlers, formatters and validators have in their names. -/
def handlerWords : List String := ["handle", "format", "validat"]

/-- The words that branches begin with. -/
def branchWords : List String := ["if", "else", "switch", "case"]

/-- A label begins with a branch word, in any case and after any blanks, and the word ends there. -/
def BeginsWithBranch (label : List Char) : Prop :=
  ∃ blanks first inner, label = blanks ++ (first ++ inner) ∧ (∀ c ∈ blanks, isBlank c) ∧
    (∃ word ∈ branchWords, first.map fold = word.toList) ∧ ∀ c ∈ inner.head?, isWord c = false

/-- A label ends in a question mark, but for blanks. -/
def EndsInQuestion (label : List Char) : Prop :=
  ∃ inner blanks, label = inner ++ '?' :: blanks ∧ ∀ c ∈ blanks, isBlank c

/-- A bracketed label of the line begins with a branch word or ends in a question mark. -/
def HasBranch (line : List Char) : Prop :=
  ∃ lead label tail, line = lead ++ '[' :: (label ++ ']' :: tail) ∧ ']' ∉ label ∧
    (BeginsWithBranch label ∨ EndsInQuestion label)

/-- A line says that its components are utilities when it has a handler word in any case, or a
branch. -/
def SaysUtility (line : List Char) : Prop :=
  (∃ word ∈ handlerWords, word.toList <:+: line.map fold) ∨ HasBranch line

/-! ## Words in any case -/

/-- A word in any case takes the runs that are this word if case is ignored. -/
theorem mem_cuts_anyCase_iff {word : String} :
    (run, rest) ∈ ( anyCase word).cuts before input ↔
      run ++ rest = input ∧ run.map fold = word.toList := by
  rw [anyCase]
  generalize word.toList = letters
  induction letters generalizing before input run with
  | nil =>
    simp only [List.map_nil, Pattern.all, Pattern.mem_cuts_empty_iff, List.map_eq_nil_iff]
    constructor
    · rintro ⟨rfl, rfl⟩
      exact ⟨rfl, rfl⟩
    · rintro ⟨rfl, rfl⟩
      exact ⟨rfl, rfl⟩
  | cons letter letters ih =>
    cases letters with
    | nil =>
      simp only [List.map_cons, List.map_nil, Pattern.all, Pattern.mem_cuts_one_iff, beq_iff_eq,
        List.map_eq_singleton_iff]
      constructor
      · rintro ⟨c, hc, rfl, rfl⟩
        exact ⟨rfl, c, rfl, hc⟩
      · rintro ⟨rfl, c, rfl, hc⟩
        exact ⟨c, hc, rfl, rfl⟩
    | cons next letters =>
      have hall : Pattern.all ((letter :: next :: letters).map fun letter =>
          Pattern.one fun c => fold c == letter) =
          .seq (.one fun c => fold c == letter)
            (.all ((next :: letters).map fun letter => .one fun c => fold c == letter)) := rfl
      rw [hall, Pattern.mem_cuts_seq_iff]
      constructor
      · rintro ⟨first, second, middle, rfl, hfirst, hsecond⟩
        obtain ⟨c, hc, rfl, rfl⟩ := Pattern.mem_cuts_one_iff.mp hfirst
        obtain ⟨rfl, hmap⟩ := ih.mp hsecond
        rw [List.singleton_append, List.map_cons, hmap, eq_of_beq hc]
        exact ⟨rfl, rfl⟩
      · rintro ⟨rfl, hmap⟩
        obtain ⟨c, more, rfl, hc, hmore⟩ := List.map_eq_cons_iff.mp hmap
        exact ⟨[c], more, more ++ rest, rfl,
          Pattern.mem_cuts_one_iff.mpr ⟨c, by simpa using hc, rfl, rfl⟩, ih.mpr ⟨rfl, hmore⟩⟩

/-- A line has a handler word in any case exactly when it has one if case is ignored. -/
theorem handlerWord_occurs_iff :
    handlerWord.occurs before line ↔ ∃ word ∈ handlerWords, word.toList <:+: line.map fold := by
  have hany : handlerWord = .any (handlerWords.map anyCase) := rfl
  rw [hany, Pattern.occurs_iff]
  constructor
  · rintro ⟨passed, later, ⟨run, rest⟩, rfl, hcut⟩
    obtain ⟨p, hp, hcut⟩ := Pattern.mem_cuts_any_iff.mp hcut
    obtain ⟨word, hword, rfl⟩ := List.mem_map.mp hp
    obtain ⟨rfl, hrun⟩ := mem_cuts_anyCase_iff.mp hcut
    refine ⟨word, hword, passed.map fold, rest.map fold, ?_⟩
    rw [← hrun, List.map_append, List.map_append, List.append_assoc]
  · rintro ⟨word, hword, hocc⟩
    obtain ⟨run, ⟨passed, rest, rfl⟩, hrun⟩ := List.infix_map_iff.mp hocc
    refine ⟨passed, run ++ rest, (run, rest), List.append_assoc _ _ _, ?_⟩
    rw [Pattern.mem_cuts_any_iff]
    exact ⟨ anyCase word, List.mem_map_of_mem hword, mem_cuts_anyCase_iff.mpr ⟨rfl, hrun.symm⟩⟩

/-! ## Labels that begin with a branch word -/

/-- A word stays one when case is ignored. -/
theorem isWord_fold (c : Char) : isWord (fold c) = isWord c := by
  by_cases hsmall : c.toNat < 128
  · have hall : ∀ n < 128, isWord (fold (Char.ofNat n)) = isWord (Char.ofNat n) := by
      decide +kernel
    simpa using hall c.toNat hsmall
  · rw [fold]
    split
    · rename_i hlong
      rw [eq_of_beq hlong]
      decide +kernel
    · have hupper : ¬c.isUpper := by
        intro hupper
        refine hsmall (toNat_lt_of_isAlphanum ?_)
        apply isAlphanum_of_isAlpha
        unfold Char.isAlpha
        rw [hupper, Bool.true_or]
      unfold Char.toLower
      unfold Char.isUpper at hupper
      rw [dif_neg (by simpa using hupper)]

/-- The characters of a branch word in any case stand for small letters. -/
theorem isLower_fold_of_mem {word : String} (hword : word ∈ branchWords)
    (hrun : run.map fold = word.toList) {c : Char} (hc : c ∈ run) : (fold c).isLower := by
  have hsmall : ∀ word ∈ branchWords, word.toList.all Char.isLower := by decide
  exact List.all_eq_true.mp (hsmall word hword) _ (hrun ▸ List.mem_map_of_mem hc)

/-- The characters of a branch word in any case belong to words. -/
theorem isWord_of_mem {word : String} (hword : word ∈ branchWords)
    (hrun : run.map fold = word.toList) {c : Char} (hc : c ∈ run) : isWord c := by
  rw [← isWord_fold]
  apply isWord_of_isAlphanum
  apply isAlphanum_of_isAlpha
  unfold Char.isAlpha
  rw [isLower_fold_of_mem hword hrun hc, Bool.or_true]

/-- A branch word leads a label if it stands at the beginning and the word ends there. -/
theorem leadingWord_eq_iff {word : String} (hword : word ∈ branchWords) :
    (label.takeWhile isWord).map fold = word.toList ↔
      ∃ first inner, label = first ++ inner ∧ first.map fold = word.toList ∧
        ∀ c ∈ inner.head?, isWord c = false := by
  constructor
  · intro hlead
    refine ⟨label.takeWhile isWord, label.dropWhile isWord, List.takeWhile_append_dropWhile.symm,
      hlead, fun c hc => ?_⟩
    have hstop := List.head?_dropWhile_not isWord label
    rw [Option.mem_def.mp hc] at hstop
    simpa using hstop
  · rintro ⟨first, inner, rfl, hfirst, hinner⟩
    have hletters : ∀ c ∈ first, isWord c := fun c hc => isWord_of_mem hword hfirst hc
    rw [takeWhile_of_stop hletters hinner, hfirst]

/-- What follows the opening bracket of a label that begins with a branch word. -/
def branchBody : Pattern Char :=
  .all [.star (.one isBlank), .any (branchWords.map anyCase), wordEdge, .star (.one (· != ']')),
    .one (· == ']')]

/-- What follows the opening bracket of a label that ends in a question mark. -/
def questionBody : Pattern Char :=
  .all [.star (.one (· != ']')), .one (· == '?'), .star (.one isBlank), .one (· == ']')]

/-- A branch node is an opening bracket and one of the two bodies. -/
theorem mem_cuts_branchNode_iff : (run, rest) ∈ branchNode.cuts before input ↔
    ∃ body after, run = '[' :: body ∧ input = '[' :: after ∧
      ((body, rest) ∈ branchBody.cuts (some '[') after ∨
        (body, rest) ∈ questionBody.cuts (some '[') after) := by
  have hparts : branchNode =
      .alt (.seq (.one (· == '[')) branchBody) (.seq (.one (· == '[')) questionBody) := rfl
  have hseq : ∀ q : Pattern Char,
      (run, rest) ∈ (Pattern.seq (.one (· == '[')) q).cuts before input ↔
      ∃ body after, run = '[' :: body ∧ input = '[' :: after ∧
        (body, rest) ∈ q.cuts (some '[') after := by
    intro q
    rw [Pattern.mem_cuts_seq_iff]
    constructor
    · rintro ⟨first, body, after, rfl, hfirst, hbody⟩
      obtain ⟨c, hc, rfl, rfl⟩ := Pattern.mem_cuts_one_iff.mp hfirst
      obtain rfl : c = '[' := by simpa using hc
      exact ⟨body, after, rfl, rfl, hbody⟩
    · rintro ⟨body, after, rfl, rfl, hbody⟩
      exact ⟨['['], body, after, rfl, Pattern.mem_cuts_one_iff.mpr ⟨'[', rfl, rfl, rfl⟩, hbody⟩
  rw [hparts, Pattern.mem_cuts_alt_iff, hseq, hseq]
  simp only [← exists_or, ← and_or_left]

/-- The edge of a word stands where just one of its neighbours belongs to a word. -/
theorem mem_cuts_wordEdge_iff : (run, rest) ∈ wordEdge.cuts before input ↔
    before.any isWord ≠ input.head?.any isWord ∧ run = [] ∧ rest = input := by
  rw [wordEdge, Pattern.mem_cuts_edge_iff, bne_iff_ne]

/-- A branch word ends in a character that belongs to words. -/
theorem any_isWord_lastOf {word : String} (hword : word ∈ branchWords)
    (hrun : run.map fold = word.toList) : (Pattern.lastOf before run).any isWord = true := by
  have hne : run ≠ [] := by
    rintro rfl
    have hnil : ∀ word ∈ branchWords, ([] : List Char) ≠ word.toList := by decide
    exact hnil word hword hrun
  rw [Pattern.lastOf, List.getLast?_eq_getLast_of_ne_nil hne]
  exact isWord_of_mem hword hrun (List.getLast_mem hne)

/-- The bracket behind a label belongs to no word. -/
theorem any_isWord_head?_append (inner tail : List Char) :
    (inner ++ ']' :: tail).head?.any isWord = inner.head?.any isWord := by
  cases inner with
  | nil => exact show isWord ']' = false by decide
  | cons c inner => rfl

/-- A label that begins with a branch word and its closing bracket are taken from an input. -/
theorem exists_cut_branchBody_iff : (∃ cut, cut ∈ branchBody.cuts (some '[') input) ↔
    ∃ label tail, input = label ++ ']' :: tail ∧ ']' ∉ label ∧ BeginsWithBranch label := by
  constructor
  · rintro ⟨⟨run, rest⟩, hcut⟩
    obtain ⟨blanks, more, middle, -, hblanks, hmore⟩ := Pattern.mem_cuts_seq_iff.mp hcut
    obtain ⟨first, more, after, -, hfirst, hmore⟩ := Pattern.mem_cuts_seq_iff.mp hmore
    obtain ⟨edge, more, later, -, hedge, hmore⟩ := Pattern.mem_cuts_seq_iff.mp hmore
    obtain ⟨inner, more, closed, -, hinner, hclosed⟩ := Pattern.mem_cuts_seq_iff.mp hmore
    obtain ⟨rfl, hall⟩ := Pattern.mem_cuts_star_one_iff.mp hblanks
    obtain ⟨p, hp, hfirst⟩ := Pattern.mem_cuts_any_iff.mp hfirst
    obtain ⟨word, hword, rfl⟩ := List.mem_map.mp hp
    obtain ⟨rfl, hletters⟩ := mem_cuts_anyCase_iff.mp hfirst
    obtain ⟨hends, -, rfl⟩ := mem_cuts_wordEdge_iff.mp hedge
    obtain ⟨rfl, hopen⟩ := Pattern.mem_cuts_star_one_iff.mp hinner
    obtain ⟨c, hc, -, rfl⟩ := Pattern.mem_cuts_one_iff.mp hclosed
    obtain rfl : c = ']' := by simpa using hc
    rw [any_isWord_lastOf hword hletters, any_isWord_head?_append] at hends
    refine ⟨blanks ++ (first ++ inner), rest, by simp, ?_, blanks, first, inner, rfl, hall,
      ⟨word, hword, hletters⟩, fun c hc => by simpa [Option.mem_def.mp hc] using hends⟩
    -- The bracket is no blank, no letter, and not taken before the end.
    simp only [List.mem_append, not_or]
    exact ⟨fun hmem => absurd (hall _ hmem) (by decide),
      fun hmem => absurd (isLower_fold_of_mem hword hletters hmem) (by decide),
      fun hmem => absurd (hopen _ hmem) (by decide)⟩
  · rintro ⟨_, tail, rfl, hclosing, blanks, first, inner, rfl, hblanks, ⟨word, hword, hletters⟩,
      hinner⟩
    simp only [List.mem_append, not_or] at hclosing
    have hends : inner.head?.any isWord = false := by
      cases inner with
      | nil => rfl
      | cons c inner => exact hinner c rfl
    refine ⟨(blanks ++ (first ++ ([] ++ (inner ++ [']']))), tail), ?_⟩
    refine Pattern.mem_cuts_seq_iff.mpr ⟨blanks, _, first ++ (inner ++ ']' :: tail), rfl, ?_, ?_⟩
    · exact Pattern.mem_cuts_star_one_iff.mpr ⟨by simp, hblanks⟩
    refine Pattern.mem_cuts_seq_iff.mpr ⟨first, _, inner ++ ']' :: tail, rfl, ?_, ?_⟩
    · exact Pattern.mem_cuts_any_iff.mpr ⟨ anyCase word, List.mem_map_of_mem hword,
        mem_cuts_anyCase_iff.mpr ⟨rfl, hletters⟩⟩
    refine Pattern.mem_cuts_seq_iff.mpr ⟨[], _, inner ++ ']' :: tail, rfl, ?_, ?_⟩
    · rw [mem_cuts_wordEdge_iff, any_isWord_lastOf hword hletters, any_isWord_head?_append, hends]
      exact ⟨by decide, rfl, rfl⟩
    refine Pattern.mem_cuts_seq_iff.mpr ⟨inner, [']'], ']' :: tail, rfl, ?_, ?_⟩
    · refine Pattern.mem_cuts_star_one_iff.mpr ⟨rfl, fun c hc => bne_iff_ne.mpr ?_⟩
      rintro rfl
      exact hclosing.2.2 hc
    · exact Pattern.mem_cuts_one_iff.mpr ⟨']', rfl, rfl, rfl⟩

/-- A label that ends in a question mark and its closing bracket are taken from an input. -/
theorem exists_cut_questionBody_iff : (∃ cut, cut ∈ questionBody.cuts before input) ↔
    ∃ label tail, input = label ++ ']' :: tail ∧ ']' ∉ label ∧ EndsInQuestion label := by
  constructor
  · rintro ⟨⟨run, rest⟩, hcut⟩
    obtain ⟨inner, more, after, -, hinner, hmore⟩ := Pattern.mem_cuts_seq_iff.mp hcut
    obtain ⟨mark, more, later, -, hmark, hmore⟩ := Pattern.mem_cuts_seq_iff.mp hmore
    obtain ⟨blanks, more, closed, -, hblanks, hclosed⟩ := Pattern.mem_cuts_seq_iff.mp hmore
    obtain ⟨rfl, hopen⟩ := Pattern.mem_cuts_star_one_iff.mp hinner
    obtain ⟨c, hc, -, rfl⟩ := Pattern.mem_cuts_one_iff.mp hmark
    obtain rfl : c = '?' := by simpa using hc
    obtain ⟨rfl, hall⟩ := Pattern.mem_cuts_star_one_iff.mp hblanks
    obtain ⟨c, hc, -, rfl⟩ := Pattern.mem_cuts_one_iff.mp hclosed
    obtain rfl : c = ']' := by simpa using hc
    refine ⟨inner ++ '?' :: blanks, rest, by simp, ?_, inner, blanks, rfl, hall⟩
    simp only [List.mem_append, List.mem_cons, not_or]
    exact ⟨fun hmem => absurd (hopen _ hmem) (by decide), by decide,
      fun hmem => absurd (hall _ hmem) (by decide)⟩
  · rintro ⟨_, tail, rfl, hclosing, inner, blanks, rfl, hblanks⟩
    simp only [List.mem_append, not_or] at hclosing
    refine ⟨(inner ++ (['?'] ++ (blanks ++ [']'])), tail), ?_⟩
    refine Pattern.mem_cuts_seq_iff.mpr ⟨inner, _, '?' :: (blanks ++ ']' :: tail), rfl, ?_, ?_⟩
    · refine Pattern.mem_cuts_star_one_iff.mpr ⟨by simp, fun c hc => bne_iff_ne.mpr ?_⟩
      rintro rfl
      exact hclosing.1 hc
    refine Pattern.mem_cuts_seq_iff.mpr ⟨['?'], _, blanks ++ ']' :: tail, rfl, ?_, ?_⟩
    · exact Pattern.mem_cuts_one_iff.mpr ⟨'?', rfl, rfl, rfl⟩
    refine Pattern.mem_cuts_seq_iff.mpr ⟨blanks, [']'], ']' :: tail, rfl, ?_, ?_⟩
    · exact Pattern.mem_cuts_star_one_iff.mpr ⟨rfl, hblanks⟩
    · exact Pattern.mem_cuts_one_iff.mpr ⟨']', rfl, rfl, rfl⟩

/-- The pattern of branches occurs where a line has one. -/
theorem branchNode_occurs_iff_hasBranch : branchNode.occurs before line ↔ HasBranch line := by
  rw [Pattern.occurs_iff]
  constructor
  · rintro ⟨lead, _, ⟨run, rest⟩, rfl, hcut⟩
    obtain ⟨body, after, rfl, rfl, hbody⟩ := mem_cuts_branchNode_iff.mp hcut
    rcases hbody with hbody | hbody
    · obtain ⟨label, tail, rfl, hclosing, hbegins⟩ := exists_cut_branchBody_iff.mp ⟨_, hbody⟩
      exact ⟨lead, label, tail, rfl, hclosing, Or.inl hbegins⟩
    · obtain ⟨label, tail, rfl, hclosing, hends⟩ := exists_cut_questionBody_iff.mp ⟨_, hbody⟩
      exact ⟨lead, label, tail, rfl, hclosing, Or.inr hends⟩
  · rintro ⟨lead, label, tail, rfl, hclosing, hbegins | hends⟩
    · obtain ⟨⟨body, rest⟩, hcut⟩ :=
        exists_cut_branchBody_iff.mpr ⟨label, tail, rfl, hclosing, hbegins⟩
      exact ⟨lead, _, ('[' :: body, rest), rfl,
        mem_cuts_branchNode_iff.mpr ⟨body, _, rfl, rfl, Or.inl hcut⟩⟩
    · obtain ⟨⟨body, rest⟩, hcut⟩ :=
        exists_cut_questionBody_iff.mpr ⟨label, tail, rfl, hclosing, hends⟩
      exact ⟨lead, _, ('[' :: body, rest), rfl,
        mem_cuts_branchNode_iff.mpr ⟨body, _, rfl, rfl, Or.inr hcut⟩⟩

/-- **What it takes for a line to name utilities**: a handler word in any case, or a branch. -/
theorem namesUtility_iff : namesUtility line ↔ SaysUtility line := by
  rw [namesUtility, Bool.or_eq_true, handlerWord_occurs_iff, branchNode_occurs_iff_hasBranch,
    SaysUtility]

/-! ## Lines with one label -/

/-- A label without blanks in front begins with a branch if its leading word is a branch word. -/
theorem beginsWithBranch_iff (hblank : ∀ c ∈ label.head?, isBlank c = false) :
    BeginsWithBranch label ↔
      ∃ word ∈ branchWords, (label.takeWhile isWord).map fold = word.toList := by
  constructor
  · rintro ⟨blanks, first, inner, rfl, hblanks, ⟨word, hword, hletters⟩, hinner⟩
    refine ⟨word, hword, (leadingWord_eq_iff hword).mpr ⟨first, inner, ?_, hletters, hinner⟩⟩
    cases blanks with
    | nil => rfl
    | cons b blanks =>
      have hb : isBlank b = false := hblank b rfl
      rw [hblanks b List.mem_cons_self] at hb
      exact absurd hb (by decide)
  · rintro ⟨word, hword, hleads⟩
    obtain ⟨first, inner, rfl, hletters, hinner⟩ := (leadingWord_eq_iff hword).mp hleads
    exact ⟨[], first, inner, rfl, by simp, ⟨word, hword, hletters⟩, hinner⟩

/-- The first word of a label is the same if case is ignored. -/
theorem takeWhile_map_fold (label : List Char) :
    (label.map fold).takeWhile isWord = (label.takeWhile isWord).map fold := by
  have hword : isWord ∘ fold = isWord := funext isWord_fold
  rw [List.takeWhile_map, hword]

/-- On a line with one bracketed label, and without a question mark in it, a branch is named exactly
if the leading word of the label is a branch word. -/
theorem branchNode_occurs_iff (hlead : '[' ∉ lead) (htail : '[' ∉ tail)
    (hopening : '[' ∉ label) (hclosing : ']' ∉ label) (hquestion : '?' ∉ label)
    (hblank : ∀ c ∈ label.head?, isBlank c = false) :
    branchNode.occurs before (lead ++ '[' :: (label ++ ']' :: tail)) ↔
      ∃ word ∈ branchWords, (label.map fold).takeWhile isWord = word.toList := by
  have honly : '[' ∉ label ++ ']' :: tail := by
    simp [hopening, htail]
  rw [branchNode_occurs_iff_hasBranch, takeWhile_map_fold, ← beginsWithBranch_iff hblank]
  constructor
  · rintro ⟨lead', label', tail', hsplit, hclosing', hbranch⟩
    obtain ⟨-, -, hlabels⟩ := (List.append_cons_inj_of_notMem hlead honly).mp hsplit
    obtain ⟨rfl, -⟩ := eq_of_append_sep_eq hclosing hclosing' hlabels
    rcases hbranch with hbegins | ⟨inner, blanks, rfl, -⟩
    · exact hbegins
    · exact absurd (List.mem_append_right inner List.mem_cons_self) hquestion
  · exact fun hbegins => ⟨lead, label, tail, rfl, hclosing, Or.inl hbegins⟩

end Tidy

end CallAtlas
