import CallAtlas.Lexical.Extraction
import CallAtlas.Proofs.CharClasses
import CallAtlas.Proofs.PatternCuts

/-!
# Scans for calls

A call is a dotted path, whitespace and a parenthesis.  So once a character of a match is not part
of its path, nothing but whitespace and the parenthesis follows in the match, and no match goes on
from such a character into a name (`length_whole_le`).  From there it follows that a scan for calls
comes to every name before a parenthesis that does not continue a path, whatever precedes it, and
takes it as a call (`mem_callTargets`).
-/

set_option autoImplicit false

namespace CallAtlas.Lexical

open Text

/-! ## Characters of paths -/

/-- Whether a character can be part of a dotted path. -/
def isPathChar (c : Char) : Bool :=
  isIdentifierRest c || c == '.'

/-- A blank does not belong to a dotted path. -/
theorem isPathChar_of_isBlank {c : Char} (h : isBlank c) : isPathChar c = false := by
  rw [← Bool.not_eq_true]
  intro hpath
  rw [isBlank_eq_false (by decide +kernel) hpath] at h
  exact absurd h (by simp)

/-- What begins an identifier may also go on with it. -/
theorem isIdentifierRest_of_start {c : Char} (h : isIdentifierStart c) : isIdentifierRest c := by
  rw [isIdentifierStart, Bool.or_eq_true, Bool.or_eq_true, beq_iff_eq, beq_iff_eq] at h
  rcases h with (h | rfl) | rfl
  · have hword : isWord c := isWord_of_isAlphanum (isAlphanum_of_isAlpha h)
    rw [isIdentifierRest, hword, Bool.true_or]
  · decide
  · decide

/-- The characters of an identifier belong to dotted paths. -/
theorem isPathChar_of_rest {c : Char} (h : isIdentifierRest c) : isPathChar c := by
  rw [isPathChar, h, Bool.true_or]

/-! ## Identifiers -/

/-- Whether a run of characters is an identifier. -/
def IsIdentifier (name : List Char) : Prop :=
  ∃ c cs, name = c :: cs ∧ isIdentifierStart c ∧ ∀ a ∈ cs, isIdentifierRest a

variable {before : Option Char} {input run rest name gap after : List Char}

/-- The pattern of an identifier takes the identifiers at the beginning of the input. -/
theorem mem_cuts_identifier_iff :
    (run, rest) ∈ identifier.cuts before input ↔ IsIdentifier run ∧ run ++ rest = input := by
  rw [identifier, Pattern.mem_cuts_seq_iff]
  simp only [Pattern.mem_cuts_one_iff, Pattern.mem_cuts_star_one_iff]
  constructor
  · rintro ⟨first, second, middle, rfl, ⟨c, hc, rfl, rfl⟩, rfl, hsecond⟩
    exact ⟨⟨c, second, rfl, hc, hsecond⟩, rfl⟩
  · rintro ⟨⟨c, cs, rfl, hc, hcs⟩, rfl⟩
    exact ⟨[c], cs, cs ++ rest, rfl, ⟨c, hc, rfl, rfl⟩, rfl, hcs⟩

/-- Every character of an identifier may go on with one. -/
theorem IsIdentifier.isIdentifierRest (h : IsIdentifier name) :
    ∀ a ∈ name, isIdentifierRest a := by
  obtain ⟨c, cs, rfl, hc, hcs⟩ := h
  exact List.forall_mem_cons.mpr ⟨isIdentifierRest_of_start hc, hcs⟩

/-- Every character of an identifier belongs to a dotted path. -/
theorem IsIdentifier.isPathChar (h : IsIdentifier name) : ∀ a ∈ name, isPathChar a :=
  fun a ha => isPathChar_of_rest (h.isIdentifierRest a ha)

/-- An identifier has no dot. -/
theorem IsIdentifier.dot_not_mem (h : IsIdentifier name) : '.' ∉ name := by
  intro hdot
  have hrest := h.isIdentifierRest '.' hdot
  exact absurd hrest (by decide)

/-! ## Calls -/

/-- The pattern of an opening takes blanks and the parenthesis behind them. -/
theorem mem_cuts_opening_iff :
    (run, rest) ∈ (Pattern.all [blanks, sym '(']).cuts before input ↔
      ∃ gap, (∀ c ∈ gap, isBlank c) ∧ run = gap ++ ['('] ∧ run ++ rest = input := by
  simp only [Pattern.all, blanks, sym, Pattern.mem_cuts_seq_iff, Pattern.mem_cuts_one_iff,
    Pattern.mem_cuts_star_one_iff, beq_iff_eq]
  constructor
  · rintro ⟨gap, second, middle, rfl, ⟨rfl, hgap⟩, c, rfl, rfl, rfl⟩
    exact ⟨gap, hgap, rfl, by simp⟩
  · rintro ⟨gap, hgap, rfl, rfl⟩
    exact ⟨gap, ['('], '(' :: rest, rfl, ⟨by simp, hgap⟩, '(', rfl, rfl, rfl⟩

/-- What the pattern of a dotted path takes is made of path characters. -/
theorem isPathChar_of_mem_cuts_dottedPath (h : (run, rest) ∈ dottedPath.cuts before input) :
    ∀ a ∈ run, isPathChar a := by
  obtain ⟨first, second, middle, rfl, hfirst, hsecond⟩ := Pattern.mem_cuts_seq_iff.mp h
  have hname := (mem_cuts_identifier_iff.mp hfirst).1
  have hmore : ∀ a ∈ second, isPathChar a := by
    refine Pattern.forall_of_mem_repeated (fun before input d hd => ?_) hsecond
    obtain ⟨dot, part, middle, hrun, hdot, hpart⟩ := Pattern.mem_cuts_seq_iff.mp hd
    obtain ⟨c, hc, rfl, -⟩ := Pattern.mem_cuts_one_iff.mp hdot
    obtain rfl : c = '.' := by simpa using hc
    rw [hrun, List.singleton_append, List.forall_mem_cons]
    exact ⟨by decide, (mem_cuts_identifier_iff.mp hpart).1.isPathChar⟩
  exact List.forall_mem_append.mpr ⟨hname.isPathChar, hmore⟩

/-- A call is a path, whitespace and a parenthesis. -/
theorem matchHere_call_eq_some {past : List Char} {f : Found Char}
    (h : call.matchHere past input = some f) :
    (∀ a ∈ f.target, isPathChar a) ∧
      ∃ gap, (∀ c ∈ gap, isBlank c) ∧ f.whole = f.target ++ (gap ++ ['(']) ∧
        input = f.whole ++ f.rest := by
  obtain ⟨-, hlead, htarget, htail⟩ := Probe.matchHere_eq_some h
  obtain ⟨gap, hgap, htail, -⟩ := mem_cuts_opening_iff.mp htail
  obtain ⟨hnil, -⟩ : f.lead = [] ∧ _ := Prod.mk.inj (List.mem_singleton.mp hlead)
  refine ⟨isPathChar_of_mem_cuts_dottedPath htarget, gap, hgap, ?_, ?_⟩
  · rw [Found.whole, hnil, htail, List.nil_append]
  · exact (Probe.onward_of_matchHere h).symm

/-- No character of an opening belongs to a dotted path. -/
theorem not_isPathChar_of_mem_opening (hgap : ∀ c ∈ gap, isBlank c) :
    ∀ a ∈ gap ++ ['('], isPathChar a = false := by
  have hparenthesis : isPathChar '(' = false := by decide
  rw [List.forall_mem_append]
  exact ⟨fun a ha => isPathChar_of_isBlank (hgap a ha), by simpa using hparenthesis⟩

/-- No call goes on from a character that is not part of its path into a name. -/
theorem length_whole_le {past init : List Char} {c x : Char} {f : Found Char}
    (hc : isPathChar c = false) (hx : isPathChar x)
    (h : call.matchHere past (init ++ c :: x :: rest) = some f) :
    f.whole.length ≤ init.length + 1 := by
  obtain ⟨hpath, gap, hgap, hwhole, hinput⟩ := matchHere_call_eq_some h
  apply Nat.le_of_not_lt
  intro hlong
  -- Both begin the text, and the match is the longer one.
  have hinit : init ++ [c, x] <+: init ++ c :: x :: rest := ⟨rest, by simp⟩
  have htaken : f.whole <+: init ++ c :: x :: rest := ⟨f.rest, hinput.symm⟩
  have hlength : (init ++ [c, x]).length ≤ f.whole.length := by
    simp only [List.length_append, List.length_cons, List.length_nil]
    omega
  obtain ⟨more, hmore⟩ := List.prefix_of_prefix_length_le hinit htaken hlength
  rw [hwhole, List.append_assoc, List.append_eq_append_iff] at hmore
  have hmem : x ∈ gap ++ ['('] := by
    rcases hmore with ⟨between, htarget, hrest⟩ | ⟨between, -, hrest⟩
    · cases between with
      | nil =>
        rw [List.nil_append] at hrest
        rw [← hrest]
        simp
      | cons d between =>
        obtain rfl : c = d := (List.cons.inj hrest).1
        have hd := hpath c (by rw [htarget]; simp)
        rw [hc] at hd
        exact absurd hd (by simp)
    · rw [hrest]
      simp
  rw [not_isPathChar_of_mem_opening hgap x hmem] at hx
  exact absurd hx (by simp)

/-- No call that starts in a beginning of the text goes beyond it into a name, if the beginning does
not end in a character of a path. -/
theorem length_whole_le_of_suffix {pre past later more : List Char} {a x : Char} {f : Found Char}
    (hpre : ∀ c ∈ pre.getLast?, isPathChar c = false) (hx : isPathChar x)
    (hlater : a :: later <:+ pre)
    (h : call.matchHere past (a :: later ++ x :: more) = some f) :
    f.whole.length ≤ later.length + 1 := by
  obtain ⟨init, c, hinit⟩ : ∃ init c, a :: later = init ++ [c] :=
    ⟨_, _, (List.dropLast_concat_getLast (List.cons_ne_nil a later)).symm⟩
  have hlast : pre.getLast? = some c := by
    obtain ⟨first, rfl⟩ := hlater
    rw [hinit, ← List.append_assoc, List.getLast?_concat]
  have hlength : later.length = init.length := by
    simpa using congrArg List.length hinit
  rw [hinit, List.append_assoc] at h
  rw [hlength]
  exact length_whole_le (hpre c hlast) hx h

/-- A name before a parenthesis is a call of just this name. -/
theorem exists_matchHere_call (hname : IsIdentifier name) (hgap : ∀ c ∈ gap, isBlank c)
    (past : List Char) :
    ∃ f, call.matchHere past (name ++ (gap ++ '(' :: after)) = some f ∧ f.target = name := by
  have htarget : ∀ before, (name, gap ++ '(' :: after) ∈
      dottedPath.cuts before (name ++ (gap ++ '(' :: after)) := by
    intro before
    apply Pattern.mem_cuts_seq_iff.mpr
    exact ⟨name, [], _, (List.append_nil name).symm, mem_cuts_identifier_iff.mpr ⟨hname, rfl⟩,
      Pattern.nil_mem_cuts_star _ _ _⟩
  have htail : ∀ before, (gap ++ ['('], after) ∈
      (Pattern.all [blanks, sym '(']).cuts before (gap ++ '(' :: after) :=
    fun before => mem_cuts_opening_iff.mpr ⟨gap, hgap, rfl, by simp⟩
  have hlead : ([], name ++ (gap ++ '(' :: after)) ∈
      call.lead.cuts past.head? (name ++ (gap ++ '(' :: after)) := List.mem_singleton.mpr rfl
  obtain ⟨f, hf⟩ := Probe.exists_matchHere hlead (htarget _) (htail _)
  refine ⟨f, hf, ?_⟩
  obtain ⟨hpath, gap', hgap', hwhole, hinput⟩ := matchHere_call_eq_some hf
  have hstop : ∀ {gap more : List Char}, (∀ c ∈ gap, isBlank c) →
      ∀ a ∈ (gap ++ '(' :: more).head?, isPathChar a = false := by
    intro gap more hgap a ha
    apply not_isPathChar_of_mem_opening hgap
    cases gap with
    | nil => simpa [eq_comm] using ha
    | cons c gap => simp_all
  -- Both are the longest run of path characters at the beginning of the same text.
  rw [hwhole, List.append_assoc, List.append_assoc, List.singleton_append] at hinput
  have hlongest : (f.target ++ (gap' ++ '(' :: f.rest)).takeWhile isPathChar = f.target :=
    takeWhile_of_stop hpath (hstop hgap')
  rw [← hinput] at hlongest
  rw [← hlongest, takeWhile_of_stop hname.isPathChar (hstop hgap)]

/-- **A scan for calls finds every name before a parenthesis** that does not continue a path. -/
theorem mem_callTargets {pre : List Char} (hpre : ∀ c ∈ pre.getLast?, isPathChar c = false)
    (hname : IsIdentifier name) (hgap : ∀ c ∈ gap, isBlank c) :
    String.ofList name ∈ callTargets (pre ++ (name ++ (gap ++ '(' :: after))) := by
  obtain ⟨f, hf, htarget⟩ : ∃ f,
      call.matchHere (pre.reverse ++ []) (name ++ (gap ++ '(' :: after)) = some f ∧
        f.target = name := exists_matchHere_call hname hgap _
  have hhead : ∃ x more, name ++ (gap ++ '(' :: after) = x :: more ∧ isPathChar x := by
    obtain ⟨x, xs, rfl, hx, -⟩ := hname
    exact ⟨x, _, rfl, isPathChar_of_rest (isIdentifierRest_of_start hx)⟩
  obtain ⟨x, more, hmore, hx⟩ := hhead
  rw [hmore] at hf ⊢
  obtain ⟨found, hscan⟩ := Probe.matchesAfter_append
    (fun a later hlater past g => length_whole_le_of_suffix hpre hx hlater) (Nat.zero_le _) []
  rw [callTargets, Probe.findAll, hscan, Probe.matchesAfter, hf]
  simp [htarget]

end CallAtlas.Lexical
