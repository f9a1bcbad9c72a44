import CallAtlas.Proofs.ExtractedListings

/-!
# Balanced method heads

A method is found by its head: at the beginning of a line, behind modifiers, a name and parameters
in parentheses, and then a brace (`isMethodHead_of_found`).  The parameters end with the first
closing parenthesis, whatever has been opened before it.  So the parentheses are balanced exactly if
only one has been opened by then (`hasBalancedHead_iff`).  A statement that passes a function
expression to a function opens a second one.
-/

set_option autoImplicit false

namespace CallAtlas

open Text

namespace Lexical

variable {text file : String} {excluded : List String} {kind : DefinitionKind} {f : Found Char}
  {d : Definition} {before : Option Char} {input run rest params : List Char}

/-! ## Balanced parentheses -/

/-- Whether the parentheses of a text are balanced: every one that is opened is closed, and every
one that is closed has been opened. -/
inductive Balanced : List Char → Prop where
  /-- The empty text. -/
  | nil : Balanced []
  /-- A character that is no parenthesis, and a balanced text. -/
  | plain {c : Char} {cs : List Char} (hopening : c ≠ '(') (hclosing : c ≠ ')')
      (hrest : Balanced cs) : Balanced (c :: cs)
  /-- A balanced text in parentheses, and another one. -/
  | nested {inner cs : List Char} (hinner : Balanced inner) (hrest : Balanced cs) :
      Balanced ('(' :: (inner ++ ')' :: cs))

/-- A balanced text has as many opening as closing parentheses. -/
theorem Balanced.count_eq {cs : List Char} (h : Balanced cs) : cs.count '(' = cs.count ')' := by
  induction h with
  | nil => rfl
  | plain hopening hclosing _ ih => simp [hopening, hclosing, ih]
  | nested _ _ ihinner ihrest =>
    simp only [List.count_cons, List.count_append, ihinner, ihrest]
    simp
    omega

/-- A text without parentheses is balanced. -/
theorem balanced_of_not_mem {cs : List Char} (hopening : '(' ∉ cs) (hclosing : ')' ∉ cs) :
    Balanced cs := by
  induction cs with
  | nil => exact .nil
  | cons c cs ih =>
    rw [List.mem_cons, not_or] at hopening hclosing
    exact .plain (Ne.symm hopening.1) (Ne.symm hclosing.1) (ih hopening.2 hclosing.2)

/-- Where nothing is closed, the parentheses are balanced exactly if nothing is opened. -/
theorem balanced_iff_of_not_mem {cs : List Char} (hclosing : ')' ∉ cs) :
    Balanced cs ↔ '(' ∉ cs := by
  constructor
  · intro h
    rw [← List.count_eq_zero, h.count_eq, List.count_eq_zero]
    exact hclosing
  · intro hopening
    exact balanced_of_not_mem hopening hclosing

/-! ## The parts of a method head -/

/-- The words that may stand before the name of a method. -/
def modifierWords : List String :=
  ["public", "private", "protected", "static", "async", "get", "set"]

/-- Whether a run of characters is a modifier and the whitespace behind it. -/
def IsModifier (run : List Char) : Prop :=
  ∃ word ∈ modifierWords, ∃ gap, run = word.toList ++ gap ∧ gap ≠ [] ∧ ∀ c ∈ gap, isBlank c

/-- Whether a run of characters is nothing or a type annotation without braces and semicolons. -/
def IsTypeMark (run : List Char) : Prop :=
  run = [] ∨ ∃ gap type, run = ':' :: (gap ++ type) ∧ (∀ c ∈ gap, isBlank c) ∧ type ≠ [] ∧
    ∀ c ∈ type, c ≠ '\x7b' ∧ c ≠ ';'

/-- Whether a match is the head of a method with the given parameters. -/
structure IsMethodHead (f : Found Char) (params : List Char) : Prop where
  /-- It begins a line. -/
  leads : ∀ c ∈ f.past.head?, c = '\n'
  /-- Spaces, tabs and modifiers stand before its name. -/
  lead : ∃ (indent : List Char) (runs : List (List Char)), f.lead = indent ++ runs.flatten ∧
    (∀ c ∈ indent, isSpaceOrTab c) ∧ ∀ run ∈ runs, IsModifier run
  /-- Its name is an identifier. -/
  name : IsIdentifier f.target
  /-- The parameters in parentheses, perhaps a type, and a brace stand behind it. -/
  tail : ∃ gap gap' type, f.tail =
      gap ++ '(' :: (params ++ ')' :: (gap' ++ (type ++ ['\x7b']))) ∧
    (∀ c ∈ gap, isBlank c) ∧ (∀ c ∈ gap', isBlank c) ∧ IsTypeMark type
  /-- The parameters end with the first closing parenthesis. -/
  closed : ')' ∉ params

/-- Whether a match is the head of a method whose parentheses are balanced. -/
def HasBalancedHead (f : Found Char) : Prop :=
  ∃ params, IsMethodHead f params ∧ Balanced params

/-- What the pattern of a modifier takes is one of the modifier words and the blanks behind it. -/
theorem isModifier_of_mem_cuts
    (h : (run, rest) ∈ (Pattern.seq modifier someBlanks).cuts before input) : IsModifier run := by
  obtain ⟨word, gap, middle, rfl, hword, hgap⟩ := Pattern.mem_cuts_seq_iff.mp h
  obtain ⟨hne, -, hblanks⟩ := Pattern.mem_cuts_plus_one_iff.mp hgap
  obtain ⟨p, hp, hcut⟩ := Pattern.mem_cuts_any_iff.mp hword
  obtain ⟨w, hw, rfl⟩ := List.mem_map.mp hp
  exact ⟨w, hw, gap, by rw [Pattern.eq_of_mem_cuts_word hcut], hne, hblanks⟩

/-- What the pattern of a type annotation takes is nothing or a colon and a type. -/
theorem isTypeMark_of_mem_cuts
    (h : (run, rest) ∈ ( annotation fun c => c != '\x7b' && c != ';').cuts before input) :
    IsTypeMark run := by
  rcases Pattern.mem_cuts_alt_iff.mp h with h | h
  · obtain ⟨colon, more, middle, rfl, hcolon, hmore⟩ := Pattern.mem_cuts_seq_iff.mp h
    obtain ⟨c, hc, rfl, -⟩ := Pattern.mem_cuts_one_iff.mp hcolon
    obtain rfl : c = ':' := by simpa using hc
    obtain ⟨gap, type, middle', rfl, hgap, htype⟩ := Pattern.mem_cuts_seq_iff.mp hmore
    obtain ⟨hne, -, hchars⟩ := Pattern.mem_cuts_plus_one_iff.mp htype
    refine Or.inr ⟨gap, type, rfl, (Pattern.mem_cuts_star_one_iff.mp hgap).2, hne, fun c hc => ?_⟩
    simpa using hchars c hc
  · exact Or.inl (Pattern.mem_cuts_empty_iff.mp h).1

/-- The pattern of parameters stops at the first closing parenthesis. -/
theorem exists_params_of_mem_cuts (h : (run, rest) ∈ parameters.cuts before input) :
    ∃ params, run = '(' :: (params ++ [')']) ∧ ')' ∉ params := by
  obtain ⟨opening, more, middle, rfl, hopening, hmore⟩ := Pattern.mem_cuts_seq_iff.mp h
  obtain ⟨c, hc, rfl, -⟩ := Pattern.mem_cuts_one_iff.mp hopening
  obtain rfl : c = '(' := by simpa using hc
  obtain ⟨params, closing, middle', rfl, hparams, hclosing⟩ := Pattern.mem_cuts_seq_iff.mp hmore
  obtain ⟨c, hc, rfl, -⟩ := Pattern.mem_cuts_one_iff.mp hclosing
  obtain rfl : c = ')' := by simpa using hc
  refine ⟨params, rfl, fun hmem => ?_⟩
  have hother := (Pattern.mem_cuts_star_one_iff.mp hparams).2 ')' hmem
  exact absurd hother (by decide)

/-- What is found as a method has the head of one. -/
theorem isMethodHead_of_found (h : (DefinitionKind.method, f) ∈ headMatches text.toList) :
    ∃ params, IsMethodHead f params := by
  have hname := isIdentifier_of_head h
  obtain ⟨p, hp, hmatch, -⟩ := exists_head h
  obtain ⟨-, hlead, -, htail⟩ := Probe.matchHere_eq_some hmatch
  obtain rfl : p = methodHead := by
    rcases mem_heads_iff.mp hp with ⟨hkind, -⟩ | ⟨hkind, -⟩ | ⟨-, hp⟩
    · exact absurd hkind (by decide)
    · exact absurd hkind (by decide)
    · exact hp
  obtain ⟨start, more, middle, hsplit, hstart, hmore⟩ := Pattern.mem_cuts_seq_iff.mp hlead
  obtain ⟨hline, rfl, -⟩ := Pattern.mem_cuts_edge_iff.mp hstart
  obtain ⟨indent, modifiers, middle', rfl, hindent, hmodifiers⟩ := Pattern.mem_cuts_seq_iff.mp hmore
  obtain ⟨runs, rfl, hruns⟩ := exists_runs_of_mem_cuts_star isModifier_of_mem_cuts hmodifiers
  obtain ⟨gap, more, after, hsplit', hgap, hmore⟩ := Pattern.mem_cuts_seq_iff.mp htail
  obtain ⟨inside, more, after', rfl, hinside, hmore⟩ := Pattern.mem_cuts_seq_iff.mp hmore
  obtain ⟨params, rfl, hclosed⟩ := exists_params_of_mem_cuts hinside
  obtain ⟨gap', more, after'', rfl, hgap', hmore⟩ := Pattern.mem_cuts_seq_iff.mp hmore
  obtain ⟨type, brace, after''', rfl, htype, hbrace⟩ := Pattern.mem_cuts_seq_iff.mp hmore
  obtain ⟨c, hc, rfl, -⟩ := Pattern.mem_cuts_one_iff.mp hbrace
  obtain rfl : c = '\x7b' := by simpa using hc
  refine ⟨params, ?_, ⟨indent, runs, hsplit, ?_, hruns⟩, hname, ⟨gap, gap', type, ?_, ?_, ?_, ?_⟩,
    hclosed⟩
  · intro c hc
    simpa [Option.mem_def.mp hc] using hline
  · exact (Pattern.mem_cuts_star_one_iff.mp hindent).2
  · simpa using hsplit'
  · exact (Pattern.mem_cuts_star_one_iff.mp hgap).2
  · exact (Pattern.mem_cuts_star_one_iff.mp hgap').2
  · exact isTypeMark_of_mem_cuts htype

/-! ## Balanced heads -/

/-- The parentheses that are opened up to the first closing one. -/
def openedFirst (f : Found Char) : Nat := (f.tail.takeWhile (· != ')')).count '('

/-- Beside the parenthesis that opens the parameters these are the ones among them. -/
theorem IsMethodHead.openedFirst_eq (h : IsMethodHead f params) :
    openedFirst f = params.count '(' + 1 := by
  obtain ⟨gap, gap', type, htail, hgap, -, -⟩ := h.tail
  have hnot : ∀ c, isBlank c = false → c ∉ gap := by
    rintro c hc hmem
    rw [hgap c hmem] at hc
    exact absurd hc (by decide)
  have hbefore : ∀ c ∈ gap ++ '(' :: params, (c != ')') = true := by
    intro c hc
    rw [bne_iff_ne]
    rintro rfl
    rcases List.mem_append.mp hc with hc | hc
    · exact hnot ')' (by decide) hc
    · rcases List.mem_cons.mp hc with hc | hc
      · exact absurd hc (by decide)
      · exact h.closed hc
  have hsplit : f.tail = (gap ++ '(' :: params) ++ ')' :: (gap' ++ (type ++ ['\x7b'])) := by
    rw [htail, List.append_assoc, List.cons_append]
  have htaken : f.tail.takeWhile (· != ')') = gap ++ '(' :: params := by
    rw [hsplit]
    exact takeWhile_of_stop hbefore (by simp)
  rw [openedFirst, htaken, List.count_append, List.count_cons_self,
    List.count_eq_zero.mpr (hnot '(' (by decide)), Nat.zero_add]

/-- The head of a method is balanced exactly if one parenthesis is opened before one is closed. -/
theorem hasBalancedHead_iff (h : IsMethodHead f params) :
    HasBalancedHead f ↔ openedFirst f = 1 := by
  constructor
  · rintro ⟨params, hparams, hbalanced⟩
    have hnone := (balanced_iff_of_not_mem hparams.closed).mp hbalanced
    rw [hparams.openedFirst_eq, List.count_eq_zero.mpr hnone]
  · intro hone
    rw [h.openedFirst_eq] at hone
    have hnone : '(' ∉ params := List.count_eq_zero.mp (Nat.succ.inj hone)
    exact ⟨params, h, (balanced_iff_of_not_mem h.closed).mpr hnone⟩

end Lexical

open Lexical

/-- **A method stems from a head at the beginning of a line, and the parentheses of that head are
balanced exactly if only one has been opened when the first is closed.** -/
theorem method_head_is_balanced_iff {excluded : List String} {text file : String} {d : Definition}
    {f : Found Char} (hd : ExtractedAt excluded text file d f) (hkind : d.kind = .method) :
    (∃ params, IsMethodHead f params) ∧ (HasBalancedHead f ↔ openedFirst f = 1) := by
  have hfound : (DefinitionKind.method, f) ∈ headMatches text.toList := hkind ▸ hd.found
  obtain ⟨params, hparams⟩ := isMethodHead_of_found hfound
  exact ⟨⟨params, hparams⟩, hasBalancedHead_iff hparams⟩

/-- The head of a method with a modifier, two parameters and a type. -/
def headOfResize : Found Char :=
  ⟨['\n', '\x7b'], "  async ".toList, "resize".toList, "(w, h): void \x7b".toList, "\x7d\n".toList⟩

/-- The head `async resize(w, h): void` yields the method, and its parentheses are balanced. -/
theorem head_of_resize_is_balanced :
    (Lexical.extract [] "\x7b\n  async resize(w, h): void \x7b\x7d\n" "view.ts").map (·.name) =
        ["resize"] ∧
      HasBalancedHead headOfResize := by
  have hresize : ExtractedAt [] "\x7b\n  async resize(w, h): void \x7b\x7d\n" "view.ts"
      (definitionAt [] "view.ts" .method headOfResize) headOfResize :=
    ⟨by decide +kernel, by decide +kernel, rfl⟩
  exact ⟨by decide +kernel, (method_head_is_balanced_iff hresize rfl).2.mpr (by decide)⟩

/-- The head that is read where a function expression is passed to `name`. -/
def headInCallOfName : Found Char :=
  ⟨[], [], "name".toList, "(function() \x7b".toList, "\n\x7d);".toList⟩

/-- A statement that passes a function expression is read as a method, and the parentheses of its
head are not balanced. -/
theorem call_with_function_defines_name :
    (Lexical.extract [] "name(function() \x7b\n\x7d);" "a.js").map (fun d => (d.name, d.kind)) =
        [("name", .method)] ∧
      ExtractedAt [] "name(function() \x7b\n\x7d);" "a.js"
        (definitionAt [] "a.js" .method headInCallOfName) headInCallOfName ∧
      ¬HasBalancedHead headInCallOfName := by
  have hname : ExtractedAt [] "name(function() \x7b\n\x7d);" "a.js"
      (definitionAt [] "a.js" .method headInCallOfName) headInCallOfName :=
    ⟨by decide +kernel, by decide +kernel, rfl⟩
  obtain ⟨params, hparams⟩ := isMethodHead_of_found hname.found
  refine ⟨by decide +kernel, hname, fun hbalanced => ?_⟩
  have hone := (hasBalancedHead_iff hparams).mp hbalanced
  exact absurd hone (by decide)

end CallAtlas
