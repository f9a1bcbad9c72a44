import CallAtlas.Analysis
import CallAtlas.Proofs.CallScans
import CallAtlas.Proofs.RecursiveGroups

/-!
# Later definitions

In lexical mode the calls of a definition are looked for up to the end of the text, and the name of
a function or method stands before a parenthesis also where it is defined.  So every definition
calls the functions and methods that are defined after it (`later_definitions_are_called`), unless
a name is glued to the `function` keyword.  None of them is an entry point, and two definitions of
which the later one calls the earlier one are recursive.
-/

set_option autoImplicit false

namespace CallAtlas

open Text

namespace Lexical

variable {text file : String} {excluded : List String} {kind : DefinitionKind}
  {f g : Found Char} {d e : Definition}

/-! ## Heads -/

/-- Whether a place follows whitespace or a star, or is the beginning of the text, by the character
before it. -/
def IsClear (before : Option Char) : Prop :=
  ∀ c ∈ before, isBlank c ∨ c = '*'

/-- Whether the target of a match stands at such a place. -/
def StandsClear (f : Found Char) : Prop :=
  IsClear (Pattern.lastOf f.past.head? f.lead)

/-- Whether the target of a match is glued to the `function` keyword. -/
def IsGlued (f : Found Char) : Prop :=
  f.lead = "function".toList

/-- A definition of a text under some excluded prefixes, with the match of its head. -/
structure ExtractedAt (excluded : List String) (text file : String) (d : Definition)
    (f : Found Char) : Prop where
  /-- The head is found in the text. -/
  found : (d.kind, f) ∈ headMatches text.toList
  /-- Its target is no keyword. -/
  nameable : isKeyword (String.ofList f.target) = false
  /-- The definition is the one of that head. -/
  eq : d = definitionAt excluded file d.kind f

/-- Every definition of a text has the match of a head, and every such match has a definition. -/
theorem mem_extract_iff_exists :
    d ∈ extract excluded text file ↔ ∃ f, ExtractedAt excluded text file d f := by
  simp only [extract, List.mem_map, List.mem_filter, Bool.not_eq_true']
  constructor
  · rintro ⟨⟨kind, f⟩, ⟨hfound, hnameable⟩, rfl⟩
    exact ⟨f, hfound, hnameable, rfl⟩
  · rintro ⟨f, hfound, hnameable, heq⟩
    exact ⟨(d.kind, f), ⟨hfound, hnameable⟩, heq.symm⟩

/-- A definition has the name that its head matches. -/
theorem ExtractedAt.name_eq (hd : ExtractedAt excluded text file d f) :
    d.name = String.ofList f.target := by
  rw [hd.eq]
  rfl

/-- What a definition calls is found from its head on, and counts as a call of it. -/
theorem ExtractedAt.mem_calls_iff (hd : ExtractedAt excluded text file d f) {callee : String} :
    callee ∈ d.calls ↔ callee ∈ callTargets f.onward ∧ counts excluded d.name callee := by
  have hcalls : d.calls = callsFrom excluded f.onward d.name := by
    rw [hd.eq]
    rfl
  rw [hcalls, callsFrom, NameSet.mem_ofList, List.mem_filter]

/-- A definition of a text under the usual prefixes, with the match of its head. -/
abbrev HeadedBy (text file : String) (d : Definition) (f : Found Char) : Prop :=
  ExtractedAt defaultExcludedPrefixes text file d f

/-- A head that is found is a match of one of the heads for its kind. -/
theorem exists_head (h : (kind, f) ∈ headMatches text.toList) :
    ∃ p, (kind, p) ∈ heads ∧ p.matchHere f.past f.onward = some f ∧
      f.past.reverse ++ f.onward = text.toList := by
  obtain ⟨⟨kind', p⟩, hp, hf⟩ := List.mem_flatMap.mp h
  obtain ⟨f', hf', heq⟩ := List.mem_map.mp hf
  obtain ⟨rfl, rfl⟩ := Prod.mk.inj heq
  exact ⟨p, hp, Probe.of_mem_findAll hf'⟩

/-- There is one head for each kind of definition. -/
theorem mem_heads_iff {p : Probe Char} :
    (kind, p) ∈ heads ↔ kind = .declaration ∧ p = functionHead ∨
      kind = .arrow ∧ p = arrowHead ∨ kind = .method ∧ p = methodHead := by
  simp only [heads, List.mem_cons, Prod.mk.injEq, List.not_mem_nil, or_false]

/-- The target of a head is an identifier. -/
theorem isIdentifier_of_head (h : (kind, f) ∈ headMatches text.toList) :
    IsIdentifier f.target := by
  obtain ⟨p, hp, hmatch, -⟩ := exists_head h
  obtain ⟨-, -, htarget, -⟩ := Probe.matchHere_eq_some hmatch
  have hidentifier : p.target = identifier := by
    rcases mem_heads_iff.mp hp with ⟨-, rfl⟩ | ⟨-, rfl⟩ | ⟨-, rfl⟩ <;> rfl
  rw [hidentifier] at htarget
  exact (mem_cuts_identifier_iff.mp htarget).1

/-- Parameters begin with a parenthesis, perhaps after blanks. -/
theorem opening_of_parameters {p : Pattern Char} {before : Option Char}
    {input run rest : List Char}
    (h : (run, rest) ∈ (Pattern.seq blanks (.seq parameters p)).cuts before input) :
    ∃ gap after, (∀ c ∈ gap, isBlank c) ∧ input = gap ++ '(' :: after := by
  obtain ⟨gap, second, middle, -, hgap, hsecond⟩ := Pattern.mem_cuts_seq_iff.mp h
  obtain ⟨rfl, hblank⟩ := Pattern.mem_cuts_star_one_iff.mp hgap
  obtain ⟨_, _, _, -, hparameters, -⟩ := Pattern.mem_cuts_seq_iff.mp hsecond
  obtain ⟨_, _, after, -, hopening, -⟩ := Pattern.mem_cuts_seq_iff.mp hparameters
  obtain ⟨c, hc, -, rfl⟩ := Pattern.mem_cuts_one_iff.mp hopening
  obtain rfl : c = '(' := by simpa using hc
  exact ⟨gap, after, hblank, rfl⟩

/-- The name of a function or method stands before a parenthesis. -/
theorem opening_of_head (h : (kind, f) ∈ headMatches text.toList)
    (hkind : kind = .declaration ∨ kind = .method) :
    ∃ gap after, (∀ c ∈ gap, isBlank c) ∧ f.tail ++ f.rest = gap ++ '(' :: after := by
  obtain ⟨p, hp, hmatch, -⟩ := exists_head h
  obtain ⟨-, -, -, htail⟩ := Probe.matchHere_eq_some hmatch
  rcases mem_heads_iff.mp hp with ⟨rfl, rfl⟩ | ⟨rfl, -⟩ | ⟨rfl, rfl⟩
  · obtain ⟨gap, hgap, htail, -⟩ := mem_cuts_opening_iff.mp htail
    exact ⟨gap, f.rest, hgap, by simp [htail]⟩
  · simp at hkind
  · exact opening_of_parameters htail

/-! ## What stands before a name -/

/-- A place behind blanks and stars is clear. -/
theorem isClear_of_mem {before : Option Char} {run : List Char} (hne : run ≠ [])
    (hrun : ∀ c ∈ run, isBlank c ∨ c = '*') : IsClear (Pattern.lastOf before run) := by
  intro c hc
  rw [Pattern.lastOf, Option.or_of_isSome (by simpa using hne)] at hc
  exact hrun c (List.mem_of_getLast? hc)

/-- Blanks keep a place clear. -/
theorem isClear_of_blanks {before : Option Char} {run : List Char} (hbefore : IsClear before)
    (hrun : ∀ c ∈ run, isBlank c) : IsClear (Pattern.lastOf before run) := by
  cases run with
  | nil => exact hbefore
  | cons c run => exact isClear_of_mem (List.cons_ne_nil c run) fun a ha => .inl (hrun a ha)

/-- A method's name follows the beginning of a line, and blanks and modifiers with blanks. -/
theorem isClear_of_methodHead {before : Option Char} {input run rest : List Char}
    (h : (run, rest) ∈ methodHead.lead.cuts before input) :
    IsClear (Pattern.lastOf before run) := by
  obtain ⟨start, tail, middle, rfl, hstart, htail⟩ := Pattern.mem_cuts_seq_iff.mp h
  obtain ⟨spaces, modifiers, middle', rfl, hspaces, hmodifiers⟩ := Pattern.mem_cuts_seq_iff.mp htail
  have hline : start = [] ∧ before.all (· == '\n') := by
    rw [lineStart, Pattern.cuts] at hstart
    split at hstart
    · exact ⟨(Prod.mk.inj (List.mem_singleton.mp hstart)).1, ‹_›⟩
    · simp at hstart
  obtain ⟨rfl, hnewline⟩ := hline
  have hbefore : IsClear before := by
    intro c hc
    obtain rfl : c = '\n' := by simpa [Option.mem_def.mp hc] using hnewline
    exact Or.inl (by decide)
  have hblank : ∀ c ∈ spaces, isBlank c := by
    intro c hc
    have hspace := (Pattern.mem_cuts_star_one_iff.mp hspaces).2 c hc
    rw [isSpaceOrTab, Bool.or_eq_true, beq_iff_eq, beq_iff_eq] at hspace
    rcases hspace with rfl | rfl <;> decide
  rw [List.nil_append, Pattern.lastOf_append]
  refine Pattern.lastOf_of_mem_cuts_star (fun before input d hd _ => ?_) hmodifiers
    (isClear_of_blanks hbefore hblank)
  -- A modifier ends with at least one blank.
  obtain ⟨word, gap, middle, hrun, -, hgap⟩ := Pattern.mem_cuts_seq_iff.mp hd
  obtain ⟨hne, -, hblanks⟩ := Pattern.mem_cuts_plus_one_iff.mp hgap
  rw [hrun, Pattern.lastOf_append]
  exact isClear_of_mem hne fun a ha => .inl (hblanks a ha)

/-- What stands between the keyword and the name of a function is blanks and stars. -/
theorem gap_of_functionHead {before : Option Char} {input run rest : List Char}
    (h : (run, rest) ∈ functionHead.lead.cuts before input) :
    ∃ gap, run = "function".toList ++ gap ∧ ∀ c ∈ gap, isBlank c ∨ c = '*' := by
  obtain ⟨edge, run, _, rfl, hedge, h⟩ := Pattern.mem_cuts_seq_iff.mp h
  obtain ⟨word, run, _, rfl, hword, h⟩ := Pattern.mem_cuts_seq_iff.mp h
  obtain ⟨gap, run, _, rfl, hgap, h⟩ := Pattern.mem_cuts_seq_iff.mp h
  obtain ⟨star, gap', _, rfl, hstar, hgap'⟩ := Pattern.mem_cuts_seq_iff.mp h
  have hnil : edge = [] := by
    rw [wordEdge, Pattern.cuts] at hedge
    split at hedge
    · exact (Prod.mk.inj (List.mem_singleton.mp hedge)).1
    · simp at hedge
  have hstars : ∀ c ∈ star, c = '*' := by
    rcases List.mem_append.mp hstar with hstar | hstar
    · obtain ⟨c, hc, rfl, -⟩ := Pattern.mem_cuts_one_iff.mp hstar
      simpa using hc
    · obtain rfl := (Prod.mk.inj (List.mem_singleton.mp hstar)).1
      simp
  refine ⟨gap ++ (star ++ gap'), ?_, ?_⟩
  · rw [hnil, Pattern.eq_of_mem_cuts_word hword, List.nil_append]
  · rw [List.forall_mem_append, List.forall_mem_append]
    exact ⟨fun c hc => .inl ((Pattern.mem_cuts_star_one_iff.mp hgap).2 c hc),
      fun c hc => .inr (hstars c hc),
      fun c hc => .inl ((Pattern.mem_cuts_star_one_iff.mp hgap').2 c hc)⟩

/-- The name of a function or method stands clear unless it is glued to the keyword. -/
theorem standsClear_iff (h : (kind, f) ∈ headMatches text.toList)
    (hkind : kind = .declaration ∨ kind = .method) : StandsClear f ↔ ¬IsGlued f := by
  constructor
  · intro hclear hglued
    have hlast := hclear 'n' (by rw [hglued]; rfl)
    revert hlast
    decide
  · intro hglued
    obtain ⟨p, hp, hmatch, -⟩ := exists_head h
    obtain ⟨-, hlead, -, -⟩ := Probe.matchHere_eq_some hmatch
    rcases mem_heads_iff.mp hp with ⟨rfl, rfl⟩ | ⟨rfl, -⟩ | ⟨rfl, rfl⟩
    · obtain ⟨gap, hrun, hgap⟩ := gap_of_functionHead hlead
      have hne : gap ≠ [] := by
        rintro rfl
        exact hglued (hrun.trans (List.append_nil _))
      rw [StandsClear, hrun, Pattern.lastOf_append]
      exact isClear_of_mem hne hgap
    · simp at hkind
    · exact isClear_of_methodHead hlead

/-! ## Calls of later definitions -/

/-- Where a match starts before another one, it goes on to that one and beyond. -/
theorem onward_eq_append (hf : f.past.reverse ++ f.onward = g.past.reverse ++ g.onward)
    (hstart : f.past.length < g.past.length) :
    ∃ mid, f.onward = mid ++ g.onward ∧
      (mid ++ g.lead).getLast? = Pattern.lastOf g.past.head? g.lead := by
  have hbegin : f.past.reverse <+: g.past.reverse := by
    have hlength : f.past.reverse.length ≤ g.past.reverse.length := by
      simpa using hstart.le
    exact List.prefix_of_prefix_length_le ⟨f.onward, hf⟩ (List.prefix_append _ _) hlength
  obtain ⟨mid, hmid⟩ := hbegin
  refine ⟨mid, ?_, ?_⟩
  · rw [← hmid, List.append_assoc] at hf
    exact List.append_cancel_left hf
  · have hpast : g.past = mid.reverse ++ f.past := by
      rw [← List.reverse_reverse g.past, ← hmid, List.reverse_append, List.reverse_reverse]
    have hne : mid ≠ [] := by
      rintro rfl
      rw [hpast] at hstart
      simp at hstart
    rw [List.getLast?_append, Pattern.lastOf, hpast,
      List.head?_append_of_ne_nil _ (by simpa using hne), List.head?_reverse]

/-- An identifier counts as a callee of every other name unless it is a keyword. -/
theorem counts_of_isIdentifier {name callee : String} (h : IsIdentifier callee.toList)
    (hne : callee ≠ name) (hnameable : isKeyword callee = false) :
    counts defaultExcludedPrefixes name callee := by
  have hprefix : ("console.".toList.isPrefixOf callee.toList) = false := by
    rw [← Bool.not_eq_true, List.isPrefixOf_iff_prefix]
    intro hbegin
    exact h.dot_not_mem (hbegin.subset (by decide))
  simp only [counts, defaultExcludedPrefixes, List.any_cons, List.any_nil, hprefix, hnameable]
  simpa using hne

/-- A definition calls the functions and methods that are defined after it. -/
theorem mem_calls_of_later (hd : HeadedBy text file d f) (he : HeadedBy text file e g)
    (hne : d.name ≠ e.name) (hstart : f.past.length < g.past.length)
    (hkind : e.kind = .declaration ∨ e.kind = .method) (hglued : ¬IsGlued g) :
    e.name ∈ d.calls := by
  have hclear : StandsClear g := (standsClear_iff he.found hkind).mpr hglued
  obtain ⟨-, -, -, hftext⟩ := exists_head hd.found
  obtain ⟨-, -, -, hgtext⟩ := exists_head he.found
  obtain ⟨mid, honward, hlast⟩ := onward_eq_append (hftext.trans hgtext.symm) hstart
  have hname := isIdentifier_of_head he.found
  obtain ⟨gap, after, hgap, htail⟩ := opening_of_head he.found hkind
  have hename : e.name = String.ofList g.target := he.name_eq
  have hcall : String.ofList g.target ∈ callTargets f.onward := by
    have hsplit : f.onward = (mid ++ g.lead) ++ (g.target ++ (gap ++ '(' :: after)) := by
      rw [honward, Found.onward, Found.whole, ← htail]
      simp only [List.append_assoc]
    rw [hsplit]
    refine mem_callTargets (fun c hc => ?_) hname hgap
    rw [hlast] at hc
    rcases hclear c hc with hblank | rfl
    · exact isPathChar_of_isBlank hblank
    · decide
  have hcounts : counts defaultExcludedPrefixes d.name (String.ofList g.target) := by
    refine counts_of_isIdentifier ?_ ?_ he.nameable
    · rwa [String.toList_ofList]
    · rw [← hename]
      exact hne.symm
  rw [hename]
  exact hd.mem_calls_iff.mpr ⟨hcall, hcounts⟩

/-- A text with a definition is not blank. -/
theorem not_blank_of_head (h : (kind, f) ∈ headMatches text.toList) :
    text.toList.all isBlank = false := by
  obtain ⟨-, -, -, htext⟩ := exists_head h
  obtain ⟨c, cs, heq, hc, -⟩ := isIdentifier_of_head h
  have hmem : c ∈ text.toList := by
    rw [← htext, Found.onward, Found.whole, heq]
    simp
  rw [List.all_eq_false]
  refine ⟨c, hmem, fun hblank => ?_⟩
  have hpath := isPathChar_of_rest (isIdentifierRest_of_start hc)
  rw [isPathChar_of_isBlank hblank] at hpath
  exact absurd hpath (by simp)

/-- A definition of a text is one of the program that the text belongs to. -/
theorem HeadedBy.mem_definitions {settings : Settings} {sources : List SourceFile}
    {language : Language} (hd : HeadedBy text file d f) (hfile : ⟨file, text, language⟩ ∈ sources)
    (hmode : settings.extraction.modeFor language = .lexical)
    (hprefixes : settings.extraction.excludedCallPrefixes = defaultExcludedPrefixes) :
    d ∈ Analysis.definitions settings sources := by
  refine List.mem_flatMap.mpr ⟨_, hfile, ?_⟩
  rw [CallAtlas.extract, if_neg (by simpa using not_blank_of_head hd.found), hmode, hprefixes]
  exact mem_extract_iff_exists.mpr ⟨f, hd⟩

end Lexical

open Lexical

/-- **In lexical mode a definition calls every function and method defined after it** whose name
stands clear of the `function` keyword.  So in a program with this file, that function or method is
no entry point, and if it calls the earlier definition the two are in one recursive group. -/
theorem later_definitions_are_called {text file : String} {d e : Definition} {f g : Found Char}
    (hd : HeadedBy text file d f) (he : HeadedBy text file e g) (hne : d.name ≠ e.name)
    (hstart : f.past.length < g.past.length)
    (hkind : e.kind = .declaration ∨ e.kind = .method) (hglued : ¬IsGlued g) :
    e.name ∈ d.calls ∧
      ∀ (settings : Settings) (sources : List SourceFile) (language : Language),
        ⟨file, text, language⟩ ∈ sources →
        settings.extraction.modeFor language = .lexical →
        settings.extraction.excludedCallPrefixes = defaultExcludedPrefixes →
          e.name ∉ entryPoints (Analysis.definitions settings sources) ∧
          (d.name ∈ e.calls →
            ∃ group ∈ (CallGraph.ofDefinitions
              (Analysis.definitions settings sources)).recursiveGroups,
              d.name ∈ group ∧ e.name ∈ group) := by
  have hcall : e.name ∈ d.calls := mem_calls_of_later hd he hne hstart hkind hglued
  refine ⟨hcall, fun settings sources language hfile hmode hprefixes => ?_⟩
  have hdmem := hd.mem_definitions hfile hmode hprefixes
  have hemem := he.mem_definitions hfile hmode hprefixes
  refine ⟨fun hentry => (mem_entryPoints.mp hentry).2 d hdmem hcall, fun hback => ?_⟩
  have hto : Calls (Analysis.definitions settings sources) d.name e.name :=
    ⟨⟨d, hdmem, rfl, hcall⟩, e, hemem, rfl⟩
  have hfrom : Calls (Analysis.definitions settings sources) e.name d.name :=
    ⟨⟨e, hemem, rfl, hback⟩, d, hdmem, rfl⟩
  exact CallGraph.share_group_iff.mpr ⟨.single hto, .single hfrom⟩

/-- The head of `a` in a text in which `a` and `b` call each other. -/
def headOfA : Found Char :=
  ⟨[], "function ".toList, ['a'], ['('], ") {b();}\nfunction b() {a();}".toList⟩

/-- The head of `b` in that text. -/
def headOfB : Found Char :=
  ⟨"function a() {b();}\n".toList.reverse, "function ".toList, ['b'], ['('], ") {a();}".toList⟩

/-- The text itself. -/
def pairText : String := "function a() {b();}\nfunction b() {a();}"

/-- The definition of `a` in that text. -/
def definitionOfA : Definition :=
  definitionAt defaultExcludedPrefixes "pair.js" .declaration headOfA

/-- The definition of `b` in that text. -/
def definitionOfB : Definition :=
  definitionAt defaultExcludedPrefixes "pair.js" .declaration headOfB

/-- Of two functions that call each other the later one is called, and they share a group. -/
theorem later_definition_b_is_called :
    "b" ∈ definitionOfA.calls ∧
      "b" ∉ entryPoints (Analysis.definitions {} [⟨"pair.js", pairText, .javascript⟩]) ∧
      ∃ group ∈ (CallGraph.ofDefinitions (Analysis.definitions {}
        [⟨"pair.js", pairText, .javascript⟩])).recursiveGroups, "a" ∈ group ∧ "b" ∈ group := by
  have ha : HeadedBy pairText "pair.js" definitionOfA headOfA :=
    ⟨by decide +kernel, by decide +kernel, rfl⟩
  have hb : HeadedBy pairText "pair.js" definitionOfB headOfB :=
    ⟨by decide +kernel, by decide +kernel, rfl⟩
  have hglued : ¬IsGlued headOfB := by
    rw [IsGlued]
    decide
  obtain ⟨hcall, hall⟩ := later_definitions_are_called ha hb (by decide +kernel) (by decide +kernel)
    (.inl rfl) hglued
  obtain ⟨hentry, hgroup⟩ := hall {} [⟨"pair.js", pairText, .javascript⟩] .javascript
    List.mem_cons_self rfl rfl
  exact ⟨hcall, hentry, hgroup (by decide +kernel)⟩

end CallAtlas
