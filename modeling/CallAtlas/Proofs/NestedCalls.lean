import CallAtlas.Proofs.LaterDefinitions
import CallAtlas.Proofs.MatchScans
import CallAtlas.Proofs.PatternSymbols

/-!
# Nested calls

The calls of a definition are looked for from its head to the end of the text, each time anew.  The
scan from an earlier head and the one from a later head both come to the name of the later
definition, if no character of a path stands right before it, and from there on they go alike
(`exists_callTargets_append`).  Before that name the later scan has found nothing, since no
parenthesis stands between a head's beginning and its name (`callTargets_onward`).  So a definition
calls all that a later one calls, but for itself (`later_calls_are_nested`).
-/

set_option autoImplicit false

namespace CallAtlas

open Text

namespace Lexical

variable {text file : String} {excluded : List String} {kind : DefinitionKind}
  {f g : Found Char} {d e : Definition}

/-- A callee counts if it is another name, no keyword, and begins with no excluded prefix. -/
theorem counts_iff {name callee : String} :
    counts excluded name callee ↔ callee ≠ name ∧ isKeyword callee = false ∧
      ∀ start ∈ excluded, ¬start.toList <+: callee.toList := by
  simp only [counts, Bool.and_eq_true, bne_iff_ne, Bool.not_eq_true', List.any_eq_false,
    List.isPrefixOf_iff_prefix, and_assoc]

/-! ## Scans that fall in step -/

section Scans

variable {pre name rest : List Char}

/-- The call targets are the same whatever stands before the text. -/
theorem callTargets_eq (past text : List Char) :
    (call.matchesAfter 0 past text).map (fun f => String.ofList f.target) = callTargets text :=
  Probe.map_matchesAfter_congr (by decide) (fun _ _ => rfl) 0 past [] text

/-- An identifier begins with a path character. -/
theorem exists_isPathChar (hname : IsIdentifier name) (rest : List Char) :
    ∃ x more, name ++ rest = x :: more ∧ isPathChar x := by
  obtain ⟨x, xs, rfl, hx, -⟩ := hname
  exact ⟨x, _, rfl, isPathChar_of_rest (isIdentifierRest_of_start hx)⟩

/-- A scan that comes to a name which continues no path goes on as if it began there. -/
theorem exists_callTargets_append (hpre : ∀ c ∈ pre.getLast?, isPathChar c = false)
    (hname : IsIdentifier name) (rest : List Char) :
    ∃ found, callTargets (pre ++ (name ++ rest)) = found ++ callTargets (name ++ rest) := by
  obtain ⟨x, more, hmore, hx⟩ := exists_isPathChar hname rest
  rw [hmore]
  obtain ⟨found, hscan⟩ := Probe.matchesAfter_append
    (fun a later hlater past g => length_whole_le_of_suffix hpre hx hlater) (Nat.zero_le _) []
  refine ⟨found.map fun f => String.ofList f.target, ?_⟩
  rw [callTargets, Probe.findAll, hscan, List.map_append, callTargets_eq]

/-- Nothing is called before a parenthesis is opened. -/
theorem callTargets_append_of_not_mem (hpre : ∀ c ∈ pre.getLast?, isPathChar c = false)
    (hopening : '(' ∉ pre) (hname : IsIdentifier name) :
    callTargets (pre ++ (name ++ rest)) = callTargets (name ++ rest) := by
  obtain ⟨x, more, hmore, hx⟩ := exists_isPathChar hname rest
  have hnone : ∀ a later, a :: later <:+ pre → ∀ past,
      call.matchHere past (a :: later ++ x :: more) = none := by
    intro a later hlater past
    rw [Option.eq_none_iff_forall_ne_some]
    intro f hf
    -- The match would lie within the beginning, but it holds a parenthesis.
    have hlength : f.whole.length ≤ (a :: later).length :=
      length_whole_le_of_suffix hpre hx hlater hf
    obtain ⟨-, gap, -, hwhole, hinput⟩ := matchHere_call_eq_some hf
    have hwithin : f.whole <+: a :: later :=
      List.prefix_of_prefix_length_le ⟨f.rest, hinput.symm⟩ (List.prefix_append _ _) hlength
    apply hopening
    apply hlater.subset
    apply hwithin.subset
    rw [hwhole]
    simp
  rw [callTargets, Probe.findAll, hmore, Probe.matchesAfter_append_of_none hnone, callTargets_eq]

end Scans

/-! ## The lead of a head -/

/-- No parenthesis stands before the name in a head. -/
theorem parenthesis_not_mem_lead (h : (kind, f) ∈ headMatches text.toList) : '(' ∉ f.lead := by
  have hheads : ∀ head ∈ heads, head.2.lead.takes '(' = false := by decide
  obtain ⟨p, hp, hmatch, -⟩ := exists_head h
  obtain ⟨-, hlead, -, -⟩ := Probe.matchHere_eq_some hmatch
  intro hmem
  have htakes := Pattern.takes_of_mem_cuts hlead hmem
  rw [hheads _ hp] at htakes
  exact absurd htakes (by simp)

/-- The name of an arrow function follows whitespace. -/
theorem isClear_of_arrowHead {before : Option Char} {input run rest : List Char}
    (h : (run, rest) ∈ arrowHead.lead.cuts before input) :
    IsClear (Pattern.lastOf before run) := by
  rcases List.eq_nil_or_concat' run with rfl | ⟨run, c, rfl⟩
  · exact absurd (Pattern.nullable_of_mem_cuts h) (by decide)
  · have hend : arrowHead.lead.mayEnd c = isBlank c := by
      simp [arrowHead, Pattern.all, someBlanks, Pattern.plus, Pattern.mayEnd, Pattern.nullable]
    have hblank : isBlank c := hend ▸ Pattern.mayEnd_of_mem_cuts h
    intro b hb
    obtain rfl : c = b := by simpa [Pattern.lastOf] using hb
    exact Or.inl hblank

/-- The name of a head stands clear unless it is glued to the keyword. -/
theorem standsClear_of_not_glued (h : (kind, f) ∈ headMatches text.toList) (hglued : ¬IsGlued f) :
    StandsClear f := by
  by_cases hkind : kind = .declaration ∨ kind = .method
  · exact (standsClear_iff h hkind).mpr hglued
  · obtain ⟨p, hp, hmatch, -⟩ := exists_head h
    obtain ⟨-, hlead, -, -⟩ := Probe.matchHere_eq_some hmatch
    rcases mem_heads_iff.mp hp with ⟨hkind', -⟩ | ⟨-, rfl⟩ | ⟨hkind', -⟩
    · exact absurd (Or.inl hkind') hkind
    · exact isClear_of_arrowHead hlead
    · exact absurd (Or.inr hkind') hkind

/-- A clear place is not inside a path. -/
theorem isPathChar_of_isClear {before : Option Char} (h : IsClear before) :
    ∀ c ∈ before, isPathChar c = false := by
  intro c hc
  rcases h c hc with hblank | rfl
  · exact isPathChar_of_isBlank hblank
  · decide

/-- From a match onward stand its lead, target and tail, and the rest. -/
theorem onward_eq (f : Found Char) : f.onward = f.lead ++ (f.target ++ (f.tail ++ f.rest)) := by
  simp only [Found.onward, Found.whole, List.append_assoc]

/-- The calls from a head on are those from its name on. -/
theorem callTargets_onward (h : (kind, f) ∈ headMatches text.toList) (hglued : ¬IsGlued f) :
    callTargets f.onward = callTargets (f.target ++ (f.tail ++ f.rest)) := by
  rw [onward_eq]
  refine callTargets_append_of_not_mem (fun c hc => ?_) (parenthesis_not_mem_lead h)
    (isIdentifier_of_head h)
  apply isPathChar_of_isClear (standsClear_of_not_glued h hglued)
  rw [Pattern.lastOf, Option.mem_def.mp hc, Option.some_or]
  exact Option.mem_some_self c

/-- What is called from a head on is also called from any place before it. -/
theorem callTargets_subset (hf : (d.kind, f) ∈ headMatches text.toList)
    (hg : (e.kind, g) ∈ headMatches text.toList) (hstart : f.past.length ≤ g.past.length)
    (hglued : ¬IsGlued g) : callTargets g.onward ⊆ callTargets f.onward := by
  obtain ⟨-, -, -, hftext⟩ := exists_head hf
  obtain ⟨-, -, -, hgtext⟩ := exists_head hg
  have htext : f.past.reverse ++ f.onward = g.past.reverse ++ g.onward := hftext.trans hgtext.symm
  rcases Nat.lt_or_eq_of_le hstart with hlt | hsame
  · obtain ⟨mid, honward, hlast⟩ := onward_eq_append htext hlt
    have hclear : ∀ c ∈ (mid ++ g.lead).getLast?, isPathChar c = false := by
      rw [hlast]
      exact isPathChar_of_isClear (standsClear_of_not_glued hg hglued)
    obtain ⟨found, hscan⟩ := exists_callTargets_append hclear (isIdentifier_of_head hg)
      (g.tail ++ g.rest)
    rw [honward, callTargets_onward hg hglued, onward_eq, ← List.append_assoc mid, hscan]
    exact List.subset_append_right found _
  · have hlength : f.past.reverse.length = g.past.reverse.length := by
      simpa using hsame
    rw [(List.append_inj htext hlength).2]
    exact List.Subset.refl _

end Lexical

open Lexical

/-- **A definition calls whatever a later one calls**, but for itself: of two definitions found in a
text, the one whose head begins first, or with the other, calls all that the other calls, unless
that one's name is glued to the `function` keyword. -/
theorem later_calls_are_nested {excluded : List String} {text file : String} {d e : Definition}
    {f g : Found Char} (hd : ExtractedAt excluded text file d f)
    (he : ExtractedAt excluded text file e g) (hstart : f.past.length ≤ g.past.length)
    (hglued : ¬IsGlued g) : ∀ callee ∈ e.calls, callee ∈ d.calls ∨ callee = d.name := by
  intro callee hcallee
  obtain ⟨htarget, hcounts⟩ := he.mem_calls_iff.mp hcallee
  obtain ⟨-, hnameable, hkept⟩ := counts_iff.mp hcounts
  by_cases hself : callee = d.name
  · exact Or.inr hself
  · have hearlier : callee ∈ callTargets f.onward :=
      callTargets_subset hd.found he.found hstart hglued htarget
    exact Or.inl (hd.mem_calls_iff.mpr ⟨hearlier, counts_iff.mpr ⟨hself, hnameable, hkept⟩⟩)

/-- A text in which the keyword of the inner function continues a path. -/
def nestedText : String := "function outer() \x7bgo.function * inner() \x7bouter(); leaf();\x7d\x7d"

/-- The head of the outer function. -/
def headOfOuter : Found Char :=
  ⟨[], "function ".toList, "outer".toList, ['('],
    ") \x7bgo.function * inner() \x7bouter(); leaf();\x7d\x7d".toList⟩

/-- The head of the inner function. -/
def headOfInner : Found Char :=
  ⟨"function outer() \x7bgo.".toList.reverse, "function * ".toList, "inner".toList, ['('],
    ") \x7bouter(); leaf();\x7d\x7d".toList⟩

/-- The definition of the outer function. -/
def outerFunction : Definition := definitionAt [] "nested.js" .declaration headOfOuter

/-- The definition of the inner function. -/
def innerFunction : Definition := definitionAt [] "nested.js" .declaration headOfInner

/-- The calls of the inner function are `leaf` and the outer one, which calls `leaf` too. -/
theorem inner_calls_are_nested :
    innerFunction.calls.toList = ["leaf", "outer"] ∧
      ∀ callee ∈ innerFunction.calls, callee ∈ outerFunction.calls ∨ callee = "outer" := by
  have houter : ExtractedAt [] nestedText "nested.js" outerFunction headOfOuter :=
    ⟨by decide +kernel, by decide +kernel, rfl⟩
  have hinner : ExtractedAt [] nestedText "nested.js" innerFunction headOfInner :=
    ⟨by decide +kernel, by decide +kernel, rfl⟩
  have hglued : ¬IsGlued headOfInner := by
    rw [IsGlued]
    decide
  exact ⟨by decide +kernel,
    later_calls_are_nested houter hinner (by decide +kernel) hglued⟩

end CallAtlas
