import CallAtlas.Proofs.DecidedHeads
import CallAtlas.Proofs.NestedCalls

/-!
# Names as whole identifiers

The name of a definition is an identifier, and what follows it in the text never goes on with it:
whitespace, a parenthesis, a type or an equals sign (`after_name_of_head`).  What stands before it
may.  Between the `function` keyword and the name there need be nothing, so a longer identifier that
begins with the letters of the keyword is read as the keyword and a name.  In every other case the
name is a whole identifier of the text (`name_is_whole_iff_not_glued`).
-/

set_option autoImplicit false

namespace CallAtlas

open Text

namespace Text.Found

variable {α : Type}

/-- The text up to the target of a match. -/
def beforeTarget (f : Found α) : List α := f.past.reverse ++ f.lead

/-- The text behind the target of a match. -/
def afterTarget (f : Found α) : List α := f.tail ++ f.rest

/-- The character before the target ends the lead, or else what was passed. -/
theorem getLast?_beforeTarget (f : Found α) :
    f.beforeTarget.getLast? = Pattern.lastOf f.past.head? f.lead := by
  rw [beforeTarget, List.getLast?_append, List.getLast?_reverse, Pattern.lastOf]

/-- What stands before the target, the target and what stands behind it make up the text. -/
theorem beforeTarget_append (f : Found α) :
    f.beforeTarget ++ (f.target ++ f.afterTarget) = f.past.reverse ++ f.onward := by
  simp only [beforeTarget, afterTarget, onward, whole, List.append_assoc]

end Text.Found

namespace Lexical

variable {text file : String} {excluded : List String} {kind : DefinitionKind} {f : Found Char}
  {d : Definition}

/-- Whether a word between two parts of a text is a whole identifier there: no character of an
identifier stands next to it on either side. -/
structure StandsWhole (before after : List Char) : Prop where
  left : ∀ c ∈ before.getLast?, isIdentifierRest c = false
  right : ∀ c ∈ after.head?, isIdentifierRest c = false

/-- No character of an identifier follows a name. -/
theorem after_name_of_head (h : (kind, f) ∈ headMatches text.toList) :
    ∀ c ∈ f.afterTarget.head?, isIdentifierRest c = false := by
  obtain ⟨p, hp, hmatch, -⟩ := exists_head h
  obtain ⟨-, -, -, htail⟩ := Probe.matchHere_eq_some hmatch
  have hfollows := Pattern.follows_of_mem_cuts htail fun _ _ => rfl
  intro c hc
  have hopen := hfollows c hc
  rcases mem_heads_iff.mp hp with ⟨-, rfl⟩ | ⟨-, rfl⟩ | ⟨-, rfl⟩
  · rcases opens_opening.mp hopen with hblank | rfl
    · exact isIdentifierRest_of_isBlank hblank
    · decide
  · rw [arrowHead_tail_eq, opens_blanks_seq, opens_annotation_seq] at hopen
    rcases hopen with hblank | rfl | hequals
    · exact isIdentifierRest_of_isBlank hblank
    · decide
    · obtain rfl := opens_sym_seq c hequals
      decide
  · rcases opens_blanks_seq.mp hopen with hblank | hparameters
    · exact isIdentifierRest_of_isBlank hblank
    · have hopening : c = '(' := by
        simpa [parameters, Pattern.all, Pattern.opens, Pattern.mayBegin, Pattern.nullable, sym]
          using hparameters
      rw [hopening]
      decide

/-- Before a glued target stands the last letter of the keyword. -/
theorem lastOf_of_isGlued (hglued : IsGlued f) : Pattern.lastOf f.past.head? f.lead = some 'n' := by
  rw [hglued]
  rfl

/-- Only the name of a function can be glued to the keyword. -/
theorem kind_of_isGlued (h : (kind, f) ∈ headMatches text.toList) (hglued : IsGlued f) :
    kind = .declaration := by
  have hnotClear : ¬StandsClear f := by
    intro hclear
    have hlast := hclear 'n' (lastOf_of_isGlued hglued)
    revert hlast
    decide
  obtain ⟨p, hp, hmatch, -⟩ := exists_head h
  obtain ⟨-, hlead, -, -⟩ := Probe.matchHere_eq_some hmatch
  rcases mem_heads_iff.mp hp with ⟨hkind, -⟩ | ⟨-, rfl⟩ | ⟨-, rfl⟩
  · exact hkind
  · exact absurd (isClear_of_arrowHead hlead) hnotClear
  · exact absurd (isClear_of_methodHead hlead) hnotClear

/-- No character of an identifier stands before a name unless the name is glued to the keyword. -/
theorem before_name_iff (h : (kind, f) ∈ headMatches text.toList) :
    (∀ c ∈ f.beforeTarget.getLast?, isIdentifierRest c = false) ↔ ¬IsGlued f := by
  rw [Found.getLast?_beforeTarget]
  constructor
  · intro hleft hglued
    have hlast := hleft 'n' (lastOf_of_isGlued hglued)
    revert hlast
    decide
  · intro hglued c hc
    rcases standsClear_of_not_glued h hglued c hc with hblank | rfl
    · exact isIdentifierRest_of_isBlank hblank
    · decide

end Lexical

open Lexical

/-- **The name of a definition is a whole identifier of the text exactly if it is not glued to the
`function` keyword**, which only the name of a function can be.  What follows the name never belongs
to it. -/
theorem name_is_whole_iff_not_glued {excluded : List String} {text file : String} {d : Definition}
    {f : Found Char} (hd : ExtractedAt excluded text file d f) :
    text.toList = f.beforeTarget ++ (d.name.toList ++ f.afterTarget) ∧
      (∀ c ∈ f.afterTarget.head?, isIdentifierRest c = false) ∧
      (StandsWhole f.beforeTarget f.afterTarget ↔ ¬IsGlued f) ∧
      (IsGlued f → d.kind = .declaration) := by
  have hafter := after_name_of_head hd.found
  refine ⟨?_, hafter, ?_, kind_of_isGlued hd.found⟩
  · obtain ⟨-, -, -, htext⟩ := exists_head hd.found
    rw [hd.name_eq, String.toList_ofList, Found.beforeTarget_append, htext]
  · rw [← before_name_iff hd.found]
    exact ⟨fun hwhole => hwhole.left, fun hleft => ⟨hleft, hafter⟩⟩

/-- The head of a function whose name follows a star and stands before a space. -/
def headOfWalk : Found Char :=
  ⟨[], "function*".toList, "walk".toList, " (".toList, "node) \x7b\x7d".toList⟩

/-- The name behind `function*` stands whole. -/
theorem name_of_walk_is_whole :
    "walk" ∈ (Lexical.extract [] "function*walk (node) \x7b\x7d" "walk.js").map (·.name) ∧
      StandsWhole headOfWalk.beforeTarget headOfWalk.afterTarget := by
  have hwalk : ExtractedAt [] "function*walk (node) \x7b\x7d" "walk.js"
      (definitionAt [] "walk.js" .declaration headOfWalk) headOfWalk :=
    ⟨by decide +kernel, by decide +kernel, rfl⟩
  have hglued : ¬IsGlued headOfWalk := by
    rw [IsGlued]
    decide
  exact ⟨by decide +kernel, (name_is_whole_iff_not_glued hwalk).2.2.1.mpr hglued⟩

/-- The head that is read where `functional` is called. -/
def headInFunctional : Found Char :=
  ⟨[], "function".toList, "al".toList, ['('], "x)".toList⟩

/-- The call of a function whose name begins like the keyword is read as a definition, and the name
is not a whole identifier. -/
theorem call_of_functional_defines_al :
    (Lexical.extract [] "functional(x)" "a.js").map (·.name) = ["al"] ∧
      ExtractedAt [] "functional(x)" "a.js"
        (definitionAt [] "a.js" .declaration headInFunctional) headInFunctional ∧
      ¬StandsWhole headInFunctional.beforeTarget headInFunctional.afterTarget := by
  refine ⟨by decide +kernel, ⟨by decide +kernel, by decide +kernel, rfl⟩, fun hwhole => ?_⟩
  have hlast : isIdentifierRest 'n' = false := hwhole.left 'n' (by decide)
  revert hlast
  decide

end CallAtlas
