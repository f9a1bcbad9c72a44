import CallAtlas.Proofs.RevisedAnalysis
import CallAtlas.Proofs.TidyLines

/-!
# How diagrams open

A text opens in a grammar when the first of its lines that is not blank does
(`Grammar.opens_iff`).  Tidying works on the same lines: it leaves blank lines blank and the
opening word of a line in its place, so a text that opens in a grammar still does when it is tidy
(`Grammar.opens_tidy`).  A drawn diagram begins with the marker of its grammar, and a revised one
has been looked at before it is accepted; so every analysis ends in a diagram that opens.
-/

set_option autoImplicit false

namespace CallAtlas

open Text

/-! ## Opening lines -/

namespace Grammar

/-- The first line that is not blank may be looked for among the parts between the newlines. -/
theorem firstLine?_eq (text : List Char) :
    firstLine? text = ((splitAt '\n' text).map trim).find? fun line => !line.isEmpty := by
  have hne := splitAt_ne_nil '\n' text
  have hlines : (lines text).map trim = ((splitAt '\n' text).dropLast).map trim ++
      ([(splitAt '\n' text).getLast hne].filter fun line => !line.isEmpty).map trim := by
    have hreturn : (fun line => trim (dropReturn line)) = trim := funext trim_dropReturn
    rw [lines, List.getLast?_eq_getLast_of_ne_nil hne, List.map_append, List.map_map]
    simp only [Function.comp_def, hreturn, Option.toList_some]
  conv_rhs => rw [← List.dropLast_concat_getLast hne, List.map_append, List.find?_append]
  rw [firstLine?, hlines, List.find?_append]
  congr 1
  cases hlast : (splitAt '\n' text).getLast hne with
  | nil => rfl
  | cons c line => rfl

/-- A text opens in a grammar when a line does that has only blank lines before it. -/
theorem opens_iff {g : Grammar} {text : List Char} :
    g.opens text ↔ ∃ before line after, splitAt '\n' text = before ++ line :: after ∧
      (∀ l ∈ before, trim l = []) ∧ g.opensLine (trim line) := by
  constructor
  · intro h
    rw [opens, firstLine?_eq] at h
    split at h
    · rename_i first hfirst
      obtain ⟨-, before, after, hsplit, hblank⟩ := List.find?_eq_some_iff_append.mp hfirst
      obtain ⟨parts, later, hparts, rfl, hlater⟩ := List.map_eq_append_iff.mp hsplit
      obtain ⟨line, rest, rfl, rfl, -⟩ := List.map_eq_cons_iff.mp hlater
      refine ⟨parts, line, rest, hparts, fun l hl => ?_, h⟩
      simpa using hblank (trim l) (List.mem_map_of_mem hl)
    · exact absurd h (by decide)
  · rintro ⟨before, line, after, hsplit, hblank, hopens⟩
    have hfirst : firstLine? text = some (trim line) := by
      rw [firstLine?_eq, hsplit, List.map_append, List.map_cons, List.find?_eq_some_iff_append]
      refine ⟨?_, before.map trim, after.map trim, rfl, ?_⟩
      · cases htrim : trim line with
        | nil =>
          rw [htrim] at hopens
          cases g <;> exact absurd hopens (by decide)
        | cons c cs => rfl
      · intro blank hmem
        obtain ⟨l, hl, rfl⟩ := List.mem_map.mp hmem
        simp [hblank l hl]
    rw [opens, hfirst]
    exact hopens

/-! ### Texts in parts -/

section Parts

variable {g : Grammar} {first second lead tail : List Char}

/-- The first line of two texts is that of the first, or else that of the second. -/
theorem firstLine?_append_newline (first second : List Char) :
    firstLine? (first ++ '\n' :: second) = (firstLine? first).or (firstLine? second) := by
  rw [firstLine?_eq, splitAt_append_cons, List.map_append, List.find?_append, ← firstLine?_eq,
    ← firstLine?_eq]

/-- Blanks before a text, newlines among them, do not change its first line. -/
theorem firstLine?_append_of_blank (h : ∀ c ∈ lead, isBlank c) (text : List Char) :
    firstLine? (lead ++ text) = firstLine? text := by
  induction lead with
  | nil => rfl
  | cons c lead ih =>
    rw [← ih fun d hd => h d (List.mem_cons_of_mem c hd)]
    by_cases hc : c = '\n'
    · rw [hc, List.cons_append, ← List.nil_append ('\n' :: (lead ++ text)),
        firstLine?_append_newline]
      rfl
    · obtain ⟨part, parts, hparts, hsplit⟩ := splitAt_cons_of_ne hc (lead ++ text)
      have htrim : trim (c :: part) = trim part := by
        rw [← List.singleton_append]
        exact trim_append_of_blank (by simpa using h c List.mem_cons_self) part
      rw [List.cons_append, firstLine?_eq, hsplit, firstLine?_eq, hparts, List.map_cons, htrim,
        List.map_cons]

/-- Blanks at the end make no difference to the first line. -/
theorem firstLine?_append_blank (h : ∀ c ∈ tail, isBlank c) (text : List Char) :
    firstLine? (text ++ tail) = firstLine? text := by
  induction tail generalizing text with
  | nil => rw [List.append_nil]
  | cons c tail ih =>
    have htail : ∀ d ∈ tail, isBlank d := fun d hd => h d (List.mem_cons_of_mem c hd)
    by_cases hc : c = '\n'
    · have hnone : firstLine? tail = none := by
        rw [← List.append_nil tail, firstLine?_append_of_blank htail]
        rfl
      rw [hc, firstLine?_append_newline, hnone, Option.or_none]
    · have hlast : firstLine? (text ++ [c]) = firstLine? text := by
        obtain ⟨parts, last, htext, hsplit⟩ := splitAt_append_of_not_mem
          (List.not_mem_cons_of_ne_of_not_mem (Ne.symm hc) List.not_mem_nil) text
        have htrim : trim (last ++ [c]) = trim last :=
          trim_append_blank (by simpa using h c List.mem_cons_self) last
        rw [firstLine?_eq, hsplit, firstLine?_eq, htext, List.map_append, List.map_append,
          List.map_singleton, List.map_singleton, htrim]
      rw [List.append_cons, ih htail, hlast]

/-- Whether a text opens in a grammar does not depend on the blanks around it. -/
theorem opens_trim (g : Grammar) (text : List Char) : g.opens (trim text) = g.opens text := by
  obtain ⟨lead, tail, htext, hlead, htail⟩ := exists_trim text
  have hfirst : firstLine? text = firstLine? (trim text) := by
    conv_lhs => rw [htext, firstLine?_append_blank htail, firstLine?_append_of_blank hlead]
  rw [opens, opens, hfirst]

/-- What follows a text on further lines has no say if it does not open by itself. -/
theorem opens_append_newline (h : ¬g.opens second) :
    g.opens (first ++ '\n' :: second) ↔ g.opens first := by
  rw [opens, firstLine?_append_newline]
  cases hfirst : firstLine? first with
  | none =>
    have hnot : ¬g.opens first := by simp [opens, hfirst]
    rw [Option.none_or, ← opens]
    exact iff_of_false h hnot
  | some line => rw [Option.some_or, opens, hfirst]

end Parts

end Grammar

/-! ## Opening words -/

namespace Tidy

/-- Whether a word is neither rewritten nor trimmed. -/
def isFixedWord (word : List Char) : Bool :=
  !word.isEmpty && word.all fun c => isInert c && !isBlank c

/-- A fixed word is not empty, and its characters are inert and not blank. -/
theorem isFixedWord_iff {word : List Char} :
    isFixedWord word ↔ word ≠ [] ∧ ∀ c ∈ word, isInert c ∧ isBlank c = false := by
  simp [isFixedWord]

section Word

variable {word line : List Char} (hword : isFixedWord word)

include hword

/-- Blanks and a fixed word behind them are inert. -/
theorem isInert_of_mem_append_word {lead : List Char} (hlead : ∀ c ∈ lead, isBlank c) :
    ∀ c ∈ lead ++ word, isInert c := by
  intro c hc
  rcases List.mem_append.mp hc with hc | hc
  · exact isInert_of_isBlank (hlead c hc)
  · exact ((isFixedWord_iff.mp hword).2 c hc).1

/-- What ends in a fixed word ends in no space or tab. -/
theorem isSpaceOrTab_getLast?_append_word (lead : List Char) :
    ∀ c ∈ (lead ++ word).getLast?, isSpaceOrTab c = false := by
  obtain ⟨hne, hfixed⟩ := isFixedWord_iff.mp hword
  intro c hc
  rw [List.getLast?_append_of_ne_nil lead hne] at hc
  have hblank := (hfixed c (List.mem_of_getLast? hc)).2
  by_contra hspace
  rw [Bool.not_eq_false, isSpaceOrTab, Bool.or_eq_true, beq_iff_eq, beq_iff_eq] at hspace
  rcases hspace with rfl | rfl
  · exact absurd hblank (by decide)
  · exact absurd hblank (by decide)

/-- Blanks before the word and what else is trimmed leave the word in front. -/
theorem trim_append_word {lead : List Char} (hlead : ∀ c ∈ lead, isBlank c) (rest : List Char) :
    trim (lead ++ word ++ rest) = word ++ trimEnd rest := by
  obtain ⟨hne, hfixed⟩ := isFixedWord_iff.mp hword
  rw [List.append_assoc, trim_append_of_blank hlead]
  exact trim_word_append hne (fun c hc => (hfixed c hc).2) rest

/-- Tidying keeps the word that a line begins with. -/
theorem trim_tidyLine_word {more : List Char} (h : trim line = word ++ more) :
    ∃ more', trim (tidyLine line) = word ++ more' := by
  obtain ⟨lead, tail, hline, hlead, -⟩ := exists_trim line
  obtain ⟨rest, htidy⟩ := tidyLine_append (isInert_of_mem_append_word hword hlead)
    (isSpaceOrTab_getLast?_append_word hword lead) (more ++ tail)
  have hsplit : line = lead ++ word ++ (more ++ tail) := by
    rw [hline, h]
    simp
  refine ⟨trimEnd rest, ?_⟩
  rw [hsplit, htidy, trim_append_word hword hlead]

/-- A space after the word stays too, unless nothing is left after it. -/
theorem trim_tidyLine_word_space {more : List Char} (h : trim line = word ++ ' ' :: more) :
    trim (tidyLine line) = word ∨ ∃ more', trim (tidyLine line) = word ++ ' ' :: more' := by
  obtain ⟨lead, tail, hline, hlead, -⟩ := exists_trim line
  obtain ⟨rest, htidy⟩ := tidyLine_append_space (isInert_of_mem_append_word hword hlead)
    (isSpaceOrTab_getLast?_append_word hword lead) (more ++ tail)
  have hsplit : line = lead ++ word ++ ' ' :: (more ++ tail) := by
    rw [hline, h]
    simp
  have htrim : trim (tidyLine line) = word ++ trimEnd (' ' :: rest) := by
    rw [hsplit, htidy, trim_append_word hword hlead]
  obtain ⟨dropped, hdropped, -⟩ := exists_trimEnd (' ' :: rest)
  cases hkept : trimEnd (' ' :: rest) with
  | nil => exact Or.inl (by rw [htrim, hkept, List.append_nil])
  | cons c more' =>
    rw [hkept, List.cons_append] at hdropped
    obtain ⟨rfl, -⟩ := List.cons.inj hdropped
    exact Or.inr ⟨more', by rw [htrim, hkept]⟩

/-- A line of the word alone is tidy. -/
theorem tidyLine_of_trim_eq_word (h : trim line = word) : tidyLine line = line := by
  obtain ⟨lead, tail, hline, hlead, htail⟩ := exists_trim line
  refine tidyLine_of_inert fun c hc => ?_
  rw [hline, h, List.mem_append] at hc
  rcases hc with hc | hc
  · exact isInert_of_mem_append_word hword hlead c hc
  · exact isInert_of_isBlank (htail c hc)

end Word

/-- A blank line stays blank. -/
theorem trim_tidyLine_of_blank {line : List Char} (h : trim line = []) :
    trim (tidyLine line) = [] := by
  have hinert : ∀ c ∈ line, isInert c := fun c hc => isInert_of_isBlank (trim_eq_nil_iff.mp h c hc)
  rw [tidyLine_of_inert hinert, h]

end Tidy

namespace Grammar

/-- A line that opens in a grammar does so when it is tidy. -/
theorem opensLine_tidyLine {g : Grammar} {line : List Char} (h : g.opensLine (trim line)) :
    g.opensLine (trim (Tidy.tidyLine line)) := by
  cases g with
  | graph =>
    rw [opensLine, Bool.or_eq_true, Bool.or_eq_true, beq_iff_eq] at h
    rcases h with (hword | hspace) | hflowchart
    · rw [Tidy.tidyLine_of_trim_eq_word (by decide) hword, hword]
      decide
    -- What follows the space may be an arrow, which moves the blanks around it.
    · obtain ⟨more, hmore⟩ := List.isPrefixOf_iff_prefix.mp hspace
      have hword : trim line = "graph".toList ++ ' ' :: more := hmore.symm
      rcases Tidy.trim_tidyLine_word_space (by decide) hword with hbare | ⟨more', hkept⟩
      · rw [hbare]
        decide
      · rw [hkept]
        rfl
    · obtain ⟨more, hmore⟩ := List.isPrefixOf_iff_prefix.mp hflowchart
      obtain ⟨more', hkept⟩ := Tidy.trim_tidyLine_word (by decide) hmore.symm
      rw [hkept]
      rfl
  | component =>
    obtain ⟨more, hmore⟩ := List.isPrefixOf_iff_prefix.mp h
    obtain ⟨more', hkept⟩ := Tidy.trim_tidyLine_word (by decide) hmore.symm
    rw [hkept]
    rfl

/-- A text that opens in a grammar does so when it is tidy. -/
theorem opens_tidy {g : Grammar} {text : List Char} (h : g.opens text) :
    g.opens (Tidy.tidy text) := by
  obtain ⟨before, line, after, hsplit, hblank, hopens⟩ := opens_iff.mp h
  refine opens_iff.mpr ⟨before.map Tidy.tidyLine, Tidy.tidyLine line, after.map Tidy.tidyLine,
    ?_, ?_, opensLine_tidyLine hopens⟩
  · rw [Tidy.splitAt_tidy, hsplit, List.map_append, List.map_cons]
  · intro tidied hmem
    obtain ⟨l, hl, rfl⟩ := List.mem_map.mp hmem
    exact Tidy.trim_tidyLine_of_blank (hblank l hl)

end Grammar

/-! ## Drawn and revised diagrams -/

/-- The text of a document is its lines joined with newlines. -/
theorem DiagramDocument.toList_text (doc : DiagramDocument) :
    doc.text.toList = joinWith '\n' (doc.lines.map String.toList) := by
  rw [DiagramDocument.text, String.toList_intercalate, joinWith_eq_intercalate]
  rfl

/-- A document whose first line is the marker of a grammar opens in it. -/
theorem DiagramDocument.opens_text {doc : DiagramDocument} {g : Grammar}
    (h : doc.lines.head? = some g.marker) : g.opens doc.text.toList := by
  obtain ⟨later, hlines⟩ := List.head?_eq_some_iff.mp h
  have hmarker : splitAt '\n' g.marker.toList = [g.marker.toList] :=
    splitAt_of_not_mem (by cases g <;> decide)
  have hopens : g.opensLine (trim g.marker.toList) := by cases g <;> decide
  rw [DiagramDocument.text, hlines, String.toList_intercalate, List.map_cons]
  refine Grammar.opens_iff.mpr ?_
  cases later with
  | nil => exact ⟨[], g.marker.toList, [], by simpa using hmarker, by simp, hopens⟩
  | cons line later =>
    refine ⟨[], g.marker.toList, splitAt '\n' (("\n".toList).intercalate
      ((line :: later).map String.toList)), ?_, by simp, hopens⟩
    rw [List.map_cons, List.intercalate_cons_cons, List.nil_append]
    have hcut := splitAt_append_cons '\n' g.marker.toList
      (("\n".toList).intercalate (line.toList :: later.map String.toList))
    rw [hmarker, List.singleton_append] at hcut
    simpa using hcut

namespace Analysis

/-- The drawn diagram opens in the grammar of the settings. -/
theorem opens_rendered (settings : Settings) (defs : List Definition) :
    settings.grammar.opens (rendered settings defs).toList := by
  refine DiagramDocument.opens_text ?_
  cases settings.grammar with
  | graph => rfl
  | component => rfl

/-- Whatever the reviser answers, the diagram still opens. -/
theorem opens_revised {reviser : Reviser} {g : Grammar} {drawn : String}
    (h : g.opens drawn.toList) : g.opens (revised reviser g drawn).toList := by
  by_cases hsame : revised reviser g drawn = drawn
  · rwa [hsame]
  · exact (offers_of_revised_ne hsame).opens

/-- **The diagram of every analysis opens in its grammar**, whatever the files are, whatever the
settings, and whether the reviser is silent or answers with any text at all. -/
theorem diagram_opens_in_grammar {settings : Settings} {reviser : Reviser}
    {sources : List SourceFile} {result : Analysis}
    (h : ofSources settings reviser sources = .ok result) :
    result.grammar = settings.grammar ∧ result.grammar.opens result.diagram.toList := by
  rw [ofSources] at h
  split at h
  · exact absurd h (by simp)
  · obtain rfl := Except.ok.inj h
    refine ⟨rfl, ?_⟩
    have hdrawn := opens_rendered settings (definitions settings sources)
    have hchosen : settings.grammar.opens (revised reviser settings.grammar
        (rendered settings (definitions settings sources))).toList := opens_revised hdrawn
    have htidy := Grammar.opens_tidy hchosen
    simpa [ofDefinitions] using htidy

/-- A script with one function. -/
def oneFunction : List SourceFile :=
  [⟨"app.js", "function f() \x7b\x7d", .javascript⟩]

/-- A reviser that answers with a fenced flowchart of its own. -/
def fencedReply : Reviser := fun _ _ =>
  some "```mermaid\n\n  flowchart LR\n    A-->B\n```\n"

/-- The revised diagram is taken over without its fence, and opens when its arrow is spaced. -/
theorem fenced_reply_opens :
    ∃ result, ofSources { grammar := .graph } fencedReply oneFunction = .ok result ∧
      result.diagram = "flowchart LR\n    A --> B" ∧
      result.grammar = .graph ∧ result.grammar.opens result.diagram.toList := by
  have hfound : (definitions { grammar := .graph } oneFunction).isEmpty = false := by decide
  have hok : ofSources { grammar := .graph } fencedReply oneFunction =
      .ok (ofDefinitions { grammar := .graph } fencedReply (oneFunction.map (·.path))
        (definitions { grammar := .graph } oneFunction)) := by
    rw [ofSources, hfound]
    rfl
  obtain ⟨hgrammar, hopens⟩ := diagram_opens_in_grammar hok
  exact ⟨_, hok, by decide, hgrammar, hopens⟩

end Analysis

end CallAtlas
