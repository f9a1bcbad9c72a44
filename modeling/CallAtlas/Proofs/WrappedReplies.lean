import CallAtlas.Proofs.DiagramOpening

/-!
# Wrapped replies

A reply may bring a text in nothing but blanks, or in a code fence with blanks around it (`Wraps`).
If the text is trimmed and opens in the grammar, it is found again without a change, even where it
has fences of its own: a text that opens cannot begin with a fence (`Grammar.not_opens_of_fence`),
and no more than one fence is dropped at the end.

Both kinds of drawn diagrams are trimmed, whatever names they hold, since their first and last lines
hold none (`Analysis.trim_rendered`).  So a reviser that only wraps what it is given revises
nothing.
-/

set_option autoImplicit false

namespace CallAtlas

open Text

variable {g : Grammar} {text reply : List Char}

namespace Grammar

/-- A text that begins with a fence opens in no grammar. -/
theorem not_opens_of_fence (h : Revision.fence <+: text) : ¬g.opens text := by
  obtain ⟨rest, rfl⟩ := h
  have hline : ∀ more, '\n' ∉ more →
      firstLine? (Revision.fence ++ more) = some (Revision.fence ++ trimEnd more) := by
    intro more hmore
    have htrim : trim (Revision.fence ++ more) = Revision.fence ++ trimEnd more :=
      trim_word_append (by decide) Revision.isBlank_of_mem_fence more
    rw [firstLine?_eq, splitAt_of_not_mem (by simp [hmore, Revision.fence]), List.map_singleton,
      htrim]
    rfl
  have hfirst : ∃ more, firstLine? (Revision.fence ++ rest) = some (Revision.fence ++ more) := by
    by_cases hnewline : '\n' ∈ rest
    · obtain ⟨more, later, rfl, hmore⟩ := List.eq_append_cons_of_mem hnewline
      refine ⟨trimEnd more, ?_⟩
      rw [← List.append_assoc, firstLine?_append_newline, hline more hmore, Option.some_or]
    · exact ⟨trimEnd rest, hline rest hnewline⟩
  obtain ⟨more, hmore⟩ := hfirst
  rw [opens, hmore]
  cases g <;> simp [opensLine, Revision.fence]

end Grammar

namespace Revision

/-- A reply wraps a text when it has nothing else but blanks and one code fence around it. -/
inductive Wraps (text : List Char) : List Char → Prop where
  /-- The text between blanks. -/
  | bare {before after : List Char} (hbefore : ∀ c ∈ before, isBlank c)
      (hafter : ∀ c ∈ after, isBlank c) : Wraps text (before ++ text ++ after)
  /-- The text in a fence between blanks; on the first line something may stand beside the fence. -/
  | fenced {before info after : List Char} (hbefore : ∀ c ∈ before, isBlank c)
      (hafter : ∀ c ∈ after, isBlank c) (hinfo : '\n' ∉ info) :
      Wraps text (before ++ (fence ++ info ++ '\n' :: text ++ '\n' :: fence) ++ after)

/-- A reply that wraps a text frames that text. -/
theorem frames_of_wraps (htrim : trim text = text) (hopens : g.opens text)
    (h : Wraps text reply) : Frames (trim reply) text := by
  cases h with
  | bare hbefore hafter =>
    rw [trim_append_blank hafter, trim_append_of_blank hbefore, htrim]
    exact Frames.bare fun hfence => Grammar.not_opens_of_fence hfence hopens
  | @fenced before info after hbefore hafter hinfo =>
    have hcore : trim (fence ++ info ++ '\n' :: text ++ '\n' :: fence) =
        fence ++ (info ++ '\n' :: ((text ++ ['\n']) ++ fence)) := by
      have hends : trim (fence ++ (info ++ '\n' :: text ++ ['\n']) ++ fence) =
          fence ++ (info ++ '\n' :: text ++ ['\n']) ++ fence :=
        trim_append_append (by decide) (by decide) _
      simpa using hends
    have hbody : trim (text ++ ['\n']) = text := by
      rw [trim_append_newline, htrim]
    have hframes : Frames (fence ++ (info ++ '\n' :: ((text ++ ['\n']) ++ fence)))
        (trim (text ++ ['\n'])) := Frames.closed hinfo
    rw [hbody] at hframes
    rwa [trim_append_blank hafter, trim_append_of_blank hbefore, hcore]

/-- A trimmed document of the grammar is taken over from any reply that only wraps it. -/
theorem accept_of_wraps (htrim : trim text = text) (hopens : g.opens text) (h : Wraps text reply)
    (drawn : List Char) : accept drawn reply g = text := by
  have htext : unfenced reply = text := frames_iff.mp (frames_of_wraps htrim hopens h)
  simp only [accept, htext, hopens, if_true]

end Revision

/-! ## Drawn diagrams -/

/-- A document is trimmed if its first line does not begin with a blank, and its last line does not
end in one. -/
theorem DiagramDocument.trim_text {doc : DiagramDocument} {first last : String}
    {inner : List String} (h : doc.lines = first :: inner ++ [last])
    (hfirst : first.toList.dropWhile isBlank = first.toList)
    (hfirst' : first.toList ≠ []) (hlast : trimEnd last.toList = last.toList)
    (hlast' : last.toList ≠ []) : trim doc.text.toList = doc.text.toList := by
  have hbegins :
      ∃ rest, joinWith '\n' ((first :: inner).map String.toList) = first.toList ++ rest := by
    cases inner with
    | nil => exact ⟨[], (List.append_nil _).symm⟩
    | cons line inner => exact ⟨_, rfl⟩
  obtain ⟨rest, hrest⟩ := hbegins
  have hends : doc.text.toList = first.toList ++ (rest ++ ['\n']) ++ last.toList := by
    rw [doc.toList_text, h, List.map_append, joinWith_append (by simp) (by simp), hrest]
    simp [joinWith]
  rw [hends, trim_append_append (by rwa [hfirst]) (by rwa [hlast]), hfirst, hlast]

/-- A reviser that answers every diagram with that diagram, wrapped in some way. -/
def Reviser.OnlyWraps (reviser : Reviser) : Prop :=
  ∀ drawn g, ∃ reply, reviser drawn g = some reply ∧ Revision.Wraps drawn.toList reply.toList

namespace Analysis

/-- A drawn diagram is trimmed, whatever names it holds. -/
theorem trim_rendered (settings : Settings) (defs : List Definition) :
    trim (rendered settings defs).toList = (rendered settings defs).toList := by
  rw [rendered]
  cases settings.grammar with
  | graph =>
    have hlast : trimEnd Flowchart.linkLine.toList = Flowchart.linkLine.toList := by decide
    exact DiagramDocument.trim_text rfl (by decide) (by decide) hlast (by decide)
  | component =>
    have hlast : trimEnd ComponentDiagram.endMarker.toList = ComponentDiagram.endMarker.toList := by
      decide
    exact DiagramDocument.trim_text rfl (by decide) (by decide) hlast (by decide)

/-- A reviser that only wraps leaves the diagram as it is. -/
theorem revised_of_onlyWraps {reviser : Reviser} (h : reviser.OnlyWraps) (settings : Settings)
    (defs : List Definition) :
    revised reviser settings.grammar (rendered settings defs) = rendered settings defs := by
  obtain ⟨reply, hreply, hwraps⟩ := h (rendered settings defs) settings.grammar
  have haccept := Revision.accept_of_wraps (trim_rendered settings defs)
    (opens_rendered settings defs) hwraps (rendered settings defs).toList
  rw [revised, hreply]
  simp only [haccept, String.ofList_toList]

/-- **Wrapping a text does not change it.**  A trimmed text that opens in the grammar is accepted as
it is from every reply that wraps it, whatever was drawn.  So an analysis whose reviser only wraps
the drawn diagram is the plain analysis, and its diagram is not marked as a revised one. -/
theorem wrapped_text_is_taken_back :
    (∀ (g : Grammar) (drawn text reply : List Char), trim text = text → g.opens text →
      Revision.Wraps text reply → Revision.accept drawn reply g = text) ∧
    ∀ (settings : Settings) (reviser : Reviser) (sources : List SourceFile), reviser.OnlyWraps →
      ofSources settings reviser sources = ofSources settings .silent sources ∧
        ∀ result, ofSources settings reviser sources = .ok result →
          result.summary.enhanced = false := by
  refine ⟨fun g drawn text reply htrim hopens hwraps =>
    Revision.accept_of_wraps htrim hopens hwraps drawn, ?_⟩
  intro settings reviser sources honly
  by_cases hdefs : definitions settings sources = []
  · rw [ofSources_of_eq_nil hdefs reviser, ofSources_of_eq_nil hdefs .silent]
    exact ⟨rfl, fun result hresult => absurd hresult (by simp)⟩
  · have hrevision := revisionOf_ofDefinitions settings reviser (sources.map (·.path))
      (definitions settings sources)
    have hunmarked : (ofDefinitions settings reviser (sources.map (·.path))
        (definitions settings sources)).summary.enhanced = false := by
      rw [← Bool.not_eq_true, marked_iff_ne, not_not]
      exact revised_of_onlyWraps honly settings _
    rw [ofSources_of_ne_nil hdefs reviser, ofSources_of_ne_nil hdefs .silent]
    refine ⟨congrArg _ (hrevision.eq_of_unmarked hunmarked), fun result hresult => ?_⟩
    rwa [← Except.ok.inj hresult]

/-- A reviser that answers with the diagram in a fence for flowcharts. -/
def fencing : Reviser := fun drawn _ => some ("\n```mermaid\n" ++ drawn ++ "\n```\n")

/-- Fencing a diagram only wraps it. -/
theorem fencing_onlyWraps : fencing.OnlyWraps := by
  intro drawn g
  refine ⟨_, rfl, ?_⟩
  have hreply : ("\n```mermaid\n" ++ drawn ++ "\n```\n").toList = ['\n'] ++ (Revision.fence ++
      "mermaid".toList ++ '\n' :: drawn.toList ++ '\n' :: Revision.fence) ++ ['\n'] := by
    rw [String.toList_append, String.toList_append]
    simp [Revision.fence]
  rw [hreply]
  have hblank : ∀ c ∈ ['\n'], isBlank c := List.forall_mem_singleton.mpr (by decide)
  exact Revision.Wraps.fenced hblank hblank (by decide)

/-- A script with one function. -/
def greeting : List SourceFile :=
  [⟨"app.js", "function greet() \x7b\x7d", .javascript⟩]

/-- The fenced diagram of a script is the plain one again, and so is a text that ends in a fence. -/
theorem fencing_leaves_greeting_alone :
    fencing.OnlyWraps ∧
      ofSources { grammar := .component } fencing greeting =
        ofSources { grammar := .component } .silent greeting ∧
      (∃ result, ofSources { grammar := .component } fencing greeting = .ok result ∧
        result.summary.enhanced = false) ∧
      Revision.accept "graph TD".toList "```\ngraph LR\n  A```\n```".toList .graph =
        "graph LR\n  A```".toList := by
  obtain ⟨haccept, hanalysis⟩ := wrapped_text_is_taken_back
  obtain ⟨hsame, hunmarked⟩ :=
    hanalysis { grammar := .component } fencing greeting fencing_onlyWraps
  have hok : ∃ result, ofSources { grammar := .component } fencing greeting = .ok result := by
    refine ⟨_, ofSources_of_ne_nil ?_ fencing⟩
    decide
  obtain ⟨result, hresult⟩ := hok
  have hwraps : Revision.Wraps "graph LR\n  A```".toList ([] ++ (Revision.fence ++ [] ++
      '\n' :: "graph LR\n  A```".toList ++ '\n' :: Revision.fence) ++ []) :=
    Revision.Wraps.fenced (List.forall_mem_nil _) (List.forall_mem_nil _) (by decide)
  exact ⟨fencing_onlyWraps, hsame, ⟨result, hresult, hunmarked result hresult⟩,
    haccept .graph _ _ _ (by decide) (by decide) hwraps⟩

end Analysis

end CallAtlas
