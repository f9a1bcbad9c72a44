import CallAtlas.Analysis
import CallAtlas.Proofs.FencedReplies

/-!
# What a reviser can change

Two analyses of the same files are compared, one with a reviser and one without.  The reviser has
no say in anything but the diagram and the mark that it was revised
(`reviser_changes_only_the_drawing`), and it changes the diagram only by offering a text of the
same grammar that is not the drawn one.

The mark is set by comparing texts and not by what became of the reply, so a reply that is accepted
but brings back the drawn diagram counts as no revision.  `revised_of_offers` and
`offers_of_revised_ne` settle which text is chosen.
-/

set_option autoImplicit false

namespace CallAtlas

/-- A reviser offers a text in place of a drawn diagram: it replies, its reply without the blanks
and the fence around it is that text, the text opens in the grammar, and it is a different one. -/
structure Reviser.Offers (reviser : Reviser) (g : Grammar) (drawn text : String) : Prop where
  /-- The reply frames the text. -/
  frames : ∃ reply, reviser drawn g = some reply ∧
    Revision.Frames (Text.trim reply.toList) text.toList
  /-- The text is a document of the grammar. -/
  opens : g.opens text.toList
  /-- The text is not the one that was drawn. -/
  ne_drawn : text ≠ drawn

namespace Analysis

variable {reviser : Reviser} {g : Grammar} {drawn : String}

/-- The text that is chosen when the reviser replies. -/
theorem revised_of_reply {reply : String} (h : reviser drawn g = some reply) :
    revised reviser g drawn =
      if g.opens (Revision.unfenced reply.toList) then
        String.ofList (Revision.unfenced reply.toList)
      else drawn := by
  rw [revised, h]
  simp only [Revision.accept]
  split
  · rfl
  · exact String.ofList_toList

/-- The text that a reviser offers is what becomes of the diagram. -/
theorem revised_of_offers {text : String} (h : reviser.Offers g drawn text) :
    revised reviser g drawn = text := by
  obtain ⟨reply, hreply, hframes⟩ := h.frames
  have htext : Revision.unfenced reply.toList = text.toList := Revision.frames_iff.mp hframes
  rw [revised_of_reply hreply, htext, if_pos h.opens, String.ofList_toList]

/-- The chosen text is the drawn one unless another was offered. -/
theorem offers_of_revised_ne (h : revised reviser g drawn ≠ drawn) :
    reviser.Offers g drawn (revised reviser g drawn) := by
  cases hreply : reviser drawn g with
  | none => exact absurd (by rw [revised, hreply]) h
  | some reply =>
    have hchosen := revised_of_reply hreply
    by_cases hopens : g.opens (Revision.unfenced reply.toList)
    · rw [if_pos hopens] at hchosen
      rw [hchosen] at h ⊢
      refine ⟨⟨reply, hreply, ?_⟩, ?_, h⟩
      · rw [String.toList_ofList]
        exact Revision.frames_unfenced reply.toList
      · rwa [String.toList_ofList]
    · rw [if_neg hopens] at hchosen
      exact absurd hchosen h

/-- An analysis with a reviser, beside the plain one of the same definitions. -/
structure RevisionOf (settings : Settings) (reviser : Reviser) (defs : List Definition)
    (plain result : Analysis) : Prop where
  /-- The grammar is the same. -/
  grammar : result.grammar = plain.grammar
  /-- So are the figures, but for the mark of a revised diagram. -/
  summary : result.summary = { plain.summary with enhanced := result.summary.enhanced }
  /-- The plain analysis does not bear the mark. -/
  plain_unmarked : plain.summary.enhanced = false
  /-- Without the mark, nothing differs. -/
  eq_of_unmarked : result.summary.enhanced = false → result = plain
  /-- The mark says that the reviser has offered a text. -/
  marked_iff : result.summary.enhanced = true ↔
    ∃ text, reviser.Offers settings.grammar (rendered settings defs) text
  /-- The diagram is then that text, tidied. -/
  diagram_of_offers : ∀ text, reviser.Offers settings.grammar (rendered settings defs) text →
    result.diagram = String.ofList (Tidy.tidy text.toList)

/-- An analysis is marked exactly when the revised diagram differs from the rendered one. -/
theorem marked_iff_ne (settings : Settings) (reviser : Reviser) (files : List String)
    (defs : List Definition) :
    (ofDefinitions settings reviser files defs).summary.enhanced = true ↔
      revised reviser settings.grammar (rendered settings defs) ≠ rendered settings defs :=
  bne_iff_ne

/-- Of any definitions, the analysis with a reviser is a revision of the plain one. -/
theorem revisionOf_ofDefinitions (settings : Settings) (reviser : Reviser) (files : List String)
    (defs : List Definition) :
    RevisionOf settings reviser defs (ofDefinitions settings .silent files defs)
      (ofDefinitions settings reviser files defs) where
  grammar := rfl
  summary := rfl
  plain_unmarked := bne_self_eq_false (rendered settings defs)
  eq_of_unmarked hunmarked := by
    have hsame : revised reviser settings.grammar (rendered settings defs) =
        revised .silent settings.grammar (rendered settings defs) := by
      by_contra hne
      rw [(marked_iff_ne settings reviser files defs).mpr hne] at hunmarked
      exact absurd hunmarked (by decide)
    simp only [ofDefinitions, hsame]
  marked_iff := by
    rw [marked_iff_ne]
    constructor
    · exact fun hne => ⟨_, offers_of_revised_ne hne⟩
    · rintro ⟨text, htext⟩
      rw [revised_of_offers htext]
      exact htext.ne_drawn
  diagram_of_offers text htext := by
    have hchosen : revised reviser settings.grammar (rendered settings defs) = text :=
      revised_of_offers htext
    simp only [ofDefinitions, hchosen]

/-- Without definitions there is no analysis. -/
theorem ofSources_of_eq_nil {settings : Settings} {sources : List SourceFile}
    (h : definitions settings sources = []) (reviser : Reviser) :
    ofSources settings reviser sources =
      .error (.noFunctions settings.language sources.length) := by
  simp [ofSources, h]

/-- With definitions there is one, and it is made from them. -/
theorem ofSources_of_ne_nil {settings : Settings} {sources : List SourceFile}
    (h : definitions settings sources ≠ []) (reviser : Reviser) :
    ofSources settings reviser sources =
      .ok (ofDefinitions settings reviser (sources.map (·.path))
        (definitions settings sources)) := by
  simp [ofSources, h]

/-- **A reviser can change nothing but the drawing.**  With and without it, an analysis fails on the
same files with the same error; otherwise both have the same figures, and the diagram is either the
one drawn without the reviser or the tidied text that the reviser has offered. -/
theorem reviser_changes_only_the_drawing (settings : Settings) (reviser : Reviser)
    (sources : List SourceFile) :
    (definitions settings sources = [] ∧
        ofSources settings reviser sources =
          .error (.noFunctions settings.language sources.length) ∧
        ofSources settings .silent sources =
          .error (.noFunctions settings.language sources.length)) ∨
      ∃ plain result, ofSources settings .silent sources = .ok plain ∧
        ofSources settings reviser sources = .ok result ∧
        RevisionOf settings reviser (definitions settings sources) plain result := by
  by_cases h : definitions settings sources = []
  · exact Or.inl ⟨h, ofSources_of_eq_nil h reviser, ofSources_of_eq_nil h .silent⟩
  · exact Or.inr ⟨_, _, ofSources_of_ne_nil h .silent, ofSources_of_ne_nil h reviser,
      revisionOf_ofDefinitions settings reviser _ _⟩

/-- A reply that brings the drawn diagram back in a fence is accepted and offers nothing new. -/
example : revised (fun drawn _ => some ("```\n" ++ drawn ++ "\n```\n")) .graph "graph TD\n  A" =
    "graph TD\n  A" := by
  decide

end Analysis

end CallAtlas
