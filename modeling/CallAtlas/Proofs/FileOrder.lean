import CallAtlas.Proofs.GraphFigures
import CallAtlas.Proofs.RevisedAnalysis

/-!
# The order of the files

The files of a program may be handed in in any order.  Of several definitions of a name the trees
follow the last one, so the drawing may change with the order; the figures do not
(`summary_ignores_file_order`).  They are numbers of things that are listed once each, and such a
list is known up to its order by its members (`perm_entryPoints`, `perm_eraseDups`); or they depend
on the calls alone, and what calls what is a matter of all definitions of a name
(`calls_congr_of_perm`).
-/

set_option autoImplicit false

namespace CallAtlas

/-- Removing duplicates keeps one list a permutation of another. -/
theorem perm_eraseDups {α : Type} [BEq α] [LawfulBEq α] {xs ys : List α} (h : xs.Perm ys) :
    xs.eraseDups.Perm ys.eraseDups := by
  rw [List.perm_ext_iff_of_nodup (nodup_eraseDups xs) (nodup_eraseDups ys)]
  intro a
  rw [List.mem_eraseDups, List.mem_eraseDups]
  exact h.mem_iff

section Definitions

variable {defs defs' : List Definition} (h : defs.Perm defs')

include h

/-- Which names are defined does not depend on the order of the definitions. -/
theorem isDefined_congr_of_perm {name : String} : IsDefined defs name ↔ IsDefined defs' name := by
  simp only [IsDefined, h.mem_iff]

/-- Which names call which does not depend on the order of the definitions. -/
theorem calls_congr_of_perm (a b : String) : Calls defs a b ↔ Calls defs' a b := by
  rw [Calls, Calls, isDefined_congr_of_perm h]
  simp only [h.mem_iff]

/-- The order of the definitions decides on the order of the entry points only. -/
theorem perm_entryPoints : (entryPoints defs).Perm (entryPoints defs') := by
  rw [List.perm_ext_iff_of_nodup (nodup_entryPoints defs) (nodup_entryPoints defs')]
  intro name
  rw [mem_entryPoints, mem_entryPoints, isDefined_congr_of_perm h]
  simp only [h.mem_iff]

end Definitions

namespace Analysis

/-- The order of the files decides on the order of the definitions only. -/
theorem perm_definitions (settings : Settings) {sources sources' : List SourceFile}
    (h : sources.Perm sources') :
    (definitions settings sources).Perm (definitions settings sources') :=
  h.flatMap_right _

/-- The figures of an analysis do not depend on the order of its definitions and files. -/
theorem summary_ofDefinitions_of_perm (settings : Settings) {files files' : List String}
    {defs defs' : List Definition} (hfiles : files.Perm files') (hdefs : defs.Perm defs') :
    (ofDefinitions settings .silent files defs).summary =
      (ofDefinitions settings .silent files' defs').summary := by
  have hfunctions : defs.length = defs'.length := hdefs.length_eq
  have hfileCount : files.eraseDups.length = files'.eraseDups.length :=
    (perm_eraseDups hfiles).length_eq
  have hentries : (entryPoints defs).length = (entryPoints defs').length :=
    (perm_entryPoints hdefs).length_eq
  have hcalls := calls_congr_of_perm hdefs
  have hedges : (CallGraph.ofDefinitions defs).edgeCount =
      (CallGraph.ofDefinitions defs').edgeCount := CallGraph.edgeCount_congr hcalls
  have hgroups : (CallGraph.ofDefinitions defs).recursiveGroups =
      (CallGraph.ofDefinitions defs').recursiveGroups := CallGraph.recursiveGroups_congr hcalls
  -- Without a reviser neither diagram bears the mark of a revised one.
  have hunmarked : ∀ drawn, (revised .silent settings.grammar drawn != drawn) = false := by
    intro drawn
    exact bne_self_eq_false drawn
  simp only [ofDefinitions, hfunctions, hfileCount, hentries, hedges, hgroups, hunmarked]

/-- **The order of the files does not show in the summary.**  However the files are permuted, the
analysis without a reviser fails with the same error, or it succeeds with the same figures. -/
theorem summary_ignores_file_order (settings : Settings) {sources sources' : List SourceFile}
    (h : sources.Perm sources') :
    (ofSources settings .silent sources =
          .error (.noFunctions settings.language sources.length) ∧
        ofSources settings .silent sources' =
          .error (.noFunctions settings.language sources.length)) ∨
      ∃ result result', ofSources settings .silent sources = .ok result ∧
        ofSources settings .silent sources' = .ok result' ∧ result.summary = result'.summary := by
  have hdefs := perm_definitions settings h
  by_cases hnone : definitions settings sources = []
  · left
    have hnone' : definitions settings sources' = [] := by
      rw [hnone] at hdefs
      exact hdefs.symm.eq_nil
    refine ⟨ofSources_of_eq_nil hnone .silent, ?_⟩
    rw [ofSources_of_eq_nil hnone' .silent, h.length_eq]
  · right
    have hsome' : definitions settings sources' ≠ [] := by
      intro hnone'
      rw [hnone'] at hdefs
      exact hnone hdefs.eq_nil
    have hfiles : (sources.map (·.path)).Perm (sources'.map (·.path)) := h.map _
    exact ⟨_, _, ofSources_of_ne_nil hnone .silent, ofSources_of_ne_nil hsome' .silent,
      summary_ofDefinitions_of_perm settings hfiles hdefs⟩

/-- Two files define one name, and only the first of the definitions calls anything. -/
def callerFile : SourceFile := ⟨"a.js", "function f(){g()}", .javascript⟩

/-- The other definition of that name. -/
def idleFile : SourceFile := ⟨"b.js", "function f(){}", .javascript⟩

/-- The file of the name that is called. -/
def calleeFile : SourceFile := ⟨"c.js", "function g(){}", .javascript⟩

/-- With the first two files swapped, the summary stays, and an arrow comes into the drawing. -/
theorem summary_of_swapped_files :
    let files := [callerFile, idleFile, calleeFile]
    let swapped := [idleFile, callerFile, calleeFile]
    files.Perm swapped ∧
      (∃ result result', ofSources {} .silent files = .ok result ∧
        ofSources {} .silent swapped = .ok result' ∧ result.summary = result'.summary) ∧
      Flowchart.arrowLines (CallForest.grow (definitions {} files) {}) = [] ∧
      Flowchart.arrowLines (CallForest.grow (definitions {} swapped) {}) = ["    N0 --> N1"] := by
  intro files swapped
  have hswap : files.Perm swapped := .swap _ _ _
  have hsome : (definitions {} files).isEmpty = false := by decide +kernel
  refine ⟨hswap, ?_, by decide +kernel, by decide +kernel⟩
  rcases summary_ignores_file_order {} hswap with ⟨herror, -⟩ | hsame
  · rw [ofSources_of_ne_nil (List.isEmpty_eq_false_iff.mp hsome) .silent] at herror
    exact absurd herror (by simp)
  · exact hsame

end Analysis

end CallAtlas
