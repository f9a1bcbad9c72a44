import CallAtlas.Proofs.RecursiveGroups

/-!
# Where calls come from

Every name of a program is reached from an entry point or from a recursive group
(`every_name_has_an_origin`).  From a name that is neither, one can go back to a caller; as long as
no cycle is met, the caller has fewer names that lead to it (`ancestors_ssubset`), so the way back
ends at an entry point or at a cycle.  In particular a program without entry points has a recursive
group.
-/

set_option autoImplicit false

namespace CallAtlas

open Relation (ReflTransGen TransGen)

namespace CallGraph

variable {defs : List Definition}

/-- The names from which a path of calls leads to a name, that name included. -/
def ancestors (defs : List Definition) (name : String) : Finset String :=
  (definedNames defs).filter fun other =>
    name = other ∨ name ∈ (ofDefinitions defs).reachable other

/-- The ancestors of a name are the defined names with a path of calls to it. -/
theorem mem_ancestors_iff {name other : String} :
    other ∈ ancestors defs name ↔ IsDefined defs other ∧ ReflTransGen (Calls defs) other name := by
  rw [ancestors, Finset.mem_filter, mem_definedNames, mem_reachable_iff,
    Relation.reflTransGen_iff_eq_or_transGen]

/-- A caller has fewer ancestors than its callee, unless the callee is on a cycle. -/
theorem ancestors_ssubset {caller callee : String} (hcall : Calls defs caller callee)
    (hcycle : ¬TransGen (Calls defs) callee callee) :
    ancestors defs caller ⊂ ancestors defs callee := by
  refine (Finset.ssubset_iff_of_subset fun other hother => ?_).mpr ⟨callee, ?_, fun hback => ?_⟩
  · obtain ⟨hdefined, hpath⟩ := mem_ancestors_iff.mp hother
    exact mem_ancestors_iff.mpr ⟨hdefined, hpath.tail hcall⟩
  · exact mem_ancestors_iff.mpr ⟨hcall.2, ReflTransGen.refl⟩
  · obtain ⟨-, hpath⟩ := mem_ancestors_iff.mp hback
    exact hcycle (TransGen.tail' hpath hcall)

/-- Every defined name is reached from an entry point or from a name on a cycle. -/
theorem exists_origin {name : String} (h : IsDefined defs name) :
    ∃ origin, (origin ∈ entryPoints defs ∨ TransGen (Calls defs) origin origin) ∧
      ReflTransGen (Calls defs) origin name := by
  induction hanc : ancestors defs name using Finset.strongInduction generalizing name with
  | H _ ih =>
    subst hanc
    by_cases hcycle : TransGen (Calls defs) name name
    · exact ⟨name, Or.inr hcycle, ReflTransGen.refl⟩
    by_cases hentry : name ∈ entryPoints defs
    · exact ⟨name, Or.inl hentry, ReflTransGen.refl⟩
    -- The name is no entry point, so some definition calls it.
    obtain ⟨d, hd, hcalled⟩ : ∃ d ∈ defs, name ∈ d.calls := by
      by_contra hnone
      exact hentry (mem_entryPoints.mpr ⟨h, fun d hd hcalled => hnone ⟨d, hd, hcalled⟩⟩)
    have hcall : Calls defs d.name name := ⟨⟨d, hd, rfl, hcalled⟩, h⟩
    obtain ⟨origin, horigin, hpath⟩ :=
      ih _ (ancestors_ssubset hcall hcycle) hcall.isDefined_caller rfl
    exact ⟨origin, horigin, hpath.tail hcall⟩

/-- **Every name of a program is reached from an entry point or from a recursive group** along the
edges of its call graph.  So if nothing is an entry point, there is a recursive group. -/
theorem every_name_has_an_origin (defs : List Definition) :
    (∀ d ∈ defs, ∃ origin,
      (origin ∈ entryPoints defs ∨ ∃ c ∈ (ofDefinitions defs).recursiveGroups, origin ∈ c) ∧
        ReflTransGen (fun a b => (a, b) ∈ (ofDefinitions defs).edges) origin d.name) ∧
      (defs ≠ [] → entryPoints defs = [] → (ofDefinitions defs).recursiveGroups ≠ []) := by
  have hedges : (fun a b => (a, b) ∈ (ofDefinitions defs).edges) = Calls defs := by
    funext a b
    exact propext mem_edges_iff
  have horigin : ∀ d ∈ defs, ∃ origin,
      (origin ∈ entryPoints defs ∨ ∃ c ∈ (ofDefinitions defs).recursiveGroups, origin ∈ c) ∧
        ReflTransGen (fun a b => (a, b) ∈ (ofDefinitions defs).edges) origin d.name := by
    intro d hd
    simp only [hedges, exists_group_iff]
    exact exists_origin ⟨d, hd, rfl⟩
  refine ⟨horigin, fun hne hno => ?_⟩
  obtain ⟨d, hd⟩ := List.exists_mem_of_ne_nil defs hne
  obtain ⟨origin, hentry | ⟨c, hc, -⟩, -⟩ := horigin d hd
  · rw [hno] at hentry
    exact absurd hentry List.not_mem_nil
  · exact List.ne_nil_of_mem hc

end CallGraph

end CallAtlas
