import CallAtlas.Proofs.GraphFigures

/-!
# Added definitions

A program grows by definitions that are put in among those it has.  Some of them may have names that
are defined already; they then take over the names in the trees, but in the call graph they add to
what is there.  So every call stays a call (`calls_of_subset`) and every path a path, and the main
statement, `added_definitions_only_join`, follows: names that were on a cycle together stay
together, no edge is lost, and no old name becomes an entry point.
-/

set_option autoImplicit false

namespace CallAtlas

open Relation (TransGen)

section Subset

variable {defs more : List Definition} (h : defs ⊆ more)

include h

/-- A name that is defined stays so when definitions are added. -/
theorem isDefined_of_subset {name : String} (hname : IsDefined defs name) :
    IsDefined more name := by
  obtain ⟨d, hd, rfl⟩ := hname
  exact ⟨d, h hd, rfl⟩

/-- A call between two names is still one when definitions are added. -/
theorem calls_of_subset {a b : String} (hcall : Calls defs a b) : Calls more a b := by
  obtain ⟨⟨d, hd, hname, hcalled⟩, hdefined⟩ := hcall
  exact ⟨⟨d, h hd, hname, hcalled⟩, isDefined_of_subset h hdefined⟩

/-- A path of calls is still one when definitions are added. -/
theorem transGen_calls_of_subset {a b : String} (hpath : TransGen (Calls defs) a b) :
    TransGen (Calls more) a b :=
  TransGen.mono (fun _ _ hcall => calls_of_subset h hcall) a b hpath

/-- An old name that nothing calls now was called by nothing before. -/
theorem mem_entryPoints_of_subset {name : String} (hname : IsDefined defs name)
    (hentry : name ∈ entryPoints more) : name ∈ entryPoints defs := by
  obtain ⟨-, huncalled⟩ := mem_entryPoints.mp hentry
  exact mem_entryPoints.mpr ⟨hname, fun d hd => huncalled d (h hd)⟩

end Subset

namespace CallGraph

/-- A recursive group lies in one recursive group of the larger program, that of any of its
names. -/
theorem existsUnique_group_of_subset {defs more : List Definition} (h : defs ⊆ more)
    {c : List String} (hc : c ∈ (ofDefinitions defs).recursiveGroups) :
    ∃! c', c' ∈ (ofDefinitions more).recursiveGroups ∧ c ⊆ c' := by
  obtain ⟨name, hcycle, rfl⟩ := mem_recursiveGroups_iff.mp hc
  have hname : name ∈ (ofDefinitions defs).groupOf name := mem_groupOf_iff.mpr ⟨hcycle, hcycle⟩
  refine ⟨(ofDefinitions more).groupOf name, ⟨?_, ?_⟩, ?_⟩
  · exact mem_recursiveGroups_iff.mpr ⟨name, transGen_calls_of_subset h hcycle, rfl⟩
  · intro other hother
    obtain ⟨hto, hfrom⟩ := mem_groupOf_iff.mp hother
    exact mem_groupOf_iff.mpr
      ⟨transGen_calls_of_subset h hto, transGen_calls_of_subset h hfrom⟩
  · rintro c' ⟨hc', hsub⟩
    exact eq_groupOf_of_mem hc' (hsub hname)

/-- **Added definitions only join.**  When definitions are put in anywhere among those of a program,
an old name that is an entry point now was one before, the number of edges does not become smaller,
and every recursive group lies in exactly one of the new recursive groups. -/
theorem added_definitions_only_join {defs more : List Definition} (h : defs.Sublist more) :
    (∀ name ∈ entryPoints more, IsDefined defs name → name ∈ entryPoints defs) ∧
      (ofDefinitions defs).edgeCount ≤ (ofDefinitions more).edgeCount ∧
      ∀ c ∈ (ofDefinitions defs).recursiveGroups,
        ∃! c', c' ∈ (ofDefinitions more).recursiveGroups ∧ c ⊆ c' :=
  ⟨fun _ hentry hname => mem_entryPoints_of_subset h.subset hname hentry,
    edgeCount_mono fun _ _ hcall => calls_of_subset h.subset hcall,
    fun _ hc => existsUnique_group_of_subset h.subset hc⟩

/-- A program with two recursive groups and two entry points. -/
def twoGroups : List Definition :=
  [⟨"main", "x.py", 1, .moduleLevel, .ofList ["a", "walk"]⟩,
   ⟨"a", "x.py", 2, .moduleLevel, .ofList ["b"]⟩,
   ⟨"b", "x.py", 3, .moduleLevel, .ofList ["a", "print"]⟩,
   ⟨"walk", "x.py", 4, .moduleLevel, .ofList ["walk"]⟩,
   ⟨"idle", "x.py", 5, .moduleLevel, .empty⟩]

/-- The same program with a caller of one entry point in front, a second definition of a name before
the first one of it, another behind all of them, and a definition of a name that was called without
one. -/
def joinedGroups : List Definition :=
  [⟨"late", "y.py", 1, .moduleLevel, .ofList ["idle"]⟩,
   ⟨"main", "x.py", 1, .moduleLevel, .ofList ["a", "walk"]⟩,
   ⟨"b", "y.py", 2, .moduleLevel, .ofList ["walk"]⟩,
   ⟨"a", "x.py", 2, .moduleLevel, .ofList ["b"]⟩,
   ⟨"b", "x.py", 3, .moduleLevel, .ofList ["a", "print"]⟩,
   ⟨"walk", "x.py", 4, .moduleLevel, .ofList ["walk"]⟩,
   ⟨"idle", "x.py", 5, .moduleLevel, .empty⟩,
   ⟨"walk", "y.py", 3, .moduleLevel, .ofList ["a"]⟩,
   ⟨"print", "y.py", 4, .moduleLevel, .empty⟩]

/-- The added definitions join the two groups, and an entry point is one no longer. -/
theorem two_groups_are_joined :
    twoGroups.Sublist joinedGroups ∧
      (entryPoints twoGroups = ["main", "idle"] ∧ entryPoints joinedGroups = ["late", "main"]) ∧
      ((ofDefinitions twoGroups).edgeCount = 5 ∧ (ofDefinitions joinedGroups).edgeCount = 9) ∧
      ((ofDefinitions twoGroups).recursiveGroups = [["a", "b"], ["walk"]] ∧
        (ofDefinitions joinedGroups).recursiveGroups = [["a", "b", "walk"]]) ∧
      (∀ name ∈ entryPoints joinedGroups, IsDefined twoGroups name → name ∈ entryPoints twoGroups) ∧
      (ofDefinitions twoGroups).edgeCount ≤ (ofDefinitions joinedGroups).edgeCount ∧
      ∀ c ∈ (ofDefinitions twoGroups).recursiveGroups,
        ∃! c', c' ∈ (ofDefinitions joinedGroups).recursiveGroups ∧ c ⊆ c' := by
  have hsub : twoGroups.Sublist joinedGroups := by decide
  exact ⟨hsub, by decide +kernel, by decide +kernel, by decide +kernel,
    added_definitions_only_join hsub⟩

end CallGraph

end CallAtlas
