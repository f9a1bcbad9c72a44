import CallAtlas.Diagram.Render
import CallAtlas.Proofs.ForestGrowth
import CallAtlas.Proofs.GraphFigures

/-!
# Calls that lead nowhere

A program may call names that it does not define.  Such calls have no effect: with all of them left
out (`resolvedCalls`) the program has the same entry points, the same forest, the same figures and
the same diagrams (`unresolved_calls_are_inert`).

Each reader of the calls drops these names in its own way.  The entry points are defined names, so
that only calls of defined names can stand in their way; an undefined callee has no tree and leaves
the seen names as they are (`growBranches_filter`); an edge asks for a defined callee
(`calls_resolvedCalls`); and the component diagram reads names and files alone (`render_map`).
-/

set_option autoImplicit false

namespace CallAtlas

/-- The names of a set that pass a test. -/
def NameSet.filter (s : NameSet) (test : String → Bool) : NameSet :=
  ⟨s.toList.filter test, s.increasing.filter test⟩

/-- The filter of a set has those of its names that pass the test. -/
theorem NameSet.mem_filter {s : NameSet} {test : String → Bool} {name : String} :
    name ∈ s.filter test ↔ name ∈ s ∧ test name :=
  List.mem_filter

/-- Whether some definition has a name. -/
def defines (defs : List Definition) (name : String) : Bool :=
  defs.any (·.name == name)

/-- The test for a definition says whether the name is defined. -/
theorem defines_iff {defs : List Definition} {name : String} :
    defines defs name ↔ IsDefined defs name := by
  simp [defines, IsDefined]

/-- A definition without its calls of names that the program does not define. -/
def Definition.resolvingIn (defs : List Definition) (d : Definition) : Definition :=
  { d with calls := d.calls.filter (defines defs) }

/-- The definitions of a program without their calls of names that the program does not define. -/
def resolvedCalls (defs : List Definition) : List Definition :=
  defs.map (Definition.resolvingIn defs)

/-- What is computed and drawn from two lists of definitions is the same. -/
structure SameReadings (defs defs' : List Definition) : Prop where
  /-- They have the same entry points in the same order. -/
  entryPoints_eq : entryPoints defs = entryPoints defs'
  /-- They have the same forest, whatever its limits. -/
  grow_eq : ∀ limits, CallForest.grow defs limits = CallForest.grow defs' limits
  /-- They have as many edges. -/
  edgeCount_eq :
    (CallGraph.ofDefinitions defs).edgeCount = (CallGraph.ofDefinitions defs').edgeCount
  /-- They have the same recursive groups. -/
  recursiveGroups_eq :
    (CallGraph.ofDefinitions defs).recursiveGroups =
      (CallGraph.ofDefinitions defs').recursiveGroups
  /-- Their forests are drawn in the same way in every grammar. -/
  render_eq : ∀ limits (g : Grammar),
    g.render (CallForest.grow defs limits) defs = g.render (CallForest.grow defs' limits) defs'

variable {defs : List Definition}

/-! ## Names -/

/-- The same names are defined. -/
theorem isDefined_resolvedCalls {name : String} :
    IsDefined (resolvedCalls defs) name ↔ IsDefined defs name := by
  simp [IsDefined, resolvedCalls, Definition.resolvingIn]

/-- A name resolves to the same definition, without its calls of undefined names. -/
theorem resolve_resolvedCalls (name : String) :
    resolve (resolvedCalls defs) name = (resolve defs name).map (Definition.resolvingIn defs) := by
  rw [resolve, resolvedCalls, ← List.map_reverse, List.find?_map]
  rfl

/-- Calls stand in the way of a defined name just as they did. -/
theorem entryPoints_resolvedCalls (defs : List Definition) :
    entryPoints (resolvedCalls defs) = entryPoints defs := by
  have hnames : (resolvedCalls defs).map (·.name) = defs.map (·.name) := by
    simp [resolvedCalls, Definition.resolvingIn]
  rw [entryPoints, hnames, entryPoints]
  refine congrArg List.eraseDups (List.filter_congr fun name hname => ?_)
  have hdefined : IsDefined defs name := by simpa [IsDefined] using hname
  have hcalled : (∃ d ∈ resolvedCalls defs, name ∈ d.calls) ↔ ∃ d ∈ defs, name ∈ d.calls := by
    simp [resolvedCalls, Definition.resolvingIn, NameSet.mem_filter, defines_iff, hdefined]
  rw [Bool.eq_iff_iff]
  simpa using not_congr hcalled

/-! ## Trees -/

/-- Callees that never get a tree, and never count as seen, may be left out. -/
theorem growBranches_filter {growOne : List String → String → Option CallTree × List String}
    {test : String → Bool} (h : ∀ seen name, test name = false → growOne seen name = (none, seen))
    (seen callees : List String) :
    growBranches growOne seen (callees.filter test) = growBranches growOne seen callees := by
  induction callees generalizing seen with
  | nil => rfl
  | cons callee callees ih =>
    cases htest : test callee with
    | true => simp only [List.filter_cons_of_pos htest, growBranches_cons, ih]
    | false =>
      rw [List.filter_cons_of_neg (by simp [htest]), growBranches_cons, h seen callee htest, ih]
      rfl

/-- A name has the same tree if the same grows below its definition. -/
theorem growTree_resolvedCalls_of_below {below : Nat}
    (h : ∀ seen d, growBelow (resolvedCalls defs) below seen (d.resolvingIn defs) =
      growBelow defs below seen d) (seen : List String) (name : String) :
    growTree (resolvedCalls defs) below seen name = growTree defs below seen name := by
  cases hd : resolve defs name with
  | none =>
    have hd' : resolve (resolvedCalls defs) name = none := by rw [resolve_resolvedCalls, hd]; rfl
    rw [growTree_of_undefined hd, growTree_of_undefined hd']
  | some d =>
    have hd' : resolve (resolvedCalls defs) name = some (d.resolvingIn defs) := by
      rw [resolve_resolvedCalls, hd]; rfl
    by_cases hseen : name ∈ seen
    · rw [growTree_of_seen hseen, growTree_of_seen hseen]
    · rw [growTree_of_new hd hseen, growTree_of_new hd' hseen, h]
      rfl

/-- The same branches grow below a definition. -/
theorem growBelow_resolvedCalls (below : Nat) (seen : List String) (d : Definition) :
    growBelow (resolvedCalls defs) below seen (d.resolvingIn defs) =
      growBelow defs below seen d := by
  induction below generalizing seen d with
  | zero => rfl
  | succ below ih =>
    have htree : growTree (resolvedCalls defs) below = growTree defs below := by
      funext seen name
      exact growTree_resolvedCalls_of_below ih seen name
    have hundefined : ∀ seen name, defines defs name = false →
        growTree defs below seen name = (none, seen) := by
      intro seen name hname
      have hresolve : resolve defs name = none := by
        rw [resolve_eq_none_iff, ← defines_iff, hname]
        exact Bool.false_ne_true
      exact growTree_of_undefined hresolve below seen
    rw [growBelow, growBelow, htree]
    exact growBranches_filter hundefined seen d.calls.toList

/-- The same forest grows. -/
theorem grow_resolvedCalls (defs : List Definition) (limits : ForestLimits) :
    CallForest.grow (resolvedCalls defs) limits = CallForest.grow defs limits := by
  have htree : growTree (resolvedCalls defs) (limits.maxDepth - 1) =
      growTree defs (limits.maxDepth - 1) := by
    funext seen name
    exact growTree_resolvedCalls_of_below (growBelow_resolvedCalls _) seen name
  simp only [CallForest.grow, growTrees_eq, htree, entryPoints_resolvedCalls]

/-! ## Edges -/

/-- The same names call each other. -/
theorem calls_resolvedCalls (a b : String) : Calls (resolvedCalls defs) a b ↔ Calls defs a b := by
  rw [Calls, Calls, isDefined_resolvedCalls]
  refine and_congr_left fun hdefined => ?_
  simp [resolvedCalls, Definition.resolvingIn, NameSet.mem_filter, defines_iff, hdefined]

/-! ## Drawings -/

namespace ComponentDiagram

section Map

/-! A component diagram does not change with the definitions as long as their names and files stay.
-/

variable {f : Definition → Definition} (hname : ∀ d, (f d).name = d.name)

include hname

/-- Which definitions are undeclared does not depend on their calls. -/
theorem undeclared_map (declared : List String) (ds : List Definition) :
    undeclared declared (ds.map f) = (undeclared declared ds).map f := by
  induction ds generalizing declared with
  | nil => rfl
  | cons d ds ih =>
    rw [List.map_cons, undeclared, undeclared, hname]
    by_cases hd : d.name ∈ declared
    · rw [if_pos hd, if_pos hd, ih]
    · rw [if_neg hd, if_neg hd, ih, List.map_cons]

variable (hfile : ∀ d, (f d).file = d.file)

include hfile

/-- The packages do not depend on the calls. -/
theorem packages_map (declared files : List String) :
    packages (defs.map f) declared files =
      (packages defs declared files).map fun package => (package.1, package.2.map f) := by
  induction files generalizing declared with
  | nil => rfl
  | cons file files ih =>
    have hmembers : undeclared declared ((defs.map f).filter (·.file == file)) =
        (undeclared declared (defs.filter (·.file == file))).map f := by
      rw [List.filter_map, undeclared_map hname]
      simp only [Function.comp_def, hfile]
    have hnames : ∀ ds : List Definition, (ds.map f).map (·.name) = ds.map (·.name) := by
      intro ds
      simp only [List.map_map, Function.comp_def, hname]
    simp only [packages, hmembers, hnames, ih, List.map_cons]

/-- The lines of a package do not depend on the calls. -/
theorem packageLines_map (package : String × List Definition) :
    packageLines (package.1, package.2.map f) = packageLines package := by
  have hdeclare : ∀ d, declare (f d) = declare d := by
    intro d
    rw [declare, hfile, hname, declare]
  simp only [packageLines, List.flatMap_map, hdeclare]

/-- A component diagram does not depend on the calls but for its forest. -/
theorem render_map (forest : CallForest) (defs : List Definition) :
    render forest (defs.map f) = render forest defs := by
  have hfiles : files (defs.map f) = files defs := by
    simp only [files, List.map_map, Function.comp_def, hfile]
  simp only [render, hfiles, packages_map hname hfile, List.flatMap_map,
    packageLines_map hname hfile]

end Map

end ComponentDiagram

/-- Either grammar draws the same diagram. -/
theorem render_resolvedCalls (forest : CallForest) (g : Grammar) :
    g.render forest (resolvedCalls defs) = g.render forest defs := by
  cases g with
  | graph => rfl
  | component =>
    exact ComponentDiagram.render_map (f := Definition.resolvingIn defs) (fun _ => rfl)
      (fun _ => rfl) forest defs

/-- **Unresolved calls are inert.**  With the calls of every definition cut down to the names that
the program defines, the entry points, the forest at all limits, the number of edges, the recursive
groups and the diagrams in both grammars stay as they are. -/
theorem unresolved_calls_are_inert (defs : List Definition) :
    SameReadings (resolvedCalls defs) defs where
  entryPoints_eq := entryPoints_resolvedCalls defs
  grow_eq := grow_resolvedCalls defs
  edgeCount_eq := CallGraph.edgeCount_congr calls_resolvedCalls
  recursiveGroups_eq := CallGraph.recursiveGroups_congr calls_resolvedCalls
  render_eq limits g := by rw [grow_resolvedCalls, render_resolvedCalls]

end CallAtlas
