import CallAtlas.Proofs.NodeAddresses
import CallAtlas.Source.Harvest

/-!
# What a walk over a syntax tree adds

The walk keeps one growing list of definitions and counts every call for the definition at a place
in that list, so what it does to a subtree depends on all that it has seen before.  What it adds
can be said without the list: the definitions in the subtree, and the calls that the subtree leaves
to the definition around it (`harvest`).

`Gained` is what a part of the walk does to the list.  It composes (`Gained.trans`), because a place
that has been given out stays that of its definition; so `gained_gather` follows the tree, and the
definitions of a whole tree are its harvest (`definitions_eq`).
-/

set_option autoImplicit false

namespace CallAtlas.Source

/-! ## What a subtree adds -/

mutual

/-- The calls that a subtree leaves to the definition around it, and the definitions in it. -/
def harvest (language : Language) (file : String) (above : List Node) :
    Node → List String × List Definition
  | .mk kind field row text children =>
    let node := Node.mk kind field row text children
    let below := harvestAll language file (node :: above) children
    match definition? language above node with
    | some (name, form) =>
      ([], ⟨name, file, row + 1, form, NameSet.ofList below.1⟩ :: below.2)
    | none => ((calledName? node).toList ++ below.1, below.2)

/-- The same for several subtrees in a row. -/
def harvestAll (language : Language) (file : String) (above : List Node) :
    List Node → List String × List Definition
  | [] => ([], [])
  | node :: nodes =>
    let first := harvest language file above node
    let others := harvestAll language file above nodes
    (first.1 ++ others.1, first.2 ++ others.2)

end

/-- A list of definitions after some calls have been counted for the one at the given place. -/
def credited (scope : Option Nat) (calls : List String) (found : List Definition) :
    List Definition :=
  match scope with
  | some place => found.modify place fun d => { d with calls := d.calls.insertAll calls }
  | none => found

section Credited

variable {scope : Option Nat} {calls others : List String} {found more : List Definition}

/-- Without calls nothing is counted. -/
theorem credited_nil : credited scope [] found = found := by
  cases scope with
  | none => rfl
  | some place => exact List.modify_id place found

/-- Calls are counted one after the other or all at once. -/
theorem credited_credited :
    credited scope others (credited scope calls found) =
      credited scope (calls ++ others) found := by
  cases scope with
  | none => rfl
  | some place =>
    rw [credited, credited, credited, List.modify_modify_eq]
    refine congrArg (found.modify place ·) (funext fun d => ?_)
    simp [NameSet.insertAll]

/-- Definitions that come after the place do not matter. -/
theorem credited_append (h : ∀ place ∈ scope, place < found.length) :
    credited scope calls (found ++ more) = credited scope calls found ++ more := by
  cases scope with
  | none => rfl
  | some place =>
    have hplace : place < found.length := h place rfl
    clear h
    induction found generalizing place with
    | nil => exact absurd hplace (Nat.not_lt_zero place)
    | cons d found ih =>
      cases place with
      | zero => rfl
      | succ place => exact congrArg (d :: ·) (ih place (Nat.lt_of_succ_lt_succ hplace))

/-- The last definition is the one at the place that it was put at. -/
theorem credited_concat (d : Definition) :
    credited (some found.length) calls (found ++ [d]) =
      found ++ [{ d with calls := d.calls.insertAll calls }] := by
  induction found with
  | nil => rfl
  | cons e found ih => exact congrArg (e :: ·) ih

/-- Counting calls adds no definitions. -/
theorem length_credited : (credited scope calls found).length = found.length := by
  cases scope with
  | none => rfl
  | some place => exact List.length_modify _ _ _

/-- A call is counted for the definition around it, if there is one. -/
theorem toList_countCall (callee : Option String) (found : Array Definition) :
    (countCall scope callee found).toList = credited scope callee.toList found.toList := by
  cases scope with
  | none => rfl
  | some place =>
    cases callee with
    | none => exact credited_nil.symm
    | some name => simp [countCall, credited, NameSet.insertAll]

end Credited

/-- A list of definitions has grown: calls have been counted for the one at the given place, and
more definitions have come after it. -/
def Gained (scope : Option Nat) (gain : List String × List Definition)
    (found found' : Array Definition) : Prop :=
  found'.toList = credited scope gain.1 found.toList ++ gain.2

section Gained

variable {scope : Option Nat} {gain gain' : List String × List Definition}
  {found mid found' : Array Definition}

/-- A list that has gained is no shorter. -/
theorem Gained.size_le (h : Gained scope gain found found') : found.size ≤ found'.size := by
  have hlength := congrArg List.length h
  rw [List.length_append, length_credited, Array.length_toList, Array.length_toList] at hlength
  omega

/-- Two gains one after the other are one. -/
theorem Gained.trans (hscope : ∀ place ∈ scope, place < found.size)
    (h : Gained scope gain found mid) (h' : Gained scope gain' mid found') :
    Gained scope (gain.1 ++ gain'.1, gain.2 ++ gain'.2) found found' := by
  have hplace : ∀ place ∈ scope, place < (credited scope gain.1 found.toList).length := by
    rw [length_credited]
    exact hscope
  rw [Gained, h', h, credited_append hplace, credited_credited, List.append_assoc]

end Gained

section Walk

variable {language : Language} {file : String}

/-- If each subtree gains what it harvests, subtrees in a row do. -/
theorem gained_gatherAll {above nodes : List Node}
    (hnodes : ∀ node ∈ nodes, ∀ scope found, (∀ place ∈ scope, place < found.size) →
      Gained scope (harvest language file above node) found
        (gather language file above scope found node))
    {scope : Option Nat} {found : Array Definition} (hscope : ∀ place ∈ scope, place < found.size) :
    Gained scope (harvestAll language file above nodes) found
      (gatherAll language file above scope found nodes) := by
  induction nodes generalizing found with
  | nil => simp [Gained, gatherAll, harvestAll, credited_nil]
  | cons node nodes ih =>
    have hfirst := hnodes node List.mem_cons_self scope found hscope
    have hscope' : ∀ place ∈ scope, place < (gather language file above scope found node).size :=
      fun place hmem => Nat.lt_of_lt_of_le (hscope place hmem) hfirst.size_le
    rw [gatherAll, harvestAll]
    exact hfirst.trans hscope
      (ih (fun node hmem => hnodes node (List.mem_cons_of_mem _ hmem)) hscope')

/-- The walk through a subtree adds the definitions in it, and counts the calls that it leaves to
the definition around it for the one at the given place. -/
theorem gained_gather (node : Node) (above : List Node) (scope : Option Nat)
    (found : Array Definition) (hscope : ∀ place ∈ scope, place < found.size) :
    Gained scope (harvest language file above node) found
      (gather language file above scope found node) := by
  induction node using Node.induct generalizing above scope found with
  | node kind field row text children ih =>
    have hbelow : ∀ scope found, (∀ place ∈ scope, place < found.size) →
        Gained scope (harvestAll language file (.mk kind field row text children :: above) children)
          found (gatherAll language file (.mk kind field row text children :: above) scope found
            children) :=
      fun _ _ => gained_gatherAll fun c hc scope found => ih c hc _ scope found
    rw [harvest, gather]
    cases definition? language above (.mk kind field row text children) with
    | some made =>
      -- The new definition is put at the very place where the calls below it are counted.
      have hgained := hbelow (some found.size)
        (found.push ⟨made.1, file, row + 1, made.2, .empty⟩) (by simp)
      rw [Gained, Array.toList_push, ← Array.length_toList, credited_concat] at hgained
      rw [Gained, credited_nil]
      simpa [NameSet.ofList, NameSet.insertAll] using hgained
    | none =>
      have hcounted : (countCall scope (calledName? (.mk kind field row text children))
          found).toList = _ := toList_countCall _ found
      have hsize : (countCall scope (calledName? (.mk kind field row text children)) found).size =
          found.size := by
        rw [← Array.length_toList, hcounted, length_credited, Array.length_toList]
      have hgained := hbelow scope (countCall scope (calledName? (.mk kind field row text children))
        found) (by rwa [hsize])
      rw [Gained, hcounted, credited_credited] at hgained
      exact hgained

/-- The definitions of a tree are those that it harvests. -/
theorem definitions_eq (root : Node) :
    definitions language file root = (harvest language file [] root).2 := by
  have hgained : Gained none (harvest language file [] root) #[]
      (gather language file [] none #[] root) := gained_gather root [] none #[] (by simp)
  rw [definitions, hgained]
  rfl

/-- The harvest of subtrees in a row is that of each of them in turn. -/
theorem harvestAll_eq (above nodes : List Node) :
    harvestAll language file above nodes =
      (nodes.flatMap fun node => (harvest language file above node).1,
       nodes.flatMap fun node => (harvest language file above node).2) := by
  induction nodes with
  | nil => rfl
  | cons node nodes ih => simp [harvestAll, ih]

/-- The definitions of subtrees in a row are those of each of them in turn, with its number or
without. -/
theorem snd_harvestAll (above nodes : List Node) :
    (harvestAll language file above nodes).2 =
      nodes.zipIdx.flatMap fun c => (harvest language file above c.1).2 := by
  have hmap := List.flatMap_map (·.1) (fun node => (harvest language file above node).2)
    nodes.zipIdx
  rw [List.zipIdx_map_fst] at hmap
  rw [harvestAll_eq, hmap]

end Walk

end CallAtlas.Source
