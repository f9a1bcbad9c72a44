import CallAtlas.Proofs.DefiningNodes
import CallAtlas.Proofs.TreeHarvest
import Mathlib.Data.List.Forall2

/-!
# The innermost definition around a call

A definition encloses an address when it lies above it and no other definition lies between the
two (`Encloses`).  The walk over a syntax tree yields one definition for every defining node, in
preorder, and the calls of that definition are those that it encloses; this is the main statement,
`definitions_record_defining_nodes`.

A subtree leaves to the definition around it the calls that nothing in the subtree encloses
(`mem_harvest_iff`), and these are what the node above encloses if it makes a definition.
-/

set_option autoImplicit false

namespace CallAtlas.Source

/-- The name and form of the definition that the node at an address makes, if it makes one; `outer`
holds the nodes around the tree. -/
def definitionAt? (language : Language) (outer : List Node) (root : Node) (p : List Nat) :
    Option (String × DefinitionKind) :=
  (root.at? p).bind (definition? language (root.above outer p))

/-- The name that the node at an address calls, if it is a call of a bare identifier. -/
def calledAt? (root : Node) (p : List Nat) : Option String :=
  (root.at? p).bind calledName?

/-- The defining node at the first address is the nearest one above the second. -/
structure Encloses (language : Language) (outer : List Node) (root : Node) (p q : List Nat) :
    Prop where
  /-- It makes a definition. -/
  isDefinition : (definitionAt? language outer root p).isSome
  /-- It lies on the way to the other address. -/
  isAbove : p <+: q
  /-- It is not the node at the other address itself. -/
  ne : p ≠ q
  /-- No node between the two makes a definition. -/
  nearest : ∀ r, p <+: r → r <+: q → r ≠ p → r ≠ q → definitionAt? language outer root r = none

/-- A definition describes the node at an address, and its calls are those that the node
encloses. -/
structure Records (language : Language) (file : String) (outer : List Node) (root : Node)
    (p : List Nat) (d : Definition) : Prop where
  /-- It has the name, the form and the line of the node. -/
  describes : ∃ node, root.at? p = some node ∧
    Makes language (root.above outer p) node d.name d.kind ∧ d.line = node.row + 1
  /-- It stands in the file that was read. -/
  file_eq : d.file = file
  /-- It calls a name when a call of that name is enclosed. -/
  calls_iff : ∀ callee, callee ∈ d.calls ↔ ∃ q node, Encloses language outer root p q ∧
    root.at? q = some node ∧ Calls node callee

variable {language : Language} {file : String} {outer : List Node} {root child : Node}
  {i : Nat} {p q : List Nat}

/-- What is called at an address is what the node there calls. -/
theorem exists_calls_iff {callee : String} :
    (∃ q node, Encloses language outer root p q ∧ root.at? q = some node ∧ Calls node callee) ↔
      ∃ q, Encloses language outer root p q ∧ calledAt? root q = some callee := by
  simp only [calledAt?, Option.bind_eq_some_iff, calledName?_eq_some_iff, exists_and_left]

/-- What is defined at an address is what the node there makes. -/
theorem definitionAt?_eq_some_iff {name : String} {form : DefinitionKind} :
    definitionAt? language outer root p = some (name, form) ↔
      ∃ node, root.at? p = some node ∧ Makes language (root.above outer p) node name form := by
  simp only [definitionAt?, Option.bind_eq_some_iff, definition?_eq_some_iff]

/-! ## Addresses below a child -/

section Child

variable (hchild : root.children[i]? = some child)

include hchild

/-- Below a child definitions are looked for with the node among those around it. -/
theorem definitionAt?_cons (p : List Nat) :
    definitionAt? language outer root (i :: p) =
      definitionAt? language (root :: outer) child p := by
  simp [definitionAt?, Node.at?, Node.above, hchild]

/-- Below a child calls are looked for as in the tree of the child. -/
theorem calledAt?_cons (p : List Nat) : calledAt? root (i :: p) = calledAt? child p := by
  simp [calledAt?, Node.at?, hchild]

/-- One address below a child encloses another as they do in the tree of the child. -/
theorem encloses_cons :
    Encloses language outer root (i :: p) (i :: q) ↔
      Encloses language (root :: outer) child p q := by
  have hdefinition : ∀ p, definitionAt? language outer root (i :: p) =
      definitionAt? language (root :: outer) child p := definitionAt?_cons hchild
  constructor
  · intro h
    refine ⟨by simpa [hdefinition] using h.isDefinition, (List.cons_prefix_cons.mp h.isAbove).2,
      fun heq => h.ne (congrArg (i :: ·) heq), fun r hpr hrq hrp hrne => ?_⟩
    rw [← hdefinition]
    exact h.nearest (i :: r) (List.cons_prefix_cons.mpr ⟨rfl, hpr⟩)
      (List.cons_prefix_cons.mpr ⟨rfl, hrq⟩) (by simpa using hrp) (by simpa using hrne)
  · intro h
    refine ⟨by simpa [hdefinition] using h.isDefinition, List.cons_prefix_cons.mpr ⟨rfl, h.isAbove⟩,
      by simpa using h.ne, fun r hpr hrq hrp hrne => ?_⟩
    obtain ⟨r, rfl⟩ : ∃ r', r = i :: r' := by
      obtain ⟨rest, rfl⟩ := hpr
      exact ⟨p ++ rest, rfl⟩
    rw [hdefinition]
    exact h.nearest r (List.cons_prefix_cons.mp hpr).2 (List.cons_prefix_cons.mp hrq).2
      (by simpa using hrp) (by simpa using hrne)

end Child

/-- A call stands at the root or below one of its children. -/
theorem exists_calledAt_iff {P : List Nat → Prop} {callee : String} :
    (∃ q, P q ∧ calledAt? root q = some callee) ↔
      (P [] ∧ calledName? root = some callee) ∨
        ∃ i child, root.children[i]? = some child ∧
          ∃ q, P (i :: q) ∧ calledAt? child q = some callee := by
  constructor
  · rintro ⟨q, hP, hcalled⟩
    cases q with
    | nil => exact Or.inl ⟨hP, hcalled⟩
    | cons i q =>
      obtain ⟨node, hnode, -⟩ := Option.bind_eq_some_iff.mp hcalled
      obtain ⟨child, hchild, -⟩ := Option.bind_eq_some_iff.mp hnode
      exact Or.inr ⟨i, child, hchild, q, hP, calledAt?_cons hchild q ▸ hcalled⟩
  · rintro (⟨hP, hcalled⟩ | ⟨i, child, hchild, q, hP, hcalled⟩)
    · exact ⟨[], hP, hcalled⟩
    · exact ⟨i :: q, hP, (calledAt?_cons hchild q).trans hcalled⟩

/-! ## Calls that a subtree leaves -/

/-- No definition stands at an address or above it. -/
def Unclaimed (language : Language) (outer : List Node) (root : Node) (q : List Nat) : Prop :=
  ∀ r, r <+: q → definitionAt? language outer root r = none

/-- A call at the root is unclaimed if the root makes no definition. -/
theorem unclaimed_nil :
    Unclaimed language outer root [] ↔ definition? language outer root = none := by
  simp [Unclaimed, definitionAt?, Node.at?, Node.above]

/-- A call below a child is unclaimed if neither the root nor anything in the tree of the child
claims it. -/
theorem unclaimed_cons (hchild : root.children[i]? = some child) :
    Unclaimed language outer root (i :: q) ↔
      definition? language outer root = none ∧ Unclaimed language (root :: outer) child q := by
  constructor
  · intro h
    refine ⟨h [] List.nil_prefix, fun r hr => ?_⟩
    rw [← definitionAt?_cons hchild]
    exact h (i :: r) (List.cons_prefix_cons.mpr ⟨rfl, hr⟩)
  · rintro ⟨hroot, hbelow⟩ r hr
    rcases List.prefix_cons_iff.mp hr with rfl | ⟨rest, rfl, hrest⟩
    · exact hroot
    · rw [definitionAt?_cons hchild]
      exact hbelow rest hrest

/-- A call makes no definition. -/
theorem definition?_of_calledName? {above : List Node} {node : Node} {callee : String}
    (h : calledName? node = some callee) : definition? language above node = none := by
  have hkind : node.kind = .call := by
    by_contra hne
    simp [calledName?, hne] at h
  cases language <;> simp [definition?, hkind]

/-- A subtree leaves to the definition around it the calls that no definition in it claims. -/
theorem mem_harvest_iff {callee : String} (node : Node) :
    callee ∈ (harvest language file outer node).1 ↔
      ∃ q, Unclaimed language outer node q ∧ calledAt? node q = some callee := by
  induction node using Node.induct generalizing outer with
  | node kind field row text children ih =>
    rw [harvest]
    cases hmade : definition? language outer (.mk kind field row text children) with
    | some made =>
      have hclaimed : ∀ q, ¬Unclaimed language outer (.mk kind field row text children) q := by
        intro q h
        have hroot := unclaimed_nil.mp fun r hr => h r (hr.trans List.nil_prefix)
        exact Option.some_ne_none made (hmade.symm.trans hroot)
      simp [hclaimed]
    | none =>
      have hbelow : ∀ i child, children[i]? = some child →
          (callee ∈ (harvest language file (.mk kind field row text children :: outer) child).1 ↔
            ∃ q, Unclaimed language outer (.mk kind field row text children) (i :: q) ∧
              calledAt? child q = some callee) := by
        intro i child hchild
        have hroot : (Node.mk kind field row text children).children[i]? = some child := hchild
        rw [ih child (List.mem_of_getElem? hchild)]
        simp only [unclaimed_cons hroot, hmade, true_and]
      rw [exists_calledAt_iff, unclaimed_nil, harvestAll_eq, List.mem_append, Option.mem_toList,
        List.mem_flatMap]
      refine or_congr (by simp [hmade]) ?_
      constructor
      · rintro ⟨child, hmem, hcallee⟩
        obtain ⟨i, hchild⟩ := List.mem_iff_getElem?.mp hmem
        exact ⟨i, child, hchild, (hbelow i child hchild).mp hcallee⟩
      · rintro ⟨i, child, hchild, hcalls⟩
        exact ⟨child, List.mem_of_getElem? hchild, (hbelow i child hchild).mpr hcalls⟩

/-! ## Definitions of a subtree -/

/-- The addresses of the defining nodes in preorder. -/
def definingAddresses (language : Language) (outer : List Node) (root : Node) : List (List Nat) :=
  root.addresses.filter fun p => (definitionAt? language outer root p).isSome

/-- The defining addresses are those at which a definition stands. -/
theorem mem_definingAddresses_iff :
    p ∈ definingAddresses language outer root ↔ (definitionAt? language outer root p).isSome := by
  rw [definingAddresses, List.mem_filter, Node.mem_addresses_iff]
  refine and_iff_right_of_imp fun h => ?_
  obtain ⟨made, hmade⟩ := Option.isSome_iff_exists.mp h
  obtain ⟨node, hnode, -⟩ := Option.bind_eq_some_iff.mp hmade
  exact Option.isSome_iff_exists.mpr ⟨node, hnode⟩

/-- The defining addresses are the root's, if it makes a definition, and those below its
children. -/
theorem definingAddresses_mk (kind : NodeKind) (field : Option Field) (row : Nat) (text : String)
    (children : List Node) :
    definingAddresses language outer (.mk kind field row text children) =
      (if (definition? language outer (.mk kind field row text children)).isSome then [[]]
        else []) ++
        children.zipIdx.flatMap fun c =>
          (definingAddresses language (.mk kind field row text children :: outer) c.1).map
            (c.2 :: ·) := by
  rw [definingAddresses, Node.addresses_mk, ← List.singleton_append, List.filter_append,
    List.filter_flatMap]
  congr 1
  · rw [List.filter_singleton, Bool.cond_eq_ite]
    rfl
  · refine List.flatMap_congr fun c hc => ?_
    rw [List.filter_map, definingAddresses]
    refine congrArg (List.map _) (List.filter_congr fun p _ => ?_)
    rw [Function.comp_apply, definitionAt?_cons (List.mem_zipIdx_iff_getElem?.mp hc)]

/-- What is recorded in the tree of a child is recorded below the child. -/
theorem Records.below {d : Definition} (hchild : root.children[i]? = some child)
    (h : Records language file (root :: outer) child p d) :
    Records language file outer root (i :: p) d where
  describes := by
    obtain ⟨node, hnode, hmade, hline⟩ := h.describes
    refine ⟨node, ?_, ?_, hline⟩
    · rw [Node.at?, hchild, Option.bind_some, hnode]
    · rw [Node.above, hchild]
      exact hmade
  file_eq := h.file_eq
  calls_iff callee := by
    rw [h.calls_iff, exists_calls_iff, exists_calls_iff]
    constructor
    · rintro ⟨q, hencloses, hcalled⟩
      exact ⟨i :: q, (encloses_cons hchild).mpr hencloses, (calledAt?_cons hchild q).trans hcalled⟩
    · rintro ⟨q, hencloses, hcalled⟩
      obtain ⟨rest, rfl⟩ := hencloses.isAbove
      rw [List.cons_append] at hencloses hcalled
      exact ⟨p ++ rest, (encloses_cons hchild).mp hencloses,
        (calledAt?_cons hchild _).symm.trans hcalled⟩

/-- A defining root encloses the calls that its children leave to it. -/
theorem encloses_root_iff (hroot : (definition? language outer root).isSome)
    (hchild : root.children[i]? = some child) {callee : String}
    (hcalled : calledAt? child q = some callee) :
    Encloses language outer root [] (i :: q) ↔ Unclaimed language (root :: outer) child q := by
  constructor
  · intro h r hr
    by_cases hrq : r = q
    · subst hrq
      obtain ⟨node, hnode, hcall⟩ := Option.bind_eq_some_iff.mp hcalled
      rw [definitionAt?, hnode, Option.bind_some]
      exact definition?_of_calledName? hcall
    · rw [← definitionAt?_cons hchild]
      exact h.nearest (i :: r) List.nil_prefix (List.cons_prefix_cons.mpr ⟨rfl, hr⟩)
        (List.cons_ne_nil i r) (by simpa using hrq)
  · intro h
    refine ⟨hroot, List.nil_prefix, (List.cons_ne_nil i q).symm, fun r _ hrq hne _ => ?_⟩
    rcases List.prefix_cons_iff.mp hrq with rfl | ⟨rest, rfl, hrest⟩
    · exact absurd rfl hne
    · rw [definitionAt?_cons hchild]
      exact h rest hrest

/-- Lists that correspond piece by piece correspond. -/
theorem forall₂_flatMap {α β γ : Type} {R : β → γ → Prop} {f : α → List β} {g : α → List γ}
    (xs : List α) (h : ∀ x ∈ xs, List.Forall₂ R (f x) (g x)) :
    List.Forall₂ R (xs.flatMap f) (xs.flatMap g) := by
  induction xs with
  | nil => exact List.Forall₂.nil
  | cons x xs ih =>
    exact List.rel_append (h x List.mem_cons_self) (ih fun y hy => h y (List.mem_cons_of_mem x hy))

/-- A defining root records the calls that its children leave to it. -/
theorem records_root {name : String} {form : DefinitionKind}
    (hmade : definition? language outer root = some (name, form)) :
    Records language file outer root [] ⟨name, file, root.row + 1, form,
      NameSet.ofList (harvestAll language file (root :: outer) root.children).1⟩ where
  describes := ⟨root, rfl, definition?_eq_some_iff.mp hmade, rfl⟩
  file_eq := rfl
  calls_iff callee := by
    rw [exists_calls_iff]
    have hroot : (definition? language outer root).isSome := hmade ▸ rfl
    have hself : ¬Encloses language outer root [] [] := fun h => h.ne rfl
    rw [NameSet.mem_ofList, harvestAll_eq, List.mem_flatMap, exists_calledAt_iff]
    simp only [hself, false_and, false_or, mem_harvest_iff]
    constructor
    · rintro ⟨child, hmem, q, hunclaimed, hcalled⟩
      obtain ⟨i, hchild⟩ := List.mem_iff_getElem?.mp hmem
      exact ⟨i, child, hchild, q, (encloses_root_iff hroot hchild hcalled).mpr hunclaimed, hcalled⟩
    · rintro ⟨i, child, hchild, q, hencloses, hcalled⟩
      exact ⟨child, List.mem_of_getElem? hchild, q,
        (encloses_root_iff hroot hchild hcalled).mp hencloses, hcalled⟩

/-- The definitions in a subtree are those of its defining nodes, in preorder. -/
theorem forall₂_records (node : Node) :
    List.Forall₂ (Records language file outer node) (definingAddresses language outer node)
      (harvest language file outer node).2 := by
  induction node using Node.induct generalizing outer with
  | node kind field row text children ih =>
    have hbelow : List.Forall₂ (Records language file outer (.mk kind field row text children))
        (children.zipIdx.flatMap fun c =>
          (definingAddresses language (.mk kind field row text children :: outer) c.1).map
            (c.2 :: ·))
        (harvestAll language file (.mk kind field row text children :: outer) children).2 := by
      rw [snd_harvestAll]
      refine forall₂_flatMap _ fun c hc => List.forall₂_map_left_iff.mpr ?_
      refine (ih c.1 (List.fst_mem_of_mem_zipIdx hc)).imp fun p d h => h.below ?_
      exact List.mem_zipIdx_iff_getElem?.mp hc
    rw [definingAddresses_mk, harvest]
    cases hmade : definition? language outer (.mk kind field row text children) with
    | some made => exact List.Forall₂.cons (records_root hmade) hbelow
    | none => exact hbelow

/-! ## The whole walk -/

/-- The innermost definition around a node is its parent, if that makes a definition, and otherwise
the innermost definition around the parent. -/
theorem encloses_concat_iff {r : List Nat} :
    Encloses language outer root r (p ++ [i]) ↔
      if (definitionAt? language outer root p).isSome then r = p
      else Encloses language outer root r p := by
  have hlonger : ∀ {s : List Nat}, s <+: p → s ≠ p ++ [i] := by
    rintro s hs rfl
    have hlength := hs.length_le
    rw [List.length_append, List.length_singleton] at hlength
    omega
  have hshorter : ∀ {s : List Nat}, s <+: p ++ [i] → s ≠ p ++ [i] → s <+: p :=
    fun hs hne => (List.prefix_concat_iff.mp hs).resolve_left hne
  split
  · rename_i hmade
    constructor
    · intro h
      by_contra hne
      have hnone := h.nearest p (hshorter h.isAbove h.ne) (List.prefix_append p [i]) (Ne.symm hne)
        (hlonger (List.prefix_refl p))
      rw [hnone] at hmade
      exact Bool.false_ne_true hmade
    · rintro rfl
      refine ⟨hmade, List.prefix_append r [i], hlonger (List.prefix_refl r), ?_⟩
      intro s hrs hs hsr hne
      exact absurd ((hshorter hs hne).eq_of_length (Nat.le_antisymm (hshorter hs hne).length_le
        hrs.length_le)) hsr
  · rename_i hmade
    have hnone : definitionAt? language outer root p = none := by simpa using hmade
    constructor
    · intro h
      refine ⟨h.isDefinition, hshorter h.isAbove h.ne, ?_, fun s hrs hs hsr _ => ?_⟩
      · rintro rfl
        exact hmade h.isDefinition
      · exact h.nearest s hrs (hs.trans (List.prefix_append p [i])) hsr (hlonger hs)
    · intro h
      refine ⟨h.isDefinition, h.isAbove.trans (List.prefix_append p [i]), hlonger h.isAbove,
        fun s hrs hs hsr hne => ?_⟩
      by_cases heq : s = p
      · rwa [heq]
      · exact h.nearest s hrs (hshorter hs hne) hsr heq

/-- **The walk over a syntax tree yields one definition for every defining node, in preorder.**
Each has the name, form and line of its node, and it calls what is called at the addresses whose
nearest defining node it is.  So a call that no definition encloses counts for none, and a node
that gets no name passes the calls below it on.  The defining nodes are those that make a definition
in their language. -/
theorem definitions_record_defining_nodes (language : Language) (file : String) (root : Node) :
    ∃ places : List (List Nat), places.Pairwise (· < ·) ∧
      (∀ p, p ∈ places ↔ (definitionAt? language [] root p).isSome) ∧
      (∀ p name form, definitionAt? language [] root p = some (name, form) ↔
        ∃ node, root.at? p = some node ∧ Makes language (root.above [] p) node name form) ∧
      List.Forall₂ (Records language file [] root) places (definitions language file root) ∧
      ∀ p i r, Encloses language [] root r (p ++ [i]) ↔
        if (definitionAt? language [] root p).isSome then r = p
        else Encloses language [] root r p := by
  refine ⟨definingAddresses language [] root, (Node.addresses_increasing root).filter _,
    fun p => mem_definingAddresses_iff, fun p name form => definitionAt?_eq_some_iff, ?_,
    fun p i r => encloses_concat_iff⟩
  rw [definitions_eq]
  exact forall₂_records root

end CallAtlas.Source
