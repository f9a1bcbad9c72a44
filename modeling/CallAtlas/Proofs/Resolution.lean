import CallAtlas.Definition
import Mathlib.Data.Finset.Card
import Mathlib.Data.Finset.Dedup

/-!
# The definition a name stands for

Of several definitions of one name, `resolve` takes the last one.  `IsLast` says this without a
search: nothing after the definition has its name.  The main statement is `resolve_eq_some_iff`,
which lets the call trees be described by last definitions alone.

`Step` is the relation that the trees follow: a name leads to the defined names that its last
definition calls.

A search through names ends because the defined names that it has not seen (`unseen`) become fewer
with every new name.
-/

set_option autoImplicit false

namespace CallAtlas

/-- A definition is the last one of its name when none of that name comes after it. -/
def IsLast (defs : List Definition) (d : Definition) : Prop :=
  ∃ before after, defs = before ++ d :: after ∧ ∀ e ∈ after, e.name ≠ d.name

/-- A name is defined when some definition has it. -/
def IsDefined (defs : List Definition) (name : String) : Prop :=
  ∃ d ∈ defs, d.name = name

/-- The defined names, each once. -/
def definedNames (defs : List Definition) : Finset String :=
  (defs.map (·.name)).toFinset

/-- A name leads to the defined names that its last definition calls. -/
def Step (defs : List Definition) (caller callee : String) : Prop :=
  ∃ d, IsLast defs d ∧ d.name = caller ∧ callee ∈ d.calls ∧ IsDefined defs callee

/-- The last definition of a name is one of the definitions. -/
theorem IsLast.mem {defs : List Definition} {d : Definition} (h : IsLast defs d) : d ∈ defs := by
  obtain ⟨before, after, rfl, -⟩ := h
  simp

/-- The name of a last definition is defined. -/
theorem IsLast.isDefined {defs : List Definition} {d : Definition} (h : IsLast defs d) :
    IsDefined defs d.name :=
  ⟨d, h.mem, rfl⟩

/-- The set of the defined names has exactly these. -/
@[simp] theorem mem_definedNames {defs : List Definition} {name : String} :
    name ∈ definedNames defs ↔ IsDefined defs name := by
  simp [definedNames, IsDefined]

/-- A name resolves to a definition exactly when that is the last one of the name. -/
theorem resolve_eq_some_iff {defs : List Definition} {name : String} {d : Definition} :
    resolve defs name = some d ↔ IsLast defs d ∧ d.name = name := by
  unfold resolve
  rw [List.find?_eq_some_iff_append]
  constructor
  · rintro ⟨hname, later, earlier, hsplit, hlater⟩
    have hd : d.name = name := by simpa using hname
    refine ⟨⟨earlier.reverse, later.reverse, ?_, ?_⟩, hd⟩
    · rw [List.reverse_eq_iff] at hsplit
      simp [hsplit]
    · intro e he
      have := hlater e (by simpa using he)
      simpa [hd] using this
  · rintro ⟨⟨before, after, rfl, hafter⟩, hd⟩
    refine ⟨by simp [hd], after.reverse, before.reverse, by simp, ?_⟩
    intro e he
    have := hafter e (by simpa using he)
    simpa [hd] using this

/-- A name resolves to nothing exactly when it is not defined. -/
theorem resolve_eq_none_iff {defs : List Definition} {name : String} :
    resolve defs name = none ↔ ¬IsDefined defs name := by
  simp [resolve, IsDefined]

/-- A defined name resolves to a definition. -/
theorem IsDefined.exists_resolve {defs : List Definition} {name : String}
    (h : IsDefined defs name) : ∃ d, resolve defs name = some d := by
  rw [← Option.ne_none_iff_exists']
  exact fun hnone => resolve_eq_none_iff.mp hnone h

/-- A name that resolves to a definition is defined. -/
theorem isDefined_of_resolve {defs : List Definition} {name : String} {d : Definition}
    (h : resolve defs name = some d) : IsDefined defs name := by
  obtain ⟨hlast, rfl⟩ := resolve_eq_some_iff.mp h
  exact hlast.isDefined

/-- The entry points are the defined names that no definition calls. -/
theorem mem_entryPoints {defs : List Definition} {name : String} :
    name ∈ entryPoints defs ↔ IsDefined defs name ∧ ∀ d ∈ defs, name ∉ d.calls := by
  simp [entryPoints, IsDefined]

/-- An entry point is defined. -/
theorem isDefined_of_mem_entryPoints {defs : List Definition} {name : String}
    (h : name ∈ entryPoints defs) : IsDefined defs name :=
  (mem_entryPoints.mp h).1

/-! ## Names not seen yet -/

/-- The defined names that have not been seen. -/
def unseen (defs : List Definition) (seen : List String) : Finset String :=
  definedNames defs \ seen.toFinset

/-- With more names seen, fewer are unseen. -/
theorem unseen_anti (defs : List Definition) {seen seen' : List String} (h : seen ⊆ seen') :
    unseen defs seen' ⊆ unseen defs seen := by
  refine Finset.sdiff_subset_sdiff (Finset.Subset.refl _) ?_
  intro name hname
  rw [List.mem_toFinset] at hname ⊢
  exact h hname

/-- Nothing is unseen when all defined names have been seen. -/
theorem unseen_eq_empty_iff {defs : List Definition} {seen : List String} :
    unseen defs seen = ∅ ↔ ∀ name, IsDefined defs name → name ∈ seen := by
  simp [unseen, Finset.sdiff_eq_empty_iff_subset, Finset.subset_iff]

/-- Seeing a new defined name leaves fewer unseen. -/
theorem card_unseen_cons_lt {defs : List Definition} {seen : List String} {name : String}
    (hdefined : IsDefined defs name) (hnew : name ∉ seen) :
    (unseen defs (name :: seen)).card < (unseen defs seen).card := by
  apply Finset.card_lt_card
  refine ⟨unseen_anti defs (List.subset_cons_self name seen), fun hsub => ?_⟩
  have hname : name ∈ unseen defs seen := by simp [unseen, hdefined, hnew]
  simpa [unseen] using hsub hname

end CallAtlas
