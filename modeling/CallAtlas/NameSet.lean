/-!
# Sets of names

A finite set of names, kept as its strictly increasing list.  Names are ordered by code point,
which is also the order of their UTF-8 bytes.
-/

set_option autoImplicit false

namespace CallAtlas

/-- A finite set of names, listed in increasing order. -/
structure NameSet where
  /-- The members, each once. -/
  toList : List String
  /-- The members increase strictly. -/
  increasing : toList.Pairwise (· < ·)

namespace NameSet

/-- Two sets with the same list are equal. -/
theorem ext_toList {s t : NameSet} (h : s.toList = t.toList) : s = t := by
  cases s; cases t; cases h; rfl

instance : DecidableEq NameSet := fun s t =>
  if h : s.toList = t.toList then isTrue (ext_toList h)
  else isFalse fun e => h (e ▸ rfl)

/-- The empty set. -/
def empty : NameSet := ⟨[], .nil⟩

instance : Inhabited NameSet := ⟨empty⟩

instance : Membership String NameSet := ⟨fun s name => name ∈ s.toList⟩

instance (name : String) (s : NameSet) : Decidable (name ∈ s) :=
  inferInstanceAs (Decidable (name ∈ s.toList))

/-- A name put at its place in an increasing list that may already hold it. -/
def place (name : String) : List String → List String
  | [] => [name]
  | x :: xs =>
    if name < x then name :: x :: xs
    else if name = x then x :: xs
    else x :: place name xs

/-- Placing a name adds that name and nothing else. -/
theorem mem_place {name y : String} {xs : List String} :
    y ∈ place name xs ↔ y = name ∨ y ∈ xs := by
  induction xs with
  | nil => simp [place]
  | cons x xs ih =>
    unfold place
    split
    · simp
    · split
      · rename_i h; subst h; simp
      · simp only [List.mem_cons, ih]
        exact or_left_comm

/-- Of two names neither of which is smaller, both are the same. -/
theorem lt_of_not_lt_of_ne {a b : String} (h : ¬a < b) (ne : a ≠ b) : b < a :=
  Decidable.byContradiction fun h' => ne (String.le_antisymm (String.not_lt.1 h') (String.not_lt.1 h))

/-- Placing a name keeps a list increasing. -/
theorem pairwise_place {name : String} {xs : List String} (h : xs.Pairwise (· < ·)) :
    (place name xs).Pairwise (· < ·) := by
  induction xs with
  | nil => simp [place]
  | cons x xs ih =>
    rw [List.pairwise_cons] at h
    unfold place
    split
    · rename_i lt
      refine List.pairwise_cons.2 ⟨fun y hy => ?_, List.pairwise_cons.2 h⟩
      rcases List.mem_cons.1 hy with rfl | hy
      · exact lt
      · exact String.lt_trans lt (h.1 y hy)
    · split
      · exact List.pairwise_cons.2 h
      · rename_i nlt ne
        refine List.pairwise_cons.2 ⟨fun y hy => ?_, ih h.2⟩
        rcases mem_place.1 hy with rfl | hy
        · exact lt_of_not_lt_of_ne nlt ne
        · exact h.1 y hy

/-- The set with one name added. -/
def insert (name : String) (s : NameSet) : NameSet :=
  ⟨place name s.toList, pairwise_place s.increasing⟩

/-- The set of the names in a list. -/
def ofList (names : List String) : NameSet :=
  names.foldl (fun s name => s.insert name) empty

/-- The set with all names of a list added. -/
def insertAll (s : NameSet) (names : List String) : NameSet :=
  names.foldl (fun s name => s.insert name) s

instance : Union NameSet := ⟨fun s t => s.insertAll t.toList⟩

/-- Membership in the list of a set is membership in the set. -/
@[simp] theorem mem_toList {name : String} {s : NameSet} : name ∈ s.toList ↔ name ∈ s := Iff.rfl

/-- Inserting a name adds it and keeps the names that were there. -/
@[simp] theorem mem_insert {name y : String} {s : NameSet} :
    y ∈ s.insert name ↔ y = name ∨ y ∈ s :=
  mem_place

/-- Inserting several names adds exactly these. -/
theorem mem_insertAll {y : String} {s : NameSet} {names : List String} :
    y ∈ s.insertAll names ↔ y ∈ s ∨ y ∈ names := by
  induction names generalizing s with
  | nil => simp [insertAll]
  | cons name names ih =>
    have hstep : y ∈ s.insertAll (name :: names) ↔ y ∈ (s.insert name).insertAll names := Iff.rfl
    rw [hstep, ih, mem_insert, List.mem_cons, or_comm (a := y = name), or_assoc]

/-- The set of the names in a list has just these members. -/
@[simp] theorem mem_ofList {y : String} {names : List String} : y ∈ ofList names ↔ y ∈ names := by
  have hempty : y ∉ empty := List.not_mem_nil
  have hall : y ∈ ofList names ↔ y ∈ empty ∨ y ∈ names := mem_insertAll
  simp [hall, hempty]

end NameSet

end CallAtlas
