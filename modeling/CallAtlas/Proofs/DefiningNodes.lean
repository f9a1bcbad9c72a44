import CallAtlas.Source.Harvest
import Mathlib.Data.List.Basic

/-!
# What a node defines and calls

A node of a syntax tree is a call of a name if its callee is a plain identifier with that name for
its text (`Calls`).  It makes a definition if it is a function of its language and has a name, of
its own or from the variable that it is bound to (`Makes`).  The form of the definition is that of
the node or depends on where it stands (`IndentedForm`, `ItemForm`).  The fields of a node are read
from its children, and the first child in a field counts (`Node.HasChild`).

`calledName?_eq_some_iff` and `definition?_eq_some_iff` say that the walk finds these calls and
definitions, and no others.
-/

set_option autoImplicit false

namespace CallAtlas.Source

namespace Node

variable {node child : Node} {field : Field} {name : String}

/-- A child is that of a field when it is the first one in the field. -/
def HasChild (node : Node) (field : Field) (child : Node) : Prop :=
  child.field = some field ∧ ∃ before after, node.children = before ++ child :: after ∧
    ∀ other ∈ before, other.field ≠ some field

/-- A node bears a name when the child in the field of names has it for its text, and it is not
empty. -/
structure Bears (node : Node) (name : String) : Prop where
  /-- The text is that of the child. -/
  exists_child : ∃ child, node.HasChild .name child ∧ child.text = name
  /-- It is not empty. -/
  ne_empty : name ≠ ""

/-- The child in a field is an identifier with the given text, which is not empty. -/
structure HasIdentifier (node : Node) (field : Field) (name : String) : Prop where
  /-- The child is an identifier with that text. -/
  exists_child : ∃ child, node.HasChild field child ∧ child.kind = .identifier ∧ child.text = name
  /-- The text is not empty. -/
  ne_empty : name ≠ ""

/-- The child that is found in a field is the first one in it. -/
theorem child?_eq_some_iff : node.child? field = some child ↔ node.HasChild field child := by
  simp [child?, HasChild, List.find?_eq_some_iff_append]

/-- The text that is found in the field of names is a name that the node bears. -/
theorem childText?_eq_some_iff : node.childText? .name = some name ↔ node.Bears name := by
  rw [childText?, Option.filter_eq_some_iff, Option.map_eq_some_iff]
  constructor
  · rintro ⟨⟨child, hchild, htext⟩, hne⟩
    exact ⟨⟨child, child?_eq_some_iff.mp hchild, htext⟩, by simpa using hne⟩
  · rintro ⟨⟨child, hchild, htext⟩, hne⟩
    exact ⟨⟨child, child?_eq_some_iff.mpr hchild, htext⟩, by simpa using hne⟩

/-- The text of an identifier that is found in a field is that of the child there. -/
theorem identifier_eq_some_iff :
    (match node.child? field with
      | some child =>
        if child.kind == .identifier && !child.text.isEmpty then some child.text else none
      | none => none) = some name ↔ node.HasIdentifier field name := by
  cases hchild : node.child? field with
  | none =>
    have hnone : ¬node.HasIdentifier field name := by
      rintro ⟨⟨child, hfirst, -⟩, -⟩
      rw [child?_eq_some_iff.mpr hfirst] at hchild
      exact Option.some_ne_none child hchild
    simp [hnone]
  | some child =>
    have hfirst := child?_eq_some_iff.mp hchild
    simp only [Option.ite_none_right_eq_some, Bool.and_eq_true, beq_iff_eq, Bool.not_eq_true',
      String.isEmpty_eq_false_iff, Option.some.injEq]
    constructor
    · rintro ⟨⟨hkind, hne⟩, rfl⟩
      exact ⟨⟨child, hfirst, hkind, rfl⟩, hne⟩
    · rintro ⟨⟨other, hother, hkind, rfl⟩, hne⟩
      obtain rfl : child = other :=
        Option.some.inj (hchild.symm.trans (child?_eq_some_iff.mpr hother))
      exact ⟨⟨hkind, hne⟩, rfl⟩

end Node

variable {language : Language} {above : List Node} {node : Node} {name : String}
  {form : DefinitionKind}

/-! ## Calls -/

/-- A node is a call of a name when it calls an identifier with that text. -/
structure Calls (node : Node) (name : String) : Prop where
  /-- It is a call. -/
  kind_eq : node.kind = .call
  /-- What is called is an identifier with that text. -/
  callee : node.HasIdentifier .callee name

/-- The walk counts a call of a name where a node is one. -/
theorem calledName?_eq_some_iff : calledName? node = some name ↔ Calls node name := by
  rw [calledName?]
  split
  · rename_i hkind
    rw [beq_iff_eq] at hkind
    exact Node.identifier_eq_some_iff.trans ⟨fun h => ⟨hkind, h⟩, Calls.callee⟩
  · rename_i hkind
    have hnone : ¬Calls node name := fun h => hkind (beq_iff_eq.mpr h.kind_eq)
    simp [hnone]

/-! ## Forms -/

/-- Some nodes stand around a function if they are those above it, but for one that only adds
decorators. -/
def Around (above around : List Node) : Prop :=
  (∃ parent, above = parent :: around ∧ parent.kind = .decorated) ∨
    (above = around ∧ ∀ parent ∈ above.head?, parent.kind ≠ .decorated)

/-- A place is that of a module if nothing but a module is right around it. -/
def InModule (around : List Node) : Prop :=
  ∀ parent ∈ around.head?, parent.kind = .module

/-- A place is that of a class if it is in the block of one. -/
def InClass (around : List Node) : Prop :=
  ∃ body owner rest, around = body :: owner :: rest ∧ body.kind = .block ∧ owner.kind = .classDef

/-- A place is that of members if it is in the members of an implementation or an interface. -/
def InMembers (above : List Node) : Prop :=
  ∃ members owner rest, above = members :: owner :: rest ∧ members.kind = .members ∧
    (owner.kind = .implementation ∨ owner.kind = .interface)

/-- The form of a function by the nodes around it, where blocks are indented. -/
inductive IndentedForm (around : List Node) : DefinitionKind → Prop where
  /-- A function of a module. -/
  | moduleLevel (hmodule : InModule around) : IndentedForm around .moduleLevel
  /-- A function of a class. -/
  | method (hclass : InClass around) : IndentedForm around .method
  /-- Any other function. -/
  | declaration (hmodule : ¬InModule around) (hclass : ¬InClass around) :
      IndentedForm around .declaration

/-- The form of a function item by the nodes above it. -/
inductive ItemForm (above : List Node) : DefinitionKind → Prop where
  /-- A member of an implementation or an interface. -/
  | method (hmembers : InMembers above) : ItemForm above .method
  /-- Any other item. -/
  | declaration (hmembers : ¬InMembers above) : ItemForm above .declaration

/-- The nodes that are left without decorators are those around a function. -/
theorem undecorated_eq_iff {around : List Node} :
    undecorated above = around ↔ Around above around := by
  cases above with
  | nil => simp [undecorated, Around]
  | cons parent rest =>
    by_cases hparent : parent.kind = .decorated
    · simp [undecorated, Around, hparent]
    · simp [undecorated, Around, hparent]

/-- A place is not both that of a module and that of a class. -/
theorem not_inClass_of_inModule {around : List Node} (h : InModule around) : ¬InClass around := by
  rintro ⟨body, owner, rest, rfl, hbody, -⟩
  rw [h body rfl] at hbody
  exact absurd hbody (by decide)

/-- The walk finds a form of a function where blocks are indented. -/
theorem indentedForm_indentedKind (above : List Node) :
    IndentedForm (undecorated above) (indentedKind above) := by
  unfold indentedKind
  generalize undecorated above = around
  split
  · rename_i hkinds
    obtain rfl := List.map_eq_nil_iff.mp hkinds
    exact .moduleLevel (by simp [InModule])
  · rename_i hkinds
    obtain ⟨parent, rest, rfl, hparent, -⟩ := List.map_eq_cons_iff.mp hkinds
    exact .moduleLevel (by simp [InModule, hparent])
  · rename_i hkinds
    obtain ⟨body, more, rfl, hbody, hmore⟩ := List.map_eq_cons_iff.mp hkinds
    obtain ⟨owner, rest, rfl, howner, -⟩ := List.map_eq_cons_iff.mp hmore
    exact .method ⟨body, owner, rest, rfl, hbody, howner⟩
  · rename_i hnone hmodule hclass
    refine .declaration (fun hin => ?_) ?_
    · cases around with
      | nil => exact hnone rfl
      | cons parent rest => exact hmodule _ (by rw [List.map_cons, hin parent rfl])
    · rintro ⟨body, owner, rest, rfl, hbody, howner⟩
      exact hclass _ (by rw [List.map_cons, List.map_cons, hbody, howner])

/-- A function has one form by the nodes around it. -/
theorem IndentedForm.eq {around : List Node} {form' : DefinitionKind} (h : IndentedForm around form)
    (h' : IndentedForm around form') : form = form' := by
  cases h with
  | moduleLevel hmodule =>
    cases h' with
    | moduleLevel => rfl
    | method hclass => exact absurd hclass (not_inClass_of_inModule hmodule)
    | declaration hother => exact absurd hmodule hother
  | method hclass =>
    cases h' with
    | moduleLevel hmodule => exact absurd hclass (not_inClass_of_inModule hmodule)
    | method => rfl
    | declaration _ hother => exact absurd hclass hother
  | declaration hmodule hclass =>
    cases h' with
    | moduleLevel hother => exact absurd hother hmodule
    | method hother => exact absurd hother hclass
    | declaration => rfl

/-- The walk finds the form of a function where blocks are indented. -/
theorem indentedKind_eq_iff :
    indentedKind above = form ↔ ∃ around, Around above around ∧ IndentedForm around form := by
  constructor
  · rintro rfl
    exact ⟨_, undecorated_eq_iff.mp rfl, indentedForm_indentedKind above⟩
  · rintro ⟨around, haround, hform⟩
    obtain rfl := undecorated_eq_iff.mpr haround
    exact (indentedForm_indentedKind above).eq hform

/-- The walk finds a form of an item. -/
theorem itemForm_itemKind (above : List Node) : ItemForm above (itemKind above) := by
  have hmembers : ∀ {kind : NodeKind} {kinds : List NodeKind},
      above.map Node.kind = .members :: kind :: kinds →
        kind = .implementation ∨ kind = .interface → InMembers above := by
    rintro kind kinds hkinds howner
    obtain ⟨members, more, rfl, hmembers, hmore⟩ := List.map_eq_cons_iff.mp hkinds
    obtain ⟨owner, rest, rfl, rfl, -⟩ := List.map_eq_cons_iff.mp hmore
    exact ⟨members, owner, rest, rfl, hmembers, howner⟩
  unfold itemKind
  split
  · rename_i hkinds
    exact .method (hmembers hkinds (Or.inl rfl))
  · rename_i hkinds
    exact .method (hmembers hkinds (Or.inr rfl))
  · rename_i himplementation hinterface
    refine .declaration ?_
    rintro ⟨members, owner, rest, rfl, hmembers, howner | howner⟩
    · exact himplementation _ (by rw [List.map_cons, List.map_cons, hmembers, howner])
    · exact hinterface _ (by rw [List.map_cons, List.map_cons, hmembers, howner])

/-- An item has one form by the nodes above it. -/
theorem ItemForm.eq {form' : DefinitionKind} (h : ItemForm above form) (h' : ItemForm above form') :
    form = form' := by
  cases h with
  | method hmembers =>
    cases h' with
    | method => rfl
    | declaration hother => exact absurd hmembers hother
  | declaration hmembers =>
    cases h' with
    | method hother => exact absurd hother hmembers
    | declaration => rfl

/-- The walk finds the form of an item. -/
theorem itemKind_eq_iff : itemKind above = form ↔ ItemForm above form :=
  ⟨fun h => h ▸ itemForm_itemKind above, fun h => (itemForm_itemKind above).eq h⟩

/-! ## Definitions -/

/-- A node makes a definition with a name and a form; `above` holds the nodes around it, the nearest
first. -/
inductive Makes : Language → List Node → Node → String → DefinitionKind → Prop where
  /-- A function of a language of indented blocks has its form from the nodes around it. -/
  | indented {above around : List Node} {node : Node} {name : String} {form : DefinitionKind}
      (hkind : node.kind = .function) (hname : node.Bears name) (haround : Around above around)
      (hform : IndentedForm around form) : Makes .python above node name form
  /-- A function item has its form from the nodes above it. -/
  | item {above : List Node} {node : Node} {name : String} {form : DefinitionKind}
      (hkind : node.kind = .function) (hname : node.Bears name) (hform : ItemForm above form) :
      Makes .rust above node name form
  /-- A script declares functions and generators. -/
  | declared {language : Language} {above : List Node} {node : Node} {name : String}
      (hscript : language = .javascript ∨ language = .typescript)
      (hkind : node.kind = .function ∨ node.kind = .generator) (hname : node.Bears name) :
      Makes language above node name .declaration
  /-- The methods of a script bear names too. -/
  | method {language : Language} {above : List Node} {node : Node} {name : String}
      (hscript : language = .javascript ∨ language = .typescript) (hkind : node.kind = .method)
      (hname : node.Bears name) : Makes language above node name .method
  /-- A function value of a script has the name of the variable that it is bound to. -/
  | bound {language : Language} {above : List Node} {parent node : Node} {name : String}
      (hscript : language = .javascript ∨ language = .typescript)
      (hkind : node.kind = .arrow ∨ node.kind = .functionValue)
      (hparent : parent.kind = .declarator) (hname : parent.HasIdentifier .name name) :
      Makes language (parent :: above) node name .arrow

/-- A function value is bound to the identifier that the node around it declares. -/
theorem boundName?_eq_some_iff : boundName? above = some name ↔
    ∃ parent rest, above = parent :: rest ∧ parent.kind = .declarator ∧
      parent.HasIdentifier .name name := by
  cases above with
  | nil => simp [boundName?]
  | cons parent rest =>
    simp only [boundName?, List.cons.injEq]
    split
    · rename_i hkind
      rw [beq_iff_eq] at hkind
      refine Node.identifier_eq_some_iff.trans ⟨fun h => ⟨parent, rest, ⟨rfl, rfl⟩, hkind, h⟩, ?_⟩
      rintro ⟨_, _, ⟨rfl, rfl⟩, -, h⟩
      exact h
    · rename_i hkind
      simp only [reduceCtorEq, false_iff]
      rintro ⟨_, _, ⟨rfl, rfl⟩, hparent, -⟩
      exact hkind (beq_iff_eq.mpr hparent)

/-- A node with a name of its own has that name and a given form. -/
theorem map_childText?_eq_some_iff {form' : DefinitionKind} :
    (node.childText? .name).map (fun name => (name, form')) = some (name, form) ↔
      node.Bears name ∧ form' = form := by
  simp only [Option.map_eq_some_iff, Prod.mk.injEq, Node.childText?_eq_some_iff]
  constructor
  · rintro ⟨_, hname, rfl, rfl⟩
    exact ⟨hname, rfl⟩
  · rintro ⟨hname, rfl⟩
    exact ⟨name, hname, rfl, rfl⟩

/-- A script makes a definition of a function value where it is bound. -/
theorem map_boundName?_eq_some_iff :
    (boundName? above).map (fun name => (name, DefinitionKind.arrow)) = some (name, form) ↔
      (∃ parent rest, above = parent :: rest ∧ parent.kind = .declarator ∧
        parent.HasIdentifier .name name) ∧ .arrow = form := by
  simp only [Option.map_eq_some_iff, Prod.mk.injEq, boundName?_eq_some_iff]
  constructor
  · rintro ⟨_, hname, rfl, rfl⟩
    exact ⟨hname, rfl⟩
  · rintro ⟨hname, rfl⟩
    exact ⟨name, hname, rfl, rfl⟩

/-- What the walk finds in a script is made by the node. -/
theorem makes_of_script (hscript : language = .javascript ∨ language = .typescript)
    (h : definition? language above node = some (name, form)) :
    Makes language above node name form := by
  have hsame : definition? language above node = definition? .javascript above node := by
    rcases hscript with rfl | rfl <;> rfl
  rw [hsame] at h
  cases hkind : node.kind <;> simp only [definition?, hkind, reduceCtorEq] at h
  case function =>
    obtain ⟨hname, rfl⟩ := map_childText?_eq_some_iff.mp h
    exact .declared hscript (Or.inl hkind) hname
  case generator =>
    obtain ⟨hname, rfl⟩ := map_childText?_eq_some_iff.mp h
    exact .declared hscript (Or.inr hkind) hname
  case method =>
    obtain ⟨hname, rfl⟩ := map_childText?_eq_some_iff.mp h
    exact .method hscript hkind hname
  case arrow =>
    obtain ⟨⟨parent, rest, rfl, hparent, hname⟩, rfl⟩ := map_boundName?_eq_some_iff.mp h
    exact .bound hscript (Or.inl hkind) hparent hname
  case functionValue =>
    obtain ⟨⟨parent, rest, rfl, hparent, hname⟩, rfl⟩ := map_boundName?_eq_some_iff.mp h
    exact .bound hscript (Or.inr hkind) hparent hname

/-- The walk makes a definition where a node makes one. -/
theorem definition?_eq_some_iff :
    definition? language above node = some (name, form) ↔ Makes language above node name form := by
  constructor
  · intro h
    cases language with
    | python =>
      simp only [definition?, Option.ite_none_right_eq_some, beq_iff_eq] at h
      obtain ⟨hname, hform⟩ := map_childText?_eq_some_iff.mp h.2
      obtain ⟨around, haround, hform⟩ := indentedKind_eq_iff.mp hform
      exact .indented h.1 hname haround hform
    | rust =>
      simp only [definition?, Option.ite_none_right_eq_some, beq_iff_eq] at h
      obtain ⟨hname, hform⟩ := map_childText?_eq_some_iff.mp h.2
      exact .item h.1 hname (itemKind_eq_iff.mp hform)
    | javascript => exact makes_of_script (Or.inl rfl) h
    | typescript => exact makes_of_script (Or.inr rfl) h
    | unknown => exact absurd h (by simp [definition?])
  · intro h
    cases h with
    | indented hkind hname haround hform =>
      have hsame := indentedKind_eq_iff.mpr ⟨_, haround, hform⟩
      simp [definition?, hkind, map_childText?_eq_some_iff.mpr ⟨hname, hsame⟩]
    | item hkind hname hform =>
      have hsame := itemKind_eq_iff.mpr hform
      simp [definition?, hkind, map_childText?_eq_some_iff.mpr ⟨hname, hsame⟩]
    | declared hscript hkind hname =>
      rcases hscript with rfl | rfl <;> rcases hkind with hkind | hkind <;>
        simp [definition?, hkind, map_childText?_eq_some_iff.mpr ⟨hname, rfl⟩]
    | method hscript hkind hname =>
      rcases hscript with rfl | rfl <;>
        simp [definition?, hkind, map_childText?_eq_some_iff.mpr ⟨hname, rfl⟩]
    | @bound _ rest parent _ _ hscript hkind hparent hname =>
      have hbound := map_boundName?_eq_some_iff.mpr ⟨⟨parent, rest, rfl, hparent, hname⟩, rfl⟩
      rcases hscript with rfl | rfl <;> rcases hkind with hkind | hkind <;>
        simp [definition?, hkind, hbound]

end CallAtlas.Source
