import CallAtlas.FileTree.Access
import CallAtlas.Proofs.TextLines
import Mathlib.Data.List.Basic
import Mathlib.Data.List.Induction

/-!
# Following paths

A path is followed step by step, and a link on the way is followed with all the steps that come
after it.  So what a path leads to from some point on depends on the point alone, and on how many
links may still be followed (`follow_split`).

All folders above an entry are folders of the tree (`mem_of_above`).  So from any folder above it
an entry that is no link is reached by its names (`followWith_entry`), which are the steps of the
path that they make up (`steps_intercalate`).
-/

set_option autoImplicit false

namespace CallAtlas.FileTree

variable {tree : FileTree} {place folder rel : List String} {item : FileItem}

/-! ## Entries -/

/-- Every step of the path of an entry is a name. -/
theorem isEntryName_of_mem (h : (folder ++ rel, item) ∈ tree.entries) {name : String}
    (hname : name ∈ rel) : isEntryName name := by
  have hpath := tree.named _ h
  rw [isEntryPath, Bool.and_eq_true, List.all_eq_true] at hpath
  exact hpath.2 name (List.mem_append_right folder hname)

/-- What stands above an entry is a folder of the tree. -/
theorem mem_of_above (hfolder : folder ≠ []) (hrel : rel ≠ [])
    (h : (folder ++ rel, item) ∈ tree.entries) : (folder, .folder) ∈ tree.entries := by
  induction rel using List.reverseRecOn generalizing item with
  | nil => exact absurd rfl hrel
  | append_singleton rel name ih =>
    have hhoused := tree.housed _ h
    rw [← List.append_assoc, List.dropLast_concat] at hhoused
    have hparent : (folder ++ rel, FileItem.folder) ∈ tree.entries :=
      hhoused.resolve_left (List.append_ne_nil_of_left_ne_nil hfolder rel)
    by_cases hnil : rel = []
    · rwa [hnil, List.append_nil] at hparent
    · exact ih hnil hparent

/-- What an entry stands below is a folder. -/
theorem hasFolder_of_above (hrel : rel ≠ []) (h : (folder ++ rel, item) ∈ tree.entries) :
    tree.hasFolder folder := by
  rw [hasFolder_iff]
  by_cases hfolder : folder = []
  · exact Or.inl hfolder
  · exact Or.inr (mem_of_above hfolder hrel h)

/-! ## Names and steps -/

/-- The steps of a path that is made up of names are these names. -/
theorem steps_intercalate {names : List String} (hne : names ≠ [])
    (h : ∀ name ∈ names, '/' ∉ name.toList) : steps ("/".intercalate names) = names := by
  have hparts : ∀ part ∈ names.map String.toList, '/' ∉ part := by simpa using h
  have hchars : ("/".intercalate names).toList = Text.joinWith '/' (names.map String.toList) := by
    rw [String.toList_intercalate, Text.joinWith_eq_intercalate]
    rfl
  rw [steps, hchars, Text.splitAt_joinWith (by simpa using hne) hparts, List.map_map]
  simp

/-- The steps of a path are those before a slash and those behind it. -/
theorem steps_append_slash (before after : List Char) :
    steps (String.ofList (before ++ '/' :: after)) =
      steps (String.ofList before) ++ steps (String.ofList after) := by
  simp only [steps, String.toList_ofList, Text.splitAt_append_cons, List.map_append]

/-- The names of an entry are the steps of the path that they make up. -/
theorem steps_of_entry (hrel : rel ≠ []) (h : (folder ++ rel, item) ∈ tree.entries) :
    steps ("/".intercalate rel) = rel := by
  refine steps_intercalate hrel fun name hname => ?_
  have hentry := isEntryName_of_mem h hname
  rw [isEntryName, Bool.and_eq_true] at hentry
  simpa using hentry.2

/-- Any path but the empty one can be followed, along its steps. -/
theorem followable_eq_ok_iff {path : String} {names : List String} :
    followable path = .ok names ↔ path ≠ "" ∧ names = steps path := by
  rw [followable]
  split
  · rename_i hempty
    simp [String.isEmpty_iff.mp hempty]
  · rename_i hempty
    have hne : path ≠ "" := fun h => hempty (String.isEmpty_iff.mpr h)
    simp [hne, eq_comm]

/-- A step has no slash. -/
theorem slash_not_mem_of_mem_steps {path step : String} (h : step ∈ steps path) :
    '/' ∉ step.toList := by
  obtain ⟨part, hpart, rfl⟩ := List.mem_map.mp h
  rw [String.toList_ofList]
  exact Text.not_mem_of_mem_splitAt hpart

/-! ## Steps -/

section Steps

variable {onLink : List String → String → List String → Except FileFailure (List String)}

/-- A step fails, or it leads to some place, or it comes to a link; the steps after it make no
difference. -/
theorem followWith_cons_cases (tree : FileTree)
    (onLink : List String → String → List String → Except FileFailure (List String))
    (place : List String) (step : String) :
    (∃ e, ∀ rest, tree.followWith onLink place (step :: rest) = .error e) ∨
      (∃ p, ∀ rest,
        tree.followWith onLink place (step :: rest) = tree.followWith onLink p rest) ∨
      ∃ target, ∀ rest,
        tree.followWith onLink place (step :: rest) = onLink place target rest := by
  cases hpass : tree.pass place step with
  | error e => exact Or.inl ⟨e, fun rest => by rw [followWith, hpass]⟩
  | ok passage =>
    right
    cases passage with
    | place next => exact Or.inl ⟨next, fun rest => by rw [followWith, hpass]⟩
    | link target => exact Or.inr ⟨target, fun rest => by rw [followWith, hpass]⟩

/-- The name of an entry that is no link leads to that entry. -/
theorem pass_name {name : String} (h : (place ++ [name], item) ∈ tree.entries)
    (hlink : ∀ target, item ≠ .link target) :
    tree.pass place name = .ok (.place (place ++ [name])) := by
  have hname := isEntryName_of_mem h List.mem_cons_self
  have hfolder : tree.hasFolder place := hasFolder_of_above (List.cons_ne_nil name []) h
  simp only [isEntryName, Bool.and_eq_true, bne_iff_ne, ne_eq] at hname
  obtain ⟨⟨⟨hempty, hhere⟩, hup⟩, -⟩ := hname
  rw [pass, get?_eq_some_iff.mpr h]
  simp only [hfolder, hempty, hhere, hup, beq_eq_false_iff_ne.mpr, ne_eq, not_false_eq_true,
    Bool.not_true, Bool.false_eq_true, if_false, Bool.or_self]

/-- A path that begins with the name of an entry that is no link goes on from there. -/
theorem followWith_name {name : String} (rest : List String)
    (h : (place ++ [name], item) ∈ tree.entries) (hlink : ∀ target, item ≠ .link target) :
    tree.followWith onLink place (name :: rest) =
      tree.followWith onLink (place ++ [name]) rest := by
  rw [followWith, pass_name h hlink]

/-- From a folder above it, an entry that is no link is reached by its names. -/
theorem followWith_entry (hrel : rel ≠ []) (h : (folder ++ rel, item) ∈ tree.entries)
    (hlink : ∀ target, item ≠ .link target) :
    tree.followWith onLink folder rel = .ok (folder ++ rel) := by
  induction rel generalizing folder with
  | nil => exact absurd rfl hrel
  | cons name rest ih =>
    cases rest with
    | nil => exact followWith_name [] h hlink
    | cons next rest =>
      rw [List.append_cons] at h ⊢
      have hname : (folder ++ [name], FileItem.folder) ∈ tree.entries :=
        mem_of_above (List.append_ne_nil_of_right_ne_nil folder (List.cons_ne_nil name []))
          (List.cons_ne_nil next rest) h
      rw [followWith_name (next :: rest) hname (fun _ => FileItem.noConfusion)]
      exact ih (List.cons_ne_nil next rest) h

end Steps

/-- A path that can be followed goes through the end of any beginning of it, and from there the
rest could be any other. -/
theorem follow_split {links : Nat} {a b q : List String}
    (h : tree.follow links place (a ++ b) = .ok q) :
    ∃ m p, tree.follow m p b = .ok q ∧
      ∀ b', tree.follow links place (a ++ b') = tree.follow m p b' := by
  induction links generalizing place a with
  | zero => exact absurd h (by simp [follow])
  | succ links ih =>
    induction a generalizing place with
    | nil => exact ⟨links + 1, place, h, fun _ => rfl⟩
    | cons step a iha =>
      rw [List.cons_append, follow] at h
      simp only [List.cons_append, follow]
      rcases followWith_cons_cases tree _ place step with ⟨e, hstep⟩ | ⟨p, hstep⟩ | ⟨target, hstep⟩
      · rw [hstep] at h
        exact absurd h (by simp)
      · simp only [hstep] at h ⊢
        exact iha h
      · simp only [hstep] at h ⊢
        cases hsteps : followable target with
        | error e =>
          rw [hsteps] at h
          exact absurd h (by simp [bind, Except.bind])
        | ok steps =>
          rw [hsteps] at h
          have hrest : tree.follow links (origin place target) ((steps ++ a) ++ b) = .ok q := by
            rw [List.append_assoc]
            exact h
          obtain ⟨m, p, hp, hall⟩ := ih hrest
          refine ⟨m, p, hp, fun b' => ?_⟩
          rw [← hall, List.append_assoc]
          rfl

end CallAtlas.FileTree
