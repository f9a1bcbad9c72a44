/-!
# File trees

A file tree holds everything below its top.  Its entries are listed with their paths, the names from
the top down, in strictly increasing order; names are compared by code point.  So an entry comes
right before those below it, and a path has at most one entry.  Every entry stands in a folder of
the tree or at its top, and what would not fit is not put into the tree.  One of the folders is the
working folder, from which paths lead that are not absolute.
-/

set_option autoImplicit false

namespace CallAtlas

/-- What stands at a path. -/
inductive FileItem where
  /-- A file with its content. -/
  | file (content : ByteArray)
  /-- A link to another path. -/
  | link (target : String)
  /-- A folder. -/
  | folder

/-- Whether the item is a folder. -/
def FileItem.isFolder : FileItem → Bool
  | folder => true
  | _ => false

/-- Whether a text can be the name of an entry: it is not empty, no slash is in it, and it is not
one of the two names with which a path stays in a folder or goes back. -/
def isEntryName (name : String) : Bool :=
  name != "" && name != "." && name != ".." && !name.toList.contains '/'

/-- Whether a path is that of an entry: names from the top down, at least one. -/
def isEntryPath (path : List String) : Bool :=
  !path.isEmpty && path.all isEntryName

/-- Everything below the top, and the folder in it in which a program works. -/
structure FileTree where
  /-- The entries with the names that lead to them. -/
  entries : List (List String × FileItem)
  /-- The paths increase strictly. -/
  increasing : entries.Pairwise (·.1 < ·.1)
  /-- The paths are made of names. -/
  named : ∀ e ∈ entries, isEntryPath e.1
  /-- An entry that is not at the top stands in a folder of the tree. -/
  housed : ∀ e ∈ entries, e.1.dropLast = [] ∨ (e.1.dropLast, FileItem.folder) ∈ entries
  /-- The names that lead to the working folder. -/
  workingFolder : List String
  /-- The working folder is the top or a folder of the tree. -/
  works : workingFolder = [] ∨ (workingFolder, FileItem.folder) ∈ entries

namespace FileTree

/-- A tree without entries. -/
def empty : FileTree := ⟨[], .nil, by simp, by simp, [], .inl rfl⟩

instance : Inhabited FileTree := ⟨empty⟩

/-! ## Entries and items -/

/-- The item at a path. -/
def get? (tree : FileTree) (path : List String) : Option FileItem :=
  (tree.entries.find? (·.1 == path)).map (·.2)

/-- A path has at most one entry. -/
theorem eq_of_mem_of_mem {tree : FileTree} {path : List String} {item item' : FileItem}
    (h : (path, item) ∈ tree.entries) (h' : (path, item') ∈ tree.entries) : item = item' := by
  obtain ⟨before, after, hsplit⟩ := List.append_of_mem h
  have hincreasing := tree.increasing
  rw [hsplit, List.pairwise_append, List.pairwise_cons] at hincreasing
  obtain ⟨-, ⟨hafter, -⟩, hbefore⟩ := hincreasing
  rw [hsplit, List.mem_append, List.mem_cons] at h'
  rcases h' with h' | h' | h'
  · exact absurd (hbefore _ h' _ List.mem_cons_self) (List.lt_irrefl path)
  · exact (Prod.mk.inj h').2.symm
  · exact absurd (hafter _ h') (List.lt_irrefl path)

/-- What stands at a path is what the entries of the tree list for it. -/
theorem get?_eq_some_iff {tree : FileTree} {path : List String} {item : FileItem} :
    tree.get? path = some item ↔ (path, item) ∈ tree.entries := by
  constructor
  · intro h
    obtain ⟨⟨path', item'⟩, hfound, rfl⟩ := Option.map_eq_some_iff.mp h
    obtain rfl : path' = path := by simpa using List.find?_some hfound
    exact List.mem_of_find?_eq_some hfound
  · intro h
    have hsome : (tree.entries.find? (·.1 == path)).isSome := by
      rw [List.find?_isSome]
      exact ⟨(path, item), h, by simp⟩
    obtain ⟨⟨path', item'⟩, hfound⟩ := Option.isSome_iff_exists.mp hsome
    obtain rfl : path' = path := by simpa using List.find?_some hfound
    rw [get?, hfound, Option.map_some, eq_of_mem_of_mem (List.mem_of_find?_eq_some hfound) h]

/-- Whether a folder stands at a path; the empty path leads to the top. -/
def hasFolder (tree : FileTree) (path : List String) : Bool :=
  path.isEmpty || (tree.get? path).any FileItem.isFolder

/-- The top is a folder, and every other folder is an entry of its own. -/
theorem hasFolder_iff {tree : FileTree} {path : List String} :
    tree.hasFolder path ↔ path = [] ∨ (path, .folder) ∈ tree.entries := by
  rw [hasFolder, Bool.or_eq_true, List.isEmpty_iff, ← get?_eq_some_iff]
  refine or_congr_right ?_
  cases tree.get? path with
  | none => simp
  | some item => cases item <;> simp [FileItem.isFolder]

/-- The paths of all folders, also the empty one. -/
def folders (tree : FileTree) : List (List String) :=
  [] :: (tree.entries.filter (·.2.isFolder)).map (·.1)

/-! ## Putting and erasing -/

/-- An item put at its place in a list of entries; it replaces the one with the same path. -/
def place (path : List String) (item : FileItem) :
    List (List String × FileItem) → List (List String × FileItem)
  | [] => [(path, item)]
  | e :: rest =>
    if path < e.1 then (path, item) :: e :: rest
    else if path = e.1 then (path, item) :: rest
    else e :: place path item rest

/-- Of two paths neither of which is smaller, both are the same. -/
theorem lt_of_not_lt_of_ne {a b : List String} (h : ¬a < b) (ne : a ≠ b) : b < a :=
  Decidable.byContradiction fun h' => ne (List.le_antisymm (List.not_lt.1 h') (List.not_lt.1 h))

/-- The entries after placing an item are that item and those at other paths. -/
theorem mem_place {path : List String} {item : FileItem} {e : List String × FileItem}
    {entries : List (List String × FileItem)} (h : entries.Pairwise (·.1 < ·.1)) :
    e ∈ place path item entries ↔ e = (path, item) ∨ e ∈ entries ∧ e.1 ≠ path := by
  induction entries with
  | nil => simp [place]
  | cons x rest ih =>
    rw [List.pairwise_cons] at h
    have hrest : ¬x.1 < path → ∀ y ∈ rest, y.1 ≠ path := by
      rintro hnot y hy rfl
      exact hnot (h.1 y hy)
    unfold place
    split
    · rename_i lt
      have hx : x.1 ≠ path := fun eq => List.lt_irrefl path (eq ▸ lt)
      have hall : ∀ y ∈ x :: rest, y.1 ≠ path :=
        List.forall_mem_cons.2 ⟨hx, hrest (List.lt_asymm lt)⟩
      rw [List.mem_cons]
      exact or_congr_right ⟨fun he => ⟨he, hall e he⟩, And.left⟩
    · split
      · rename_i eq
        have hall := hrest (eq ▸ List.lt_irrefl path)
        rw [List.mem_cons, List.mem_cons]
        refine or_congr_right ⟨fun he => ⟨.inr he, hall e he⟩, ?_⟩
        rintro ⟨rfl | he, hne⟩
        · exact absurd eq.symm hne
        · exact he
      · rename_i ne
        rw [List.mem_cons, ih h.2, List.mem_cons]
        constructor
        · rintro (rfl | rfl | ⟨he, hne⟩)
          · exact .inr ⟨.inl rfl, Ne.symm ne⟩
          · exact .inl rfl
          · exact .inr ⟨.inr he, hne⟩
        · rintro (rfl | ⟨rfl | he, hne⟩)
          · exact .inr (.inl rfl)
          · exact .inl rfl
          · exact .inr (.inr ⟨he, hne⟩)

/-- Placing an item keeps the entries increasing. -/
theorem pairwise_place {path : List String} {item : FileItem}
    {entries : List (List String × FileItem)} (h : entries.Pairwise (·.1 < ·.1)) :
    (place path item entries).Pairwise (·.1 < ·.1) := by
  induction entries with
  | nil => simp [place]
  | cons x rest ih =>
    have hall := h
    rw [List.pairwise_cons] at h
    unfold place
    split
    · rename_i lt
      refine List.pairwise_cons.2 ⟨fun y hy => ?_, hall⟩
      rcases List.mem_cons.1 hy with rfl | hy
      · exact lt
      · exact List.lt_trans lt (h.1 y hy)
    · split
      · rename_i eq
        exact List.pairwise_cons.2 ⟨fun y hy => eq ▸ h.1 y hy, h.2⟩
      · rename_i nlt ne
        refine List.pairwise_cons.2 ⟨fun y hy => ?_, ih h.2⟩
        rcases (mem_place h.2).1 hy with rfl | ⟨hy, -⟩
        · exact lt_of_not_lt_of_ne nlt ne
        · exact h.1 y hy

/-- Whether an item can be put at a path: in a folder, and not in the place of a folder unless it
is one itself. -/
def canHold (tree : FileTree) (path : List String) (item : FileItem) : Bool :=
  isEntryPath path && tree.hasFolder path.dropLast && (item.isFolder || !tree.hasFolder path)

/-- A folder of the tree remains one where an item is put that fits. -/
theorem folder_mem_place {tree : FileTree} {path folder : List String} {item : FileItem}
    (h : tree.canHold path item) (hmem : (folder, .folder) ∈ tree.entries) :
    (folder, FileItem.folder) ∈ place path item tree.entries := by
  rw [mem_place tree.increasing]
  by_cases eq : folder = path
  · rw [eq] at hmem ⊢
    have hfolder : tree.hasFolder path := hasFolder_iff.2 (.inr hmem)
    rw [canHold, hfolder] at h
    cases item <;> simp_all [FileItem.isFolder]
  · exact .inr ⟨hmem, eq⟩

/-- Where an item fits, its parent and those of all other entries remain folders. -/
theorem housed_place {tree : FileTree} {path : List String} {item : FileItem}
    (h : tree.canHold path item) : ∀ e ∈ place path item tree.entries,
      e.1.dropLast = [] ∨ (e.1.dropLast, FileItem.folder) ∈ place path item tree.entries := by
  have hparent : tree.hasFolder path.dropLast := by
    rw [canHold, Bool.and_eq_true, Bool.and_eq_true] at h
    exact h.1.2
  intro e he
  rcases (mem_place tree.increasing).1 he with rfl | ⟨he, -⟩
  · exact (hasFolder_iff.1 hparent).imp_right (folder_mem_place h)
  · exact (tree.housed e he).imp_right (folder_mem_place h)

/-- The tree with an item put at a path; the tree stays as it is if the item does not fit there. -/
def put (tree : FileTree) (path : List String) (item : FileItem) : FileTree :=
  if h : tree.canHold path item then
    ⟨place path item tree.entries, pairwise_place tree.increasing, fun e he => by
      rcases (mem_place tree.increasing).1 he with rfl | ⟨he, -⟩
      · rw [canHold, Bool.and_eq_true, Bool.and_eq_true] at h
        exact h.1.1
      · exact tree.named e he, housed_place h, tree.workingFolder,
      tree.works.imp_right (folder_mem_place h)⟩
  else tree

/-- Putting an item somewhere leaves the working folder where it is. -/
@[simp] theorem workingFolder_put (tree : FileTree) (path : List String) (item : FileItem) :
    (tree.put path item).workingFolder = tree.workingFolder := by
  unfold put
  split <;> rfl

/-- The tree without a path and everything below it; the working folder and those above it stay. -/
def erase (tree : FileTree) (path : List String) : FileTree :=
  if h : path.isPrefixOf tree.workingFolder then tree
  else
    ⟨tree.entries.filter fun e => !path.isPrefixOf e.1,
      tree.increasing.sublist List.filter_sublist,
      fun e he => tree.named e (List.mem_filter.1 he).1,
      fun e he => by
        obtain ⟨hmem, hkept⟩ := List.mem_filter.1 he
        refine (tree.housed e hmem).imp_right fun hparent => List.mem_filter.2 ⟨hparent, ?_⟩
        rw [Bool.not_eq_true', ← Bool.not_eq_true, List.isPrefixOf_iff_prefix] at hkept ⊢
        exact fun below => hkept (below.trans (List.dropLast_prefix e.1)),
      tree.workingFolder,
      tree.works.imp_right fun hmem =>
        List.mem_filter.2 ⟨hmem, Bool.not_eq_true' _ ▸ Bool.not_eq_true _ ▸ h⟩⟩

/-- The tree with another working folder, if there is such a folder. -/
def workIn (tree : FileTree) (folder : List String) : FileTree :=
  if h : tree.hasFolder folder then
    { tree with workingFolder := folder, works := hasFolder_iff.1 h }
  else tree

end FileTree

end CallAtlas
