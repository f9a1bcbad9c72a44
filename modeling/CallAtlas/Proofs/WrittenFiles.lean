import CallAtlas.Proofs.FollowedPaths

/-!
# Written files

A file is written where its path leads: the folder is found as for reading, and at the last step a
link is followed further.  What is found is a place that holds a file or nothing yet
(`Targets.writable`), so the file fits there and takes no entry away.  In the tree that holds it the
path is followed through the same folders and links as before, and now leads to the file
(`Targets.follow_put`).  So a file that has been written is read again by its path, and nothing
else has changed (`written_of_write`).
-/

set_option autoImplicit false

namespace CallAtlas.FileTree

variable {tree : FileTree} {place path q : List String} {item : FileItem} {content : ByteArray}

/-! ## Putting -/

/-- What is put into a tree takes the place of what stood there, and all else stays. -/
theorem mem_put_iff {e : List String × FileItem} (h : tree.canHold q item) :
    e ∈ (tree.put q item).entries ↔ e = (q, item) ∨ e ∈ tree.entries ∧ e.1 ≠ q := by
  rw [put, dif_pos h]
  exact mem_place tree.increasing

/-- What is put at a path stands there. -/
theorem get?_put_self (h : tree.canHold q item) : (tree.put q item).get? q = some item := by
  rw [get?_eq_some_iff, mem_put_iff h]
  exact Or.inl rfl

/-- At other paths stands what stood there before. -/
theorem get?_put_of_ne (h : tree.canHold q item) (hne : path ≠ q) :
    (tree.put q item).get? path = tree.get? path := by
  apply Option.ext
  intro item'
  rw [get?_eq_some_iff, get?_eq_some_iff, mem_put_iff h]
  simp [hne]

/-- Whether a file can be written at a path of the tree: in a folder, and where a file or nothing
stands. -/
structure Writable (tree : FileTree) (q : List String) : Prop where
  fits : ∀ content, tree.canHold q (.file content)
  file_of_mem : ∀ item, (q, item) ∈ tree.entries → ∃ content, item = .file content

/-- Writing a file makes and removes no folders. -/
theorem Writable.hasFolder_put (h : tree.Writable q) :
    (tree.put q (.file content)).hasFolder path = tree.hasFolder path := by
  rw [Bool.eq_iff_iff, hasFolder_iff, hasFolder_iff, mem_put_iff (h.fits content)]
  apply or_congr_right
  constructor
  · rintro (heq | ⟨hmem, -⟩)
    · exact absurd (Prod.mk.inj heq).2 FileItem.noConfusion
    · exact hmem
  · intro hmem
    refine Or.inr ⟨hmem, ?_⟩
    rintro rfl
    obtain ⟨_, hfile⟩ := h.file_of_mem _ hmem
    exact FileItem.noConfusion hfile

/-- What is found at a path is found there after the file has been written, but for the content of
that file. -/
theorem Writable.get?_put (h : tree.Writable q) (hitem : tree.get? path = some item) :
    (tree.put q (.file content)).get? path = some item ∨
      (∃ old, item = .file old) ∧
        (tree.put q (.file content)).get? path = some (.file content) := by
  by_cases hq : path = q
  · subst hq
    exact Or.inr ⟨h.file_of_mem item (get?_eq_some_iff.mp hitem), get?_put_self (h.fits content)⟩
  · left
    rw [get?_put_of_ne (h.fits content) hq, hitem]

/-- A step leads where it led before the file was written. -/
theorem Writable.pass_put {step : String} {passage : Passage} (h : tree.Writable q)
    (hpass : tree.pass place step = .ok passage) :
    (tree.put q (.file content)).pass place step = .ok passage := by
  simp only [pass, h.hasFolder_put] at hpass ⊢
  split_ifs at hpass ⊢
  · exact hpass
  · exact hpass
  · cases hitem : tree.get? (place ++ [step]) with
    | none => simp [hitem] at hpass
    | some item =>
      rw [hitem] at hpass
      rcases h.get?_put hitem with hput | ⟨⟨old, rfl⟩, hput⟩
      · rw [hput]
        exact hpass
      · rw [hput]
        exact hpass

/-! ## Where a file is written -/

/-- Whether a path from a place of the tree leads to the place where a file is written. -/
inductive Targets (tree : FileTree) (q : List String) : Nat → List String → List String → Prop where
  | last {links : Nat} {place : List String} {step : String}
      (hlast : tree.passLast place step [] = .ok (.place q)) :
      Targets tree q (links + 1) place [step]
  | place {links : Nat} {place next : List String} {step : String} {rest : List String}
      (hpass : tree.pass place step = .ok (.place next))
      (hrest : Targets tree q (links + 1) next rest) :
      Targets tree q (links + 1) place (step :: rest)
  | link {links : Nat} {place : List String} {step target : String} {more rest : List String}
      (hpass : tree.pass place step = .ok (.link target)) (hmore : followable target = .ok more)
      (hrest : Targets tree q links (origin place target) (more ++ rest)) :
      Targets tree q (links + 1) place (step :: rest)

/-- The last step of a path to write to is a name in a folder, with a link or no folder behind
it. -/
theorem passLast_eq_ok {step : String} {slashes : List String} {passage : Passage}
    (h : tree.passLast place step slashes = .ok passage) :
    slashes = [] ∧ tree.hasFolder place ∧ (step ≠ "" ∧ step ≠ "." ∧ step ≠ "..") ∧
      ((∃ target, tree.get? (place ++ [step]) = some (.link target) ∧ passage = .link target) ∨
        (∀ item, tree.get? (place ++ [step]) = some item → ∃ content, item = .file content) ∧
          passage = .place (place ++ [step])) := by
  simp only [passLast] at h
  split_ifs at h with hfolder hname
  simp only [Bool.or_eq_true, beq_iff_eq, Bool.not_eq_true', List.isEmpty_eq_false_iff, ne_eq,
    not_or, not_not] at hname
  obtain ⟨⟨⟨hempty, hhere⟩, hup⟩, hslashes⟩ := hname
  refine ⟨hslashes, by simpa using hfolder, ⟨hempty, hhere, hup⟩, ?_⟩
  cases hitem : tree.get? (place ++ [step]) with
  | none =>
    right
    simpa [hitem, eq_comm] using h
  | some item =>
    cases item with
    | folder => simp [hitem] at h
    | link target =>
      left
      simpa [hitem, eq_comm] using h
    | file content =>
      right
      simpa [hitem, eq_comm] using h

/-- Where a file is written is where the path leads. -/
theorem targets_of_targetFrom {links : Nat} (h : tree.targetFrom links place path = .ok q) :
    tree.Targets q links place path := by
  induction links generalizing place path with
  | zero => exact absurd h (by simp [targetFrom])
  | succ links ih =>
    rw [targetFrom] at h
    have hlink : ∀ {place step target rest}, tree.pass place step = .ok (.link target) →
        (do tree.targetFrom links (origin place target) ((← followable target) ++ rest)) =
          Except.ok q →
        tree.Targets q (links + 1) place (step :: rest) := by
      intro place step target rest hpass h
      cases hmore : followable target with
      | error e =>
        rw [hmore] at h
        exact absurd h (by simp [bind, Except.bind])
      | ok more =>
        rw [hmore] at h
        exact .link hpass hmore (ih h)
    induction path generalizing place with
    | nil => exact absurd h (by simp [targetWith])
    | cons step rest ihrest =>
      rw [targetWith] at h
      split at h
      · cases hlast : tree.passLast place step rest with
        | error e => simp [hlast] at h
        | ok passage =>
          rw [hlast] at h
          obtain ⟨rfl, hfolder, ⟨hempty, hhere, hup⟩, hitem⟩ := passLast_eq_ok hlast
          cases passage with
          | place next =>
            obtain rfl : next = q := Except.ok.inj h
            exact .last hlast
          | link target =>
            have hget : tree.get? (place ++ [step]) = some (.link target) := by
              simpa using hitem
            apply hlink _ h
            simp [pass, hfolder, hempty, hhere, hup, hget]
      · cases hpass : tree.pass place step with
        | error e => simp [hpass] at h
        | ok passage =>
          rw [hpass] at h
          cases passage with
          | place next => exact .place hpass (ihrest h)
          | link target => exact hlink hpass h

/-- The path of a folder and a name make the path of an entry. -/
theorem isEntryPath_concat {step : String} (hfolder : tree.hasFolder place)
    (hname : isEntryName step) : isEntryPath (place ++ [step]) := by
  have hplace : ∀ name ∈ place, isEntryName name := by
    rcases hasFolder_iff.mp hfolder with rfl | hmem
    · simp
    · have hpath := tree.named _ hmem
      rw [isEntryPath, Bool.and_eq_true, List.all_eq_true] at hpath
      exact hpath.2
  simp only [isEntryPath, List.all_append, List.all_cons, List.all_nil, Bool.and_true,
    Bool.and_eq_true, List.all_eq_true]
  exact ⟨by simp, hplace, hname⟩

/-- Where a path leads to write to, a file can be written. -/
theorem Targets.writable {links : Nat} (h : tree.Targets q links place path)
    (hsteps : ∀ step ∈ path, '/' ∉ step.toList) : tree.Writable q := by
  induction h with
  | @last _ place step hlast =>
    obtain ⟨-, hfolder, ⟨hempty, hhere, hup⟩, hitem⟩ := passLast_eq_ok hlast
    rcases hitem with ⟨_, -, hpassage⟩ | ⟨hfile, hpassage⟩
    · exact Passage.noConfusion hpassage
    · obtain rfl : q = place ++ [step] := Passage.place.inj hpassage
      have hname : isEntryName step := by
        simp [isEntryName, hempty, hhere, hup, hsteps step List.mem_cons_self]
      have hfree : tree.hasFolder (place ++ [step]) = false := by
        rw [← Bool.not_eq_true, hasFolder_iff]
        rintro (hnil | hmem)
        · simp at hnil
        · obtain ⟨_, heq⟩ := hfile _ (get?_eq_some_iff.mpr hmem)
          exact FileItem.noConfusion heq
      constructor
      · intro content
        rw [canHold, isEntryPath_concat hfolder hname, List.dropLast_concat, hfolder, hfree]
        rfl
      · intro item hmem
        exact hfile item (get?_eq_some_iff.mpr hmem)
  | place hpass hrest ih =>
    rw [List.forall_mem_cons] at hsteps
    exact ih hsteps.2
  | link hpass hmore hrest ih =>
    rw [List.forall_mem_cons] at hsteps
    obtain ⟨-, rfl⟩ := followable_eq_ok_iff.mp hmore
    apply ih
    rw [List.forall_mem_append]
    exact ⟨fun step => slash_not_mem_of_mem_steps, hsteps.2⟩

/-- Once the file is written, the path leads to it. -/
theorem Targets.follow_put {links : Nat} (h : tree.Targets q links place path)
    (hq : tree.Writable q) :
    (tree.put q (.file content)).follow links place path = .ok q := by
  induction h with
  | @last _ place step hlast =>
    obtain ⟨-, hfolder, ⟨hempty, hhere, hup⟩, hitem⟩ := passLast_eq_ok hlast
    rcases hitem with ⟨_, -, hpassage⟩ | ⟨-, hpassage⟩
    · exact Passage.noConfusion hpassage
    · obtain rfl : q = place ++ [step] := Passage.place.inj hpassage
      have hpass : (tree.put (place ++ [step]) (.file content)).pass place step =
          .ok (.place (place ++ [step])) := by
        rw [pass, hq.hasFolder_put, get?_put_self (hq.fits content)]
        simp [hfolder, hempty, hhere, hup]
      rw [follow, followWith, hpass]
      rfl
  | place hpass hrest ih =>
    rw [follow, followWith, hq.pass_put hpass]
    exact ih
  | link hpass hmore hrest ih =>
    rw [follow, followWith, hq.pass_put hpass]
    simpa [hmore, bind, Except.bind] using ih

/-! ## Writing -/

/-- Whether one tree comes from another by writing a file: the path leads to the content, at all
other places there is what was there before, and the working folder is the same. -/
structure Written (tree : FileTree) (path : String) (content : ByteArray) (tree' : FileTree) :
    Prop where
  works : tree'.workingFolder = tree.workingFolder
  read_eq : tree'.read path = .ok content
  rest : ∃ q, tree'.resolve path = .ok q ∧ ∀ place, place ≠ q → tree'.get? place = tree.get? place

/-- **A file that has been written is read again by its path**, and nothing else has changed. -/
theorem written_of_write {path : String} {tree' : FileTree}
    (h : tree.write path content = .ok tree') : tree.Written path content tree' := by
  rw [write] at h
  cases htarget : tree.target path with
  | error e =>
    rw [htarget] at h
    exact absurd h (by simp [bind, Except.bind])
  | ok q =>
    rw [htarget] at h
    obtain rfl : tree.put q (.file content) = tree' := Except.ok.inj h
    rw [target] at htarget
    cases hsteps : followable path with
    | error e =>
      rw [hsteps] at htarget
      exact absurd htarget (by simp [bind, Except.bind])
    | ok names =>
      rw [hsteps] at htarget
      have htargets : tree.Targets q (maxLinks + 1) (origin tree.workingFolder path) names :=
        targets_of_targetFrom htarget
      obtain ⟨-, hnames⟩ := followable_eq_ok_iff.mp hsteps
      have hq : tree.Writable q := by
        apply htargets.writable
        rw [hnames]
        exact fun step => slash_not_mem_of_mem_steps
      have hresolve : (tree.put q (.file content)).resolve path = .ok q := by
        rw [resolve, hsteps, workingFolder_put]
        exact htargets.follow_put hq
      refine ⟨workingFolder_put tree q _, ?_, ?_⟩
      · rw [read, hresolve]
        simp [bind, Except.bind, contentAt, get?_put_self (hq.fits content)]
      · exact ⟨q, hresolve, fun place hne => get?_put_of_ne (hq.fits content) hne⟩

end CallAtlas.FileTree
