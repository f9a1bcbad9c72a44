import CallAtlas.Proofs.FollowedPaths
import CallAtlas.Scanner

/-!
# The files that a scan lists

A scan lists the entries of the walk that are files, or links to files, and that the scanner wants:
no pattern excludes them, and they end in one of the suffixes, if there are any.  Nothing is listed
twice, and the files come in the order of their paths, name by name; this is not the order of the
paths as texts, in which `a-b/c` comes before `a/b`.  The main statement is
`scan_lists_wanted_files`.

The walk tells files from folders and links, but whether a file is read is decided by following the
path that the scan prints, which begins with the root as it was spelled.  That path leads through
the root to the very entry of the walk (`resolve_join`).
-/

set_option autoImplicit false

namespace CallAtlas

/-! ## Walks -/

namespace FileTree

variable {tree : FileTree} {place folder rel : List String} {item : FileItem}

/-- The entries of a walk are those below the folder that count together with all folders between
them and it. -/
theorem mem_walk_iff : (rel, item) ∈ tree.walk folder ↔
    rel ≠ [] ∧ (folder ++ rel, item) ∈ tree.entries ∧
      isListed (IgnoreFile.all tree) folder.length (folder ++ rel, item) := by
  simp only [walk, List.mem_map, List.mem_filter, Bool.and_eq_true, List.isPrefixOf_iff_prefix,
    decide_eq_true_eq, Prod.mk.injEq]
  constructor
  · rintro ⟨⟨path, item⟩, ⟨⟨hmem, ⟨rel, rfl⟩, hlength⟩, hlisted⟩, hrel, rfl⟩
    rw [List.drop_left] at hrel
    subst hrel
    refine ⟨?_, hmem, hlisted⟩
    rintro rfl
    simp at hlength
  · rintro ⟨hrel, hmem, hlisted⟩
    have hlength : folder.length < (folder ++ rel).length := by
      rw [List.length_append]
      have := List.length_pos_iff.mpr hrel
      omega
    exact ⟨_, ⟨⟨hmem, List.prefix_append folder rel, hlength⟩, hlisted⟩, List.drop_left, rfl⟩

/-- Two paths below a folder are in the order of what stands below it. -/
theorem lt_of_append_lt_append {p q : List String} (h : folder ++ p < folder ++ q) : p < q := by
  induction folder with
  | nil => exact h
  | cons name folder ih =>
    rcases List.cons_lt_cons_iff.mp h with hlt | ⟨-, hlt⟩
    · exact absurd hlt (String.lt_irrefl name)
    · exact ih hlt

/-- A walk goes from path to path in increasing order. -/
theorem walk_increasing (tree : FileTree) (folder : List String) :
    (tree.walk folder).Pairwise (·.1 < ·.1) := by
  rw [walk, List.filter_filter, List.pairwise_map]
  refine (tree.increasing.filter _).imp_of_mem fun {e e'} he he' hlt => ?_
  simp only [List.mem_filter, Bool.and_eq_true, List.isPrefixOf_iff_prefix] at he he'
  obtain ⟨p, hp⟩ := he.2.2.1
  obtain ⟨q, hq⟩ := he'.2.2.1
  rw [← hp, ← hq] at hlt ⊢
  simpa only [List.drop_left] using lt_of_append_lt_append hlt

/-! ## Paths through a root -/

/-- A path is joined to a root by one slash, which may be the last one of the root. -/
theorem exists_join {root : String} (hroot : root ≠ "") :
    ∃ before, (root.toList = before ∨ root.toList = before ++ ['/']) ∧
      ∀ path, (Scanner.join root path).toList = before ++ '/' :: path.toList := by
  have hempty : root.isEmpty = false := by simpa using hroot
  by_cases hslash : root.toList.getLast? = some '/'
  · obtain ⟨before, hbefore⟩ := List.getLast?_eq_some_iff.mp hslash
    refine ⟨before, Or.inr hbefore, fun path => ?_⟩
    rw [Scanner.join, hslash]
    simp [hbefore]
  · refine ⟨root.toList, Or.inl rfl, fun path => ?_⟩
    simp [Scanner.join, hempty, hslash]

/-- Behind the steps of a root come those of the path that is joined to it, but for the empty step
at the end of a root that ends in a slash. -/
theorem steps_join {root : String} (hroot : root ≠ "") :
    ∃ a b, steps root = a ++ b ∧ (b = [] ∨ b = [""]) ∧
      ∀ path, steps (Scanner.join root path) = a ++ steps path := by
  obtain ⟨before, hbefore, hjoin⟩ := exists_join hroot
  have hsteps : ∀ path, steps (Scanner.join root path) =
      steps (String.ofList before) ++ steps path := by
    intro path
    rw [← String.ofList_toList (s := Scanner.join root path), hjoin, steps_append_slash,
      String.ofList_toList]
  rcases hbefore with hroot | hroot
  · refine ⟨steps root, [], (List.append_nil _).symm, Or.inl rfl, fun path => ?_⟩
    rw [hsteps, ← hroot, String.ofList_toList]
  · refine ⟨steps (String.ofList before), [""], ?_, Or.inr rfl, hsteps⟩
    rw [← String.ofList_toList (s := root), hroot, steps_append_slash]
    rfl

/-- A path that is joined to a root begins with the characters of the root. -/
theorem exists_toList_join (root path : String) :
    ∃ more, (Scanner.join root path).toList = root.toList ++ more := by
  unfold Scanner.join
  split <;> simp

/-- A path that is joined to a root can be followed if the root can. -/
theorem followable_join {root : String} (path : String) (hroot : root ≠ "") :
    followable (Scanner.join root path) = .ok (steps (Scanner.join root path)) := by
  refine followable_eq_ok_iff.mpr ⟨fun heq => hroot ?_, rfl⟩
  obtain ⟨more, hmore⟩ := exists_toList_join root path
  rw [heq] at hmore
  have hchars : root.toList = [] := (List.append_eq_nil_iff.mp hmore.symm).1
  simpa using hchars

/-- A path that is joined to a root is followed from where the root is followed from. -/
theorem origin_join {root : String} (path : String) (hroot : root ≠ "") :
    origin place (Scanner.join root path) = origin place root := by
  obtain ⟨more, hmore⟩ := exists_toList_join root path
  have hchars : root.toList ≠ [] := by simpa using hroot
  rw [origin, origin, isAbsolute, isAbsolute, hmore, List.head?_append_of_ne_nil _ hchars]

/-- Where nothing but empty steps is left, a path stays. -/
theorem eq_of_follow_blank {links : Nat} {q b : List String}
    (hb : b = [] ∨ b = [""]) (h : tree.follow links place b = .ok q) : place = q ∧ links ≠ 0 := by
  cases links with
  | zero => exact absurd h (by simp [follow])
  | succ links =>
    refine ⟨?_, Nat.succ_ne_zero links⟩
    rcases hb with rfl | rfl
    · simpa [follow, followWith] using h
    · rw [follow, followWith, pass] at h
      cases hfolder : tree.hasFolder place with
      | false => simp [hfolder] at h
      | true => simpa [hfolder, followWith] using h

/-- A path that is joined to a root is followed from the place that the root leads to. -/
theorem resolve_join {root : String} (hroot : tree.resolve root = .ok folder)
    (hsteps : steps ("/".intercalate rel) = rel) :
    ∃ links, tree.resolve (Scanner.join root ("/".intercalate rel)) =
      tree.follow (links + 1) folder rel := by
  unfold resolve at hroot ⊢
  cases hnames : followable root with
  | error e =>
    rw [hnames] at hroot
    exact absurd hroot (by simp [bind, Except.bind])
  | ok names =>
    rw [hnames] at hroot
    obtain ⟨hne, hroots⟩ := followable_eq_ok_iff.mp hnames
    rw [followable_join _ hne, origin_join _ hne]
    obtain ⟨a, b, hab, hb, hjoin⟩ := steps_join hne
    have hfollow : tree.follow (maxLinks + 1) (origin tree.workingFolder root) (a ++ b) =
        .ok folder := by
      rw [← hab, ← hroots]
      exact hroot
    obtain ⟨m, place, hplace, hall⟩ := follow_split hfollow
    obtain ⟨rfl, hm⟩ := eq_of_follow_blank hb hplace
    obtain ⟨links, rfl⟩ := Nat.exists_eq_succ_of_ne_zero hm
    refine ⟨links, ?_⟩
    rw [hjoin, hsteps]
    exact hall rel

/-- Through the root, an entry that is no link is read where it stands. -/
theorem read_join {root : String} (hroot : tree.resolve root = .ok folder) (hrel : rel ≠ [])
    (h : (folder ++ rel, item) ∈ tree.entries) (hlink : ∀ target, item ≠ .link target) :
    tree.read (Scanner.join root ("/".intercalate rel)) = tree.contentAt (folder ++ rel) := by
  obtain ⟨links, hresolve⟩ := resolve_join hroot (steps_of_entry hrel h)
  have hplace : tree.follow (links + 1) folder rel = .ok (folder ++ rel) :=
    followWith_entry hrel h hlink
  rw [read, hresolve, hplace]
  rfl

end FileTree

/-! ## Files -/

namespace Scanner

open FileTree (steps)

variable {scanner : Scanner} {tree : FileTree} {folder rel : List String} {item : FileItem}
  {content : ByteArray}

/-- The path of an entry below the root, with slashes between its names. -/
def below (rel : List String) : String :=
  "/".intercalate rel

/-- The path of an entry below the root, spelled as the root is. -/
def spelled (scanner : Scanner) (rel : List String) : String :=
  join scanner.root (below rel)

/-- The path of an entry below the root, with all slashes leaning forward. -/
def forward (rel : List String) : String :=
  String.ofList ((below rel).toList.map fun c => if c = '\\' then '/' else c)

/-- Whether a file is wanted: no pattern excludes its path, and it ends in one of the suffixes, if
there are any. -/
structure Wants (scanner : Scanner) (rel : List String) : Prop where
  kept : ∀ glob ∈ scanner.exclude, glob.matchesPath false (forward rel) = false
  ending : scanner.suffixes = [] ∨
    ∃ suffix ∈ scanner.suffixes, suffix.toList <:+ (forward rel).toList

/-- Whether an entry is a file with the given content, or a link to one. -/
def Holds (scanner : Scanner) (tree : FileTree) (rel : List String) (content : ByteArray) :
    FileItem → Prop
  | .file content' => content' = content
  | .link _ => tree.read (scanner.spelled rel) = .ok content
  | .folder => False

/-- The normal form of the path of an entry has all slashes leaning forward. -/
theorem normalized_below (rel : List String) : normalized (below rel) = forward rel := by
  simp only [normalized, forward, beq_iff_eq]

/-- A scanner picks the path of an entry exactly when the file is wanted. -/
theorem picks_iff : scanner.picks (normalized (below rel)) ↔ scanner.Wants rel := by
  simp only [normalized_below, picks, Bool.and_eq_true, Bool.not_eq_true', List.any_eq_false, Bool.or_eq_true,
    List.isEmpty_iff, List.any_eq_true, List.isSuffixOf_iff_suffix, Bool.not_eq_true]
  exact ⟨fun h => ⟨h.1, h.2⟩, fun h => ⟨h.kept, h.ending⟩⟩

/-- An entry of the walk can be read just if it is a file or a link to one. -/
theorem read_spelled_iff (hroot : tree.resolve scanner.root = .ok folder)
    (h : (rel, item) ∈ tree.walk folder) :
    tree.read (scanner.spelled rel) = .ok content ↔ scanner.Holds tree rel content item := by
  obtain ⟨hrel, hentry, -⟩ := FileTree.mem_walk_iff.mp h
  have hitem := FileTree.get?_eq_some_iff.mpr hentry
  cases item with
  | file content' =>
    rw [spelled, below, FileTree.read_join hroot hrel hentry (fun _ => FileItem.noConfusion),
      FileTree.contentAt, hitem, Except.ok.injEq, Holds]
  | folder =>
    rw [spelled, below, FileTree.read_join hroot hrel hentry (fun _ => FileItem.noConfusion),
      FileTree.contentAt, hitem]
    simp [Holds]
  | link target => rfl

/-- Different paths are different when joined to a root. -/
theorem join_left_injective (root : String) : Function.Injective (join root) := by
  intro path path' h
  unfold join at h
  split at h
  · exact (String.append_right_inj root).mp h
  · exact (String.append_right_inj (root ++ "/")).mp h

/-- What a scan finds: files and links to files, as they are met on a walk. -/
structure ScanLists (scanner : Scanner) (tree : FileTree) (folder : List String)
    (found : List (List String × ByteArray)) : Prop where
  /-- The files are those of the walk that are wanted. -/
  mem_iff : ∀ rel content, (rel, content) ∈ found ↔
    scanner.Wants rel ∧ ∃ item, (rel, item) ∈ tree.walk folder ∧ scanner.Holds tree rel content item
  /-- They come in the order of their paths, which are compared name by name. -/
  increasing : (found.map (·.1)).Pairwise (· < ·)
  /-- The names are what stands between the slashes of a path. -/
  names : ∀ file ∈ found, steps (below file.1) = file.1
  /-- No path is listed twice. -/
  nodup : (found.map fun file => scanner.spelled file.1).Nodup

/-- The entries of the walk that a scan keeps, with their contents. -/
def kept (scanner : Scanner) (tree : FileTree) (folder : List String) :
    List (List String × ByteArray) :=
  (tree.walk folder).filterMap fun e =>
    if scanner.picks (normalized (below e.1)) then
      (tree.read (scanner.spelled e.1)).toOption.map fun content => (e.1, content)
    else none

/-- A result has a value exactly when it succeeds with it. -/
theorem toOption_eq_some_iff {ε α : Type} {result : Except ε α} {a : α} :
    result.toOption = some a ↔ result = .ok a := by
  cases result <;> simp [Except.toOption]

/-- The kept files are the wanted ones that the walk meets, with their contents. -/
theorem mem_kept_iff (hroot : tree.resolve scanner.root = .ok folder) :
    (rel, content) ∈ scanner.kept tree folder ↔
      scanner.Wants rel ∧
        ∃ item, (rel, item) ∈ tree.walk folder ∧ scanner.Holds tree rel content item := by
  rw [kept, List.mem_filterMap]
  constructor
  · rintro ⟨⟨rel', item⟩, hwalk, hkept⟩
    split at hkept
    · rename_i hpicks
      rw [Option.map_eq_some_iff] at hkept
      obtain ⟨content', hread, heq⟩ := hkept
      obtain ⟨rfl, rfl⟩ := Prod.mk.inj heq
      have hholds := (read_spelled_iff hroot hwalk).mp (toOption_eq_some_iff.mp hread)
      exact ⟨picks_iff.mp hpicks, item, hwalk, hholds⟩
    · exact absurd hkept (by simp)
  · rintro ⟨hwants, item, hwalk, hholds⟩
    have hread : tree.read (scanner.spelled rel) = .ok content :=
      (read_spelled_iff hroot hwalk).mpr hholds
    refine ⟨(rel, item), hwalk, ?_⟩
    rw [if_pos (picks_iff.mpr hwants), hread]
    rfl

/-- The kept files come in strictly increasing order. -/
theorem kept_increasing (scanner : Scanner) (tree : FileTree) (folder : List String) :
    ((scanner.kept tree folder).map (·.1)).Pairwise (· < ·) := by
  rw [List.pairwise_map, kept, List.pairwise_filterMap]
  refine (FileTree.walk_increasing tree folder).imp fun {e e'} hlt file hfile file' hfile' => ?_
  have hname : ∀ {e : List String × FileItem} {file : List String × ByteArray},
      (if scanner.picks (normalized (below e.1)) then
        (tree.read (scanner.spelled e.1)).toOption.map fun content => (e.1, content)
      else none) = some file → file.1 = e.1 := by
    intro e file h
    split at h
    · obtain ⟨content, -, rfl⟩ := Option.map_eq_some_iff.mp h
      rfl
    · exact absurd h (by simp)
  rw [hname hfile, hname hfile']
  exact hlt

/-- The kept files are what a scan is to find. -/
theorem scanLists_kept (hroot : tree.resolve scanner.root = .ok folder) :
    scanner.ScanLists tree folder (scanner.kept tree folder) := by
  have hnames : ∀ file ∈ scanner.kept tree folder, steps (below file.1) = file.1 := by
    intro file hfile
    obtain ⟨-, item, hwalk, -⟩ := (mem_kept_iff hroot).mp hfile
    obtain ⟨hrel, hentry, -⟩ := FileTree.mem_walk_iff.mp hwalk
    exact FileTree.steps_of_entry hrel hentry
  have hincreasing := kept_increasing scanner tree folder
  refine ⟨fun rel content => mem_kept_iff hroot, hincreasing, hnames, ?_⟩
  -- Two files that are spelled alike have the same names, so neither comes before the other.
  rw [List.Nodup, List.pairwise_map]
  rw [List.pairwise_map] at hincreasing
  refine hincreasing.imp_of_mem fun {file file'} hfile hfile' hlt heq => ?_
  have hsame : file.1 = file'.1 := by
    rw [← hnames file hfile, ← hnames file' hfile', join_left_injective scanner.root heq]
  rw [hsame] at hlt
  exact List.lt_irrefl _ hlt

/-- A scan of a folder lists the kept files. -/
theorem files_eq (hroot : tree.resolve scanner.root = .ok folder)
    (hfolder : tree.hasFolder folder) :
    scanner.files tree =
      .ok ((scanner.kept tree folder).map fun file => (below file.1, file.2)) := by
  simp only [files, hroot, hfolder, Bool.not_true, Bool.false_eq_true, if_false, kept,
    List.map_filterMap]
  congr 2
  funext e
  show (if scanner.picks (normalized (below e.1)) then _ else none) = _
  by_cases hpicks : scanner.picks (normalized (below e.1))
  · rw [if_pos hpicks, if_pos hpicks, Option.map_map]
    rfl
  · rw [if_neg hpicks, if_neg hpicks]
    rfl

/-- A scan of anything else names the root in its error. -/
theorem files_eq_error (h : tree.isFolder scanner.root = false) :
    scanner.files tree = .error (.invalidPath scanner.root) := by
  rw [FileTree.isFolder] at h
  rw [files]
  cases hroot : tree.resolve scanner.root with
  | error e => rfl
  | ok folder =>
    rw [hroot] at h
    simp [h]

end Scanner

/-- Where the root is no folder, a scan fails with the root as it is spelled.  Otherwise it lists
the files of the walk that are wanted, once and in the order of their paths, and reading them drops
those that are no text and keeps the order of the others. -/
theorem scan_lists_wanted_files (scanner : Scanner) (tree : FileTree) :
    (tree.isFolder scanner.root = false ∧
      scanner.scan tree = .error (.invalidPath scanner.root) ∧
      scanner.sources tree = .error (.invalidPath scanner.root)) ∨
    (tree.isFolder scanner.root = true ∧
      ∃ folder found, tree.resolve scanner.root = .ok folder ∧
        scanner.ScanLists tree folder found ∧
        scanner.scan tree = .ok (found.map fun file => scanner.spelled file.1) ∧
        ∃ sources, scanner.sources tree = .ok sources ∧
          sources.map (fun source => (source.path, source.text)) =
            found.filterMap fun file => (String.fromUTF8? file.2).map fun text =>
              (Scanner.forward file.1, text)) := by
  cases hfolder : tree.isFolder scanner.root with
  | false =>
    have herror := Scanner.files_eq_error hfolder
    refine Or.inl ⟨rfl, ?_, ?_⟩
    · rw [Scanner.scan, herror]
      rfl
    · rw [Scanner.sources, herror]
      rfl
  | true =>
    have hresolve : ∃ folder, tree.resolve scanner.root = .ok folder ∧ tree.hasFolder folder := by
      rw [FileTree.isFolder] at hfolder
      split at hfolder
      · exact ⟨_, ‹_›, hfolder⟩
      · exact absurd hfolder (by simp)
    obtain ⟨folder, hroot, hplace⟩ := hresolve
    have hfiles := Scanner.files_eq hroot hplace
    refine Or.inr ⟨rfl, folder, scanner.kept tree folder, hroot, Scanner.scanLists_kept hroot,
      ?_, ?_⟩
    · rw [Scanner.scan, hfiles]
      simp [bind, Except.bind, pure, Except.pure, Scanner.spelled]
    · refine ⟨_, by rw [Scanner.sources, hfiles]; rfl, ?_⟩
      simp only [List.map_filterMap, List.filterMap_map]
      congr 1
      funext file
      simp [Scanner.source?, Scanner.normalized_below, Option.map_map, Function.comp_def]

/-- An absolute root is scanned, and one that leads up from the working folder. -/
example :
    let tree := ((FileTree.empty.put ["work"] .folder).put ["work", "a.js"] (.file .empty)).workIn
      ["work"]
    Scanner.scan ⟨"/work", [], [], .unknown⟩ tree = .ok ["/work/a.js"] ∧
      Scanner.scan ⟨"../work/", [], [], .unknown⟩ tree = .ok ["../work/a.js"] := by
  exact ⟨rfl, rfl⟩

end CallAtlas
