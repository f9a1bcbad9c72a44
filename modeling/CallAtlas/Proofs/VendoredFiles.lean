import CallAtlas.Analysis
import CallAtlas.Proofs.GlobReadings
import CallAtlas.Proofs.ScannedFiles

/-!
# The files that the default patterns leave out

By default a scan leaves out the code of others and the output of builds: all that is in a folder
with one of four names, at any depth, and minified scripts.  A path is such a one by its names and
its ending alone (`isVendored`).  The main statement, `default_patterns_drop_vendored_files`, says
that the default patterns are globs, that together they match exactly these paths, and what this
means for a scan: with the default patterns it finds what it would find with none, but for the
vendored files.

Globs are matched against paths whose backslashes have become slashes, so this is how a scan tells
vendored files.  A path that is vendored before remains so (`isVendored_normalized`).
-/

set_option autoImplicit false

namespace CallAtlas

namespace Scanner

/-! ## Scans with and without globs -/

/-- The scanner that leaves nothing out. -/
def unexcluding (scanner : Scanner) : Scanner :=
  { scanner with exclude := [] }

/-- Whether one of some globs matches a path. -/
def isExcluded (globs : List Glob) (path : String) : Bool :=
  globs.any fun glob => glob.matchesPath false path

/-- A scanner picks what it would without globs, unless a glob matches it. -/
theorem picks_eq (scanner : Scanner) (path : String) :
    scanner.picks path = (scanner.unexcluding.picks path && !isExcluded scanner.exclude path) := by
  simp only [picks, unexcluding, isExcluded, List.any_nil, Bool.not_false, Bool.true_and,
    Bool.and_comm]

/-- A scanner keeps what it would without globs but for what they match. -/
theorem kept_eq_filter (scanner : Scanner) (tree : FileTree) (folder : List String) :
    scanner.kept tree folder =
      (scanner.unexcluding.kept tree folder).filter fun file =>
        !isExcluded scanner.exclude (normalized (below file.1)) := by
  rw [kept, kept, List.filter_filterMap]
  refine List.filterMap_congr fun e _ => ?_
  have hspelled : scanner.unexcluding.spelled e.1 = scanner.spelled e.1 := rfl
  rw [picks_eq, hspelled]
  cases scanner.unexcluding.picks (normalized (below e.1)) with
  | false => rfl
  | true =>
    rw [if_pos rfl, Bool.true_and, Option.filter_map]
    cases hread : (tree.read (scanner.spelled e.1)).toOption with
    | none => simp
    | some content => simp [Option.filter]

/-- A scanner picks the files that it would pick without globs and no glob of it matches. -/
theorem files_eq_filter (scanner : Scanner) (tree : FileTree) :
    scanner.files tree =
      (scanner.unexcluding.files tree).map fun found =>
        found.filter fun file => !isExcluded scanner.exclude (normalized file.1) := by
  cases hroot : tree.resolve scanner.root with
  | error e => simp [files, unexcluding, hroot, Except.map]
  | ok folder =>
    cases hfolder : tree.hasFolder folder with
    | false => simp [files, unexcluding, hroot, hfolder, Except.map]
    | true =>
      rw [files_eq hroot hfolder, @files_eq scanner.unexcluding tree folder hroot hfolder,
        kept_eq_filter, Except.map, List.filter_map]
      rfl

/-- A scan lists what it would without globs but for what they match. -/
theorem scan_eq_filter (scanner : Scanner) (tree : FileTree) {p : String → Bool}
    (h : ∀ path, isExcluded scanner.exclude path = p path) :
    scanner.scan tree =
      (scanner.unexcluding.files tree).map fun found =>
        (found.filter fun file => !p (normalized file.1)).map fun file =>
          join scanner.root file.1 := by
  rw [scan, files_eq_filter]
  simp only [h]
  cases scanner.unexcluding.files tree <;> rfl

/-- The sources are those without globs but for what they match. -/
theorem sources_eq_filter (scanner : Scanner) (tree : FileTree) {p : String → Bool}
    (h : ∀ path, isExcluded scanner.exclude path = p path) :
    scanner.sources tree =
      (scanner.unexcluding.sources tree).map fun found =>
        found.filter fun source => !p source.path := by
  have hsource : scanner.unexcluding.source? = scanner.source? := rfl
  rw [sources, sources, files_eq_filter, hsource]
  cases scanner.unexcluding.files tree with
  | error e => rfl
  | ok found =>
    refine congrArg Except.ok ?_
    show _ = (found.filterMap scanner.source?).filter _
    rw [List.filterMap_filter, List.filter_filterMap]
    refine List.filterMap_congr fun file _ => ?_
    rw [h, source?]
    cases String.fromUTF8? file.2 with
    | none => simp
    | some text => simp [Option.filter]

/-- The settings with other patterns of files to leave out. -/
def excluding (settings : Settings) (patterns : List String) : Settings :=
  { settings with exclude := patterns }

/-- Scanners for settings that differ in the patterns differ in the globs. -/
theorem ofSettings_excluding (root : String) (settings : Settings) {patterns : List String}
    {read : List Glob} (h : globs patterns = .ok read) :
    (∃ e, ofSettings root (excluding settings patterns) = .error e ∧
        ofSettings root (excluding settings []) = .error e) ∨
      ∃ scanner, scanner.exclude = read ∧
        ofSettings root (excluding settings patterns) = .ok scanner ∧
        ofSettings root (excluding settings []) = .ok scanner.unexcluding := by
  have hnone : globs [] = .ok [] := rfl
  -- Left as they are, the suffixes and the language would be computed to see that they agree.
  have hsuffixes : ∀ patterns, (excluding settings patterns).suffixes = settings.suffixes :=
    fun _ => rfl
  have hhint : ∀ patterns, (excluding settings patterns).languageHint = settings.languageHint :=
    fun _ => rfl
  rw [ofSettings, ofSettings, hsuffixes, hsuffixes, hhint, hhint]
  simp only [excluding, h, hnone, bind, Except.bind, pure, Except.pure]
  cases narrowedRoot root settings.codeFolder with
  | error e => exact Or.inl ⟨e, rfl, rfl⟩
  | ok folder =>
    refine Or.inr ⟨⟨folder, settings.suffixes, read, settings.languageHint⟩, rfl, rfl, ?_⟩
    rw [unexcluding]

end Scanner

/-! ## Vendored files -/

/-- The names of the folders with the code of others or the output of builds. -/
def vendoredFolders : List String :=
  ["node_modules", "dist", "build", "target"]

/-- What the names of minified scripts end in. -/
def minifiedEnding : String :=
  ".min.js"

/-- Whether a path goes through a folder with the code of others or the output of builds, or is
that of a minified script. -/
def isVendored (path : String) : Bool :=
  (FileTree.steps path).dropLast.any vendoredFolders.contains ||
    minifiedEnding.toList.isSuffixOf path.toList

/-- A path is vendored if one of the folders is a step before its last, or the ending ends it. -/
theorem isVendored_iff {path : String} :
    isVendored path ↔
      (∃ folder ∈ vendoredFolders, folder ∈ (FileTree.steps path).dropLast) ∨
        minifiedEnding.toList <:+ path.toList := by
  simp only [isVendored, Bool.or_eq_true, List.any_eq_true, List.contains_iff_mem,
    List.isSuffixOf_iff_suffix, and_comm]

-- A longer name does not make a folder vendored, nor does the name of such a folder make a file so.
example : isVendored "mydist/dist2/build" = false := by decide

/-- The usual patterns are the globs of these folders and of this ending. -/
theorem default_patterns :
    ({} : Settings).exclude =
      vendoredFolders.map (fun folder => Glob.folderGlob folder.toList) ++
        [Glob.endingGlob minifiedEnding.toList] := by
  decide

/-- No character of the names and of the ending means something in a glob, and none is a slash or
becomes one. -/
theorem vendored_words_plain {word : String} (h : word ∈ minifiedEnding :: vendoredFolders) :
    (∀ c ∈ word.toList, Glob.isPlain c) ∧ '/' ∉ word.toList ∧
      word.toList.map (fun c => if c == '\\' then '/' else c) = word.toList := by
  have hall : ∀ word ∈ minifiedEnding :: vendoredFolders,
      word.toList.all Glob.isPlain ∧ '/' ∉ word.toList ∧
        word.toList.map (fun c => if c == '\\' then '/' else c) = word.toList := by
    decide
  obtain ⟨hplain, hrest⟩ := hall word h
  exact ⟨List.all_eq_true.mp hplain, hrest⟩

/-- A vendored path is vendored in its normal form. -/
theorem isVendored_normalized {path : String} (h : isVendored path) :
    isVendored (Scanner.normalized path) := by
  rw [isVendored_iff] at h ⊢
  rw [Scanner.normalized, String.toList_ofList]
  rcases h with ⟨folder, hfolder, hmem⟩ | ⟨front, hfront⟩
  · obtain ⟨-, hslash, hmap⟩ := vendored_words_plain (List.mem_cons_of_mem _ hfolder)
    refine Or.inl ⟨folder, hfolder, ?_⟩
    rw [← String.ofList_toList (s := folder), Glob.mem_dropLast_steps_iff,
      Text.mem_dropLast_splitAt_iff hslash] at hmem ⊢
    obtain ⟨before, after, hpath, hbefore⟩ := hmem
    rw [String.toList_ofList, hpath]
    simp only [List.map_append, List.map_cons, hmap]
    refine ⟨_, _, rfl, ?_⟩
    rcases hbefore with rfl | ⟨earlier, rfl⟩
    · exact Or.inl rfl
    · exact Or.inr ⟨_, List.map_append⟩
  · right
    rw [← hfront, List.map_append, (vendored_words_plain List.mem_cons_self).2.2]
    exact List.suffix_append _ _

/-! ## What the default patterns match -/

namespace Scanner

/-- The patterns are globs, and one of them matches a path just if the path has some property. -/
def ExcludeJust (patterns : List String) (p : String → Prop) : Prop :=
  ∃ read, globs patterns = .ok read ∧ ∀ path, isExcluded read path ↔ p path

/-- No patterns exclude nothing. -/
theorem excludeJust_nil : ExcludeJust [] fun _ => False :=
  ⟨[], rfl, fun path => by simp [isExcluded]⟩

/-- One more pattern excludes what its glob matches besides. -/
theorem ExcludeJust.cons {pattern : String} {patterns : List String} {glob : Glob}
    {p q : String → Prop} (hpattern : Glob.ofString pattern = .ok glob)
    (hglob : ∀ path, glob.matchesPath false path ↔ q path) (h : ExcludeJust patterns p) :
    ExcludeJust (pattern :: patterns) fun path => q path ∨ p path := by
  obtain ⟨read, hread, hexcluded⟩ := h
  refine ⟨glob :: read, ?_, fun path => ?_⟩
  · rw [globs] at hread ⊢
    rw [List.mapM_cons, hread, hpattern]
    rfl
  · rw [isExcluded, List.any_cons, Bool.or_eq_true, hglob, ← isExcluded, hexcluded]

/-- The property may be told in other words. -/
theorem ExcludeJust.congr {patterns : List String} {p q : String → Prop}
    (h : ExcludeJust patterns p) (hpq : ∀ path, p path ↔ q path) : ExcludeJust patterns q := by
  obtain ⟨read, hread, hexcluded⟩ := h
  exact ⟨read, hread, fun path => (hexcluded path).trans (hpq path)⟩

/-- In front of other patterns, those for folders exclude the paths through one of the folders. -/
theorem ExcludeJust.folders {folders patterns : List String} {p : String → Prop}
    (hfolders : ∀ folder ∈ folders, (∀ c ∈ folder.toList, Glob.isPlain c) ∧ '/' ∉ folder.toList)
    (h : ExcludeJust patterns p) :
    ExcludeJust (folders.map (fun folder => Glob.folderGlob folder.toList) ++ patterns) fun path =>
      (∃ folder ∈ folders, folder ∈ (FileTree.steps path).dropLast) ∨ p path := by
  induction folders with
  | nil => exact h.congr fun path => by simp
  | cons folder folders ih =>
    obtain ⟨⟨hplain, hslash⟩, hrest⟩ := List.forall_mem_cons.mp hfolders
    obtain ⟨glob, hglob, hmatches⟩ :=
      @Glob.matchesPath_folderGlob_iff false folder.toList hplain hslash
    rw [String.ofList_toList] at hmatches
    exact (ExcludeJust.cons hglob hmatches (ih hrest)).congr fun path => by
      simp only [List.exists_mem_cons_iff, or_assoc]

/-- The default patterns exclude the vendored files. -/
theorem excludeJust_default : ExcludeJust ({} : Settings).exclude fun path => isVendored path := by
  have hfolders : ∀ folder ∈ vendoredFolders,
      (∀ c ∈ folder.toList, Glob.isPlain c) ∧ '/' ∉ folder.toList := fun folder hmem =>
    have hplain := vendored_words_plain (List.mem_cons_of_mem _ hmem)
    ⟨hplain.1, hplain.2.1⟩
  have hending : minifiedEnding.toList = '.' :: "min.js".toList := by decide
  have hplain := (vendored_words_plain List.mem_cons_self).1
  rw [hending] at hplain
  obtain ⟨glob, hglob, hmatches⟩ := Glob.matchesPath_endingGlob_iff hplain (by decide)
  rw [← hending] at hglob hmatches
  rw [default_patterns]
  exact ((excludeJust_nil.cons hglob hmatches).folders hfolders).congr fun path => by
    rw [isVendored_iff, or_false]

end Scanner

/-- The default patterns are globs.  One of them matches a path just if the path is vendored, and a
path that is vendored is so also with slashes for backslashes, which is how scans match paths.  So
with these patterns a scan finds the files that it finds with none, without those that are
vendored. -/
theorem default_patterns_drop_vendored_files :
    (∃ read, Scanner.globs ({} : Settings).exclude = .ok read ∧
        ∀ path, Scanner.isExcluded read path = isVendored path) ∧
      (∀ path, isVendored path → isVendored (Scanner.normalized path)) ∧
      ∀ (settings : Settings) (root : String) (tree : FileTree),
        let usual := Scanner.excluding settings ({} : Settings).exclude
        let all := Scanner.excluding settings []
        ((Scanner.ofSettings root usual).bind fun scanner => scanner.scan tree) =
            ((Scanner.ofSettings root all).bind fun scanner =>
              (scanner.files tree).map fun found =>
                (found.filter fun file => !isVendored (Scanner.normalized file.1)).map fun file =>
                  Scanner.join scanner.root file.1) ∧
          Analysis.scan usual tree root =
            (Analysis.scan all tree root).map fun sources =>
              sources.filter fun source => !isVendored source.path := by
  obtain ⟨read, hread, hexcluded⟩ := Scanner.excludeJust_default
  replace hexcluded : ∀ path, Scanner.isExcluded read path = isVendored path := fun path =>
    Bool.eq_iff_iff.mpr (hexcluded path)
  refine ⟨⟨read, hread, hexcluded⟩, fun path => isVendored_normalized, fun settings root tree => ?_⟩
  rcases Scanner.ofSettings_excluding root settings hread with
    ⟨e, husual, hall⟩ | ⟨scanner, rfl, husual, hall⟩
  · simp only [Analysis.scan, husual, hall]
    exact ⟨rfl, rfl⟩
  · simp only [Analysis.scan, husual, hall, Except.bind, bind]
    exact ⟨Scanner.scan_eq_filter scanner tree hexcluded,
      Scanner.sources_eq_filter scanner tree hexcluded⟩

/-- A bundle in a folder of that kind is vendored, also with a backslash further up. -/
theorem bundle_below_backslash_is_vendored :
    isVendored "old\\web/dist/v1/app.js" ∧
      isVendored (Scanner.normalized "old\\web/dist/v1/app.js") :=
  have h : isVendored "old\\web/dist/v1/app.js" := by decide
  ⟨h, default_patterns_drop_vendored_files.2.1 _ h⟩

end CallAtlas
