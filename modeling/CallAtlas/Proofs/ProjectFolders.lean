import CallAtlas.Proofs.CommandOutcomes
import CallAtlas.Proofs.PathParts
import CallAtlas.Proofs.ScannedFiles

/-!
# The folder that a project keeps to

The settings of a project may name a folder to which an analysis keeps.  A folder that is absolute
or goes up somewhere is refused before any file is looked at.  Any other is joined to the root, and
behind the parts of the root the joined path has the names of the folder, so it leads down from the
root.

There is one exception, which does not lead out either.  Joined to the empty root a folder stays as
it is, and then a dot at its beginning is a part of the path (`parts_join`).  The main statement,
`code_folder_stays_inside_root`, names the parts with that dot, and `dot_remains_below_empty_root`
shows a folder that has it.
-/

set_option autoImplicit false

namespace CallAtlas

/-! ## Folders that lead out -/

namespace FilePath

/-- A folder leads out of the one it is joined to if it is absolute or goes up somewhere. -/
def LeadsOut (folder : List Char) : Prop :=
  folder.head? = some '/' ∨ ['.', '.'] ∈ Text.splitAt '/' folder

instance : DecidablePred LeadsOut := fun _ => inferInstanceAs (Decidable (_ ∨ _))

/-- A folder leads out exactly when one of its parts is the root or a way up. -/
theorem leadsOut_iff {folder : List Char} :
    LeadsOut folder ↔ (parts folder).any fun part => part == .root || part == .up := by
  rw [LeadsOut, ← root_mem_parts_iff, ← up_mem_parts_iff, List.any_eq_true]
  constructor
  · rintro (h | h)
    · exact ⟨_, h, rfl⟩
    · exact ⟨_, h, rfl⟩
  · rintro ⟨part, hmem, hpart⟩
    simp only [Bool.or_eq_true, beq_iff_eq] at hpart
    rcases hpart with rfl | rfl
    · exact Or.inl hmem
    · exact Or.inr hmem

end FilePath

namespace Scanner

open FilePath (LeadsOut innerParts innerParts_eq_names names parts parts_append_slash
  parts_of_relative)

variable {root : String} {settings : Settings}

/-! ## The joined path -/

/-- A path joined to a root has the parts of the root and then its own. -/
theorem innerParts_eq_parts_join (hroot : root ≠ "") (path : String) :
    parts (join root path).toList = parts root.toList ++ innerParts path.toList := by
  obtain ⟨before, hbefore, hjoin⟩ := FileTree.exists_join hroot
  rw [hjoin]
  by_cases hempty : before = []
  · have hslash : root.toList = ['/'] := by
      rcases hbefore with h | h
      · rw [hempty, String.toList_eq_nil_iff] at h
        exact absurd h hroot
      · rw [h, hempty, List.nil_append]
    rw [hempty, hslash]
    exact FilePath.parts_slash _
  · rw [parts_append_slash hempty]
    rcases hbefore with h | h
    · rw [h]
    · rw [h, parts_append_slash hempty]
      exact congrArg (· ++ _) (List.append_nil _).symm

/-- Behind the parts of the root a folder that does not lead out has its names, but for a dot in
front of them where the root is empty and the folder begins with that dot. -/
theorem parts_join {folder : List Char} (h : ¬LeadsOut folder) :
    parts (join root (String.ofList folder)).toList =
      parts root.toList ++
        (if root = "" ∧ (Text.splitAt '/' folder).head? = some ['.'] then [.here] else []) ++
        (names folder).map .name := by
  rw [LeadsOut, not_or] at h
  by_cases hroot : root = ""
  · have hjoin : join root (String.ofList folder) = String.ofList folder := by
      rw [hroot, join]
      simp
    rw [hjoin, String.toList_ofList, parts_of_relative h.1, innerParts_eq_names h.2, hroot]
    simp only [true_and]
    rfl
  · rw [innerParts_eq_parts_join hroot, String.toList_ofList, innerParts_eq_names h.2]
    simp only [hroot, false_and, if_false, List.append_nil]

/-! ## The scanner of a project -/

/-- The folder to which an analysis keeps, without the blanks around it; it is empty if the
settings name none. -/
def keptFolder (settings : Settings) : List Char :=
  Text.trim (settings.codeFolder.getD "").toList

/-- The scanner of a project goes through a folder if it takes everything but the root from the
settings; there is no scanner if one of the patterns in them is no glob. -/
def GoesThrough (root : String) (settings : Settings) (folder : String) : Prop :=
  ofSettings root settings =
    (globs settings.exclude).map fun patterns =>
      ⟨folder, settings.suffixes, patterns, settings.languageHint⟩

/-- The scanner goes through the folder that the root is narrowed to. -/
theorem goesThrough_of_narrowedRoot {folder : String}
    (h : narrowedRoot root settings.codeFolder = .ok folder) :
    GoesThrough root settings folder := by
  rw [GoesThrough, ofSettings, h]
  cases globs settings.exclude <;> rfl

/-- If the root cannot be narrowed, there is no scanner. -/
theorem ofSettings_of_error {e : AnalysisError}
    (h : narrowedRoot root settings.codeFolder = .error e) :
    ofSettings root settings = .error e := by
  rw [ofSettings, h]
  rfl

/-- No path is to blame if the scanner goes through a folder. -/
theorem GoesThrough.ne_invalidPath {folder path : String} (h : GoesThrough root settings folder) :
    ofSettings root settings ≠ .error (.invalidPath path) := by
  rw [GoesThrough] at h
  rw [h]
  cases hglobs : globs settings.exclude with
  | ok patterns => exact nofun
  | error e =>
    obtain ⟨cause, rfl⟩ := pattern_of_globs hglobs
    exact nofun

/-- The root is narrowed to the kept folder, if there is one and it does not lead out. -/
theorem narrowedRoot_eq (root : String) (settings : Settings) :
    narrowedRoot root settings.codeFolder =
      if keptFolder settings = [] then .ok root
      else if LeadsOut (keptFolder settings) then
        .error (.invalidPath ("code folder must stay inside the project: " ++
          String.ofList (keptFolder settings)))
      else .ok (join root (String.ofList (keptFolder settings))) := by
  simp only [narrowedRoot, keptFolder, List.isEmpty_iff, FilePath.leadsOut_iff]

/-- A scan goes through the root if the settings name no folder but blanks.  It fails, whatever the
tree holds, exactly for a folder that leads out.  For all others it goes through a path that has
the names of the folder behind the parts of the root, and none of these names goes up. -/
theorem code_folder_stays_inside_root (root : String) (settings : Settings) :
    ((∃ path, ofSettings root settings = .error (.invalidPath path)) ↔
        LeadsOut (keptFolder settings)) ∧
      (keptFolder settings = [] ∧ GoesThrough root settings root ∨
        (LeadsOut (keptFolder settings) ∧
          ∀ tree, Analysis.scan settings tree root =
            .error (.invalidPath ("code folder must stay inside the project: " ++
              String.ofList (keptFolder settings)))) ∨
        ∃ path, keptFolder settings ≠ [] ∧ ¬LeadsOut (keptFolder settings) ∧
          GoesThrough root settings path ∧
          parts path.toList =
            parts root.toList ++
              (if root = "" ∧ (Text.splitAt '/' (keptFolder settings)).head? = some ['.'] then
                [.here] else []) ++
              (names (keptFolder settings)).map .name ∧
          ['.', '.'] ∉ names (keptFolder settings)) := by
  have hnarrowed := narrowedRoot_eq root settings
  by_cases hblank : keptFolder settings = []
  · rw [if_pos hblank] at hnarrowed
    have hthrough : GoesThrough root settings root := goesThrough_of_narrowedRoot hnarrowed
    have hout : ¬LeadsOut (keptFolder settings) := by
      rw [hblank]
      decide
    exact ⟨iff_of_false (fun ⟨_, herror⟩ => hthrough.ne_invalidPath herror) hout,
      Or.inl ⟨hblank, hthrough⟩⟩
  · rw [if_neg hblank] at hnarrowed
    by_cases hout : LeadsOut (keptFolder settings)
    · rw [if_pos hout] at hnarrowed
      have herror := ofSettings_of_error hnarrowed
      refine ⟨iff_of_true ⟨_, herror⟩ hout, Or.inr (Or.inl ⟨hout, fun tree => ?_⟩)⟩
      rw [Analysis.scan, herror]
      rfl
    · rw [if_neg hout] at hnarrowed
      have hthrough := goesThrough_of_narrowedRoot hnarrowed
      have hup : ['.', '.'] ∉ names (keptFolder settings) := fun hup =>
        hout (Or.inr (List.mem_filter.mp hup).1)
      exact ⟨iff_of_false (fun ⟨_, herror⟩ => hthrough.ne_invalidPath herror) hout,
        Or.inr (Or.inr ⟨_, hblank, hout, hthrough, parts_join hout, hup⟩)⟩

/-- The path that is scanned below the empty root keeps the dot of a folder, though the folder does
not lead out: its parts are not those of the root and the names of the folder. -/
theorem dot_remains_below_empty_root :
    ¬LeadsOut "./src".toList ∧
      GoesThrough "" { codeFolder := some "./src" } "./src" ∧
      parts "./src".toList ≠ parts "".toList ++ (names "./src".toList).map .name := by
  refine ⟨by decide, goesThrough_of_narrowedRoot rfl, by decide⟩

end Scanner

end CallAtlas
