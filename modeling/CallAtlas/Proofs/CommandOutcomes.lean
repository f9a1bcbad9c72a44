import CallAtlas.CommandLine.Program
import CallAtlas.Proofs.OutputOption
import CallAtlas.Proofs.WrittenFiles

/-!
# What a command comes to

A command loads its settings, scans the project, analyses what it has found, and prints or writes
the result.  It ends with 2 if the analysis finds no functions, with 1 if any other step fails, and
with 0 otherwise (`FindsNothing`, `StepFails`).  A command that fails prints nothing and changes no
file.  One that writes its result to a file prints nothing either, changes that file alone, and the
file holds what the command prints if it is not told to write a file.  The main statement is
`commands_end_as_their_steps_do`.

The commands share their first steps.  They part where an analysis ends without functions, which a
listing of definitions does not (`exists_result`).
-/

set_option autoImplicit false

namespace CallAtlas

/-! ## Failures of a scan -/

section Scan

variable {tree : FileTree} {settings : Settings} {root : String} {e : AnalysisError}

/-- Narrowing the root fails only because of the path of the code folder. -/
theorem Scanner.invalidPath_of_narrowedRoot {codeFolder : Option String}
    (h : narrowedRoot root codeFolder = .error e) : ∃ path, e = .invalidPath path := by
  simp only [narrowedRoot] at h
  split_ifs at h
  exact ⟨_, (Except.error.inj h).symm⟩

/-- Reading the exclude patterns fails only because of a pattern. -/
theorem Scanner.pattern_of_globs {patterns : List String} (h : globs patterns = .error e) :
    ∃ cause, e = .pattern cause := by
  induction patterns with
  | nil => exact absurd h pure_ne_error
  | cons pattern patterns ih =>
    rw [globs, List.mapM_cons, bind_eq_error_iff] at h
    rcases h with h | ⟨glob, -, h⟩
    · obtain ⟨cause, -, rfl⟩ := mapError_eq_error_iff.mp h
      exact ⟨cause, rfl⟩
    · rcases bind_eq_error_iff.mp h with h | ⟨globs, -, h⟩
      · exact ih h
      · exact absurd h pure_ne_error

/-- Listing the files fails only because of the path of the root. -/
theorem Scanner.invalidPath_of_files {scanner : Scanner} (h : scanner.files tree = .error e) :
    ∃ path, e = .invalidPath path := by
  simp only [files] at h
  split at h
  · exact ⟨_, (Except.error.inj h).symm⟩
  · split_ifs at h
    exact ⟨_, (Except.error.inj h).symm⟩

/-- A scan fails if the code folder leads out of the project, if a pattern is not valid, or if the
root is no folder. -/
inductive ScanFails (tree : FileTree) (settings : Settings) (root : String)
    (e : AnalysisError) : Prop where
  | codeFolder (h : Scanner.narrowedRoot root settings.codeFolder = .error e)
  | patterns (h : Scanner.globs settings.exclude = .error e)
  | files {scanner : Scanner} (hscanner : Scanner.ofSettings root settings = .ok scanner)
      (h : scanner.files tree = .error e)

/-- A scan never fails for want of functions. -/
theorem ScanFails.ne_noFunctions (h : ScanFails tree settings root e) (language : String)
    (files : Nat) : e ≠ .noFunctions language files := by
  rintro rfl
  cases h with
  | codeFolder h =>
    obtain ⟨path, heq⟩ := Scanner.invalidPath_of_narrowedRoot h
    exact AnalysisError.noConfusion heq
  | patterns h =>
    obtain ⟨cause, heq⟩ := Scanner.pattern_of_globs h
    exact AnalysisError.noConfusion heq
  | files hscanner h =>
    obtain ⟨path, heq⟩ := Scanner.invalidPath_of_files h
    exact AnalysisError.noConfusion heq

/-- An error of a scan comes from one of its three steps. -/
theorem scanFails_of_scan (h : Analysis.scan settings tree root = .error e) :
    ScanFails tree settings root e := by
  rcases bind_eq_error_iff.mp h with h | ⟨scanner, hscanner, h⟩
  · rcases bind_eq_error_iff.mp h with h | ⟨folder, -, h⟩
    · exact .codeFolder h
    · rcases bind_eq_error_iff.mp h with h | ⟨globs, -, h⟩
      · exact .patterns h
      · exact absurd h pure_ne_error
  · rcases bind_eq_error_iff.mp h with h | ⟨files, -, h⟩
    · exact .files hscanner h
    · exact absurd h pure_ne_error

/-- If one of its three steps fails, a scan ends in an error. -/
theorem ScanFails.exists_scan (h : ScanFails tree settings root e) :
    ∃ e', Analysis.scan settings tree root = .error e' := by
  cases hscan : Analysis.scan settings tree root with
  | error e' => exact ⟨e', rfl⟩
  | ok sources =>
    exfalso
    obtain ⟨scanner, hscanner, hsources⟩ := bind_eq_ok_iff.mp hscan
    obtain ⟨files, hfiles, -⟩ := bind_eq_ok_iff.mp hsources
    obtain ⟨folder, hfolder, hrest⟩ := bind_eq_ok_iff.mp hscanner
    obtain ⟨globs, hglobs, -⟩ := bind_eq_ok_iff.mp hrest
    cases h with
    | codeFolder h => exact absurd (h.symm.trans hfolder) nofun
    | patterns h => exact absurd (h.symm.trans hglobs) nofun
    | files hscanner' h =>
      obtain rfl := Except.ok.inj (hscanner.symm.trans hscanner')
      exact absurd (h.symm.trans hfiles) nofun

end Scan

namespace CommandLine

open FileTree (Written)

variable {args : List String} {tree : FileTree} {command : Command} {settings : Settings}

/-! ## The steps of a command -/

/-- Whether a command is an analysis that finds no functions. -/
inductive FindsNothing (tree : FileTree) : Command → Prop where
  | analysis {project : ProjectOptions} {grammar : Option Grammar} {maxDepth : Option Nat}
      {format : OutputFormat} {settings : Settings} {language : String} {files : Nat}
      (hsettings : (Command.analyze project grammar maxDepth format).settings tree = .ok settings)
      (h : Analysis.ofProject settings .silent tree project.root =
        .error (.noFunctions language files)) :
      FindsNothing tree (.analyze project grammar maxDepth format)

/-- Whether a step of a command fails, other than that an analysis finds no functions. -/
inductive StepFails (tree : FileTree) (command : Command) : Prop where
  /-- The file with the settings cannot be used. -/
  | settings {path : String} {cause : AnalysisError}
      (hpath : command.project.settingsFile = some path)
      (h : Settings.load tree path = .error cause)
  /-- The project cannot be scanned. -/
  | scan {settings : Settings} {cause : AnalysisError}
      (hsettings : command.settings tree = .ok settings)
      (h : ScanFails tree settings command.project.root cause)
  /-- The result cannot be written. -/
  | output {path text : String} {cause : FileFailure}
      (htext : command.result tree = .ok text) (hpath : command.project.output = some path)
      (h : tree.write path (text ++ "\n").toUTF8 = .error cause)

/-- The settings of a project fail exactly when the settings file that it names cannot be used. -/
theorem settingsFor_eq_error_iff {project : ProjectOptions} {e : CommandError} :
    settingsFor tree project = .error e ↔
      ∃ path cause, project.settingsFile = some path ∧ Settings.load tree path = .error cause ∧
        .settingsFile path cause = e := by
  unfold settingsFor
  cases project.settingsFile with
  | none => simp [pure_ne_error]
  | some path =>
    cases hload : Settings.load tree path <;>
      simp [hload, Except.mapError, bind, Except.bind, pure, Except.pure]

/-- The settings of a command fail exactly when those of its project do. -/
theorem settings_eq_error_iff {e : CommandError} :
    command.settings tree = .error e ↔
      ∃ path cause, command.project.settingsFile = some path ∧
        Settings.load tree path = .error cause ∧ .settingsFile path cause = e := by
  rw [Command.settings, bind_eq_error_iff, settingsFor_eq_error_iff]
  cases command with
  | analyze project grammar maxDepth format => simp [pure_ne_error]
  | functions project => simp [pure_ne_error]

/-- An error in the settings is the error of the command. -/
theorem result_of_settings_error {e : CommandError} (h : command.settings tree = .error e) :
    command.result tree = .error e := by
  rw [Command.result, h]
  rfl

/-- An error of the scan is the error of the command. -/
theorem result_of_scan_error {cause : AnalysisError}
    (hsettings : command.settings tree = .ok settings)
    (h : Analysis.scan settings tree command.project.root = .error cause) :
    command.result tree = .error (.analysis cause) := by
  rw [Command.result, hsettings]
  cases command with
  | analyze project grammar maxDepth format =>
    have hscan : Analysis.scan settings tree project.root = .error cause := h
    simp [Analysis.ofProject, hscan, Except.mapError, bind, Except.bind]
  | functions project =>
    have hscan : Analysis.scan settings tree project.root = .error cause := h
    simp [hscan, Except.mapError, bind, Except.bind]

/-- An analysis that finds no functions ends in the error that says so. -/
theorem FindsNothing.result_eq (h : FindsNothing tree command) :
    ∃ language files, command.result tree = .error (.analysis (.noFunctions language files)) := by
  cases h with
  | @analysis project grammar maxDepth format settings language files hsettings h =>
    refine ⟨language, files, ?_⟩
    rw [Command.result, hsettings]
    simp [h, Except.mapError, bind, Except.bind]

/-- A command that is not stopped has a result. -/
theorem exists_result (hnothing : ¬FindsNothing tree command) (hsteps : ¬StepFails tree command) :
    ∃ text, command.result tree = .ok text := by
  cases hsettings : command.settings tree with
  | error e =>
    obtain ⟨path, cause, hpath, hload, -⟩ := settings_eq_error_iff.mp hsettings
    exact absurd (.settings hpath hload) hsteps
  | ok settings =>
    cases hscan : Analysis.scan settings tree command.project.root with
    | error cause => exact absurd (.scan hsettings (scanFails_of_scan hscan)) hsteps
    | ok sources =>
      rw [Command.result, hsettings]
      cases command with
      | functions project =>
        have hproject : Analysis.scan settings tree project.root = .ok sources := hscan
        simp [hproject, Except.mapError, bind, Except.bind, pure, Except.pure]
      | analyze project grammar maxDepth format =>
        have hproject : Analysis.ofProject settings .silent tree project.root =
            Analysis.ofSources settings .silent sources := by
          rw [Analysis.ofProject, show Analysis.scan settings tree project.root = _ from hscan]
          rfl
        cases hanalysis : Analysis.ofSources settings .silent sources with
        | ok analysis =>
          simp [hproject, hanalysis, Except.mapError, bind, Except.bind, pure, Except.pure]
        | error cause =>
          have hcause : cause = .noFunctions settings.language sources.length := by
            simp only [Analysis.ofSources] at hanalysis
            split_ifs at hanalysis
            exact (Except.error.inj hanalysis).symm
          rw [hcause] at hanalysis
          exact absurd (.analysis hsettings (hproject.trans hanalysis)) hnothing

/-! ## Carrying out a command -/

/-- A command that succeeds ends with 0. -/
theorem execute_of_ok {printed : String} {tree' : FileTree}
    (h : command.perform tree = .ok (printed, tree')) :
    command.execute tree = ⟨0, printed, none, tree'⟩ := by
  rw [Command.execute, h]

/-- A command that fails reports its error and leaves the files as they were. -/
theorem execute_of_error {e : CommandError} (h : command.perform tree = .error e) :
    command.execute tree = ⟨e.exitCode, "", some e.report, tree⟩ := by
  rw [Command.execute, h]

/-- A command without a result reports its error and leaves the files as they were. -/
theorem execute_of_result_error {e : CommandError} (h : command.result tree = .error e) :
    command.execute tree = ⟨e.exitCode, "", some e.report, tree⟩ := by
  apply execute_of_error
  rw [Command.perform, h]
  rfl

section Performing

variable {path text : String} (htext : command.result tree = .ok text)

include htext

/-- A result that goes to no file is printed with a newline behind it. -/
theorem execute_of_none (hpath : command.project.output = none) :
    command.execute tree = ⟨0, text ++ "\n", none, tree⟩ := by
  apply execute_of_ok
  simp only [Command.perform, htext, hpath, bind, Except.bind, pure, Except.pure]

/-- A result that cannot be written ends the command with 1. -/
theorem execute_of_write_error {cause : FileFailure} (hpath : command.project.output = some path)
    (h : tree.write path (text ++ "\n").toUTF8 = .error cause) :
    (command.execute tree).exitCode = 1 := by
  have hperform : command.perform tree = .error (.output path cause) := by
    simp only [Command.perform, htext, hpath, h, Except.mapError, bind, Except.bind]
  rw [execute_of_error hperform]
  rfl

/-- A result that is written is not printed. -/
theorem execute_of_write {tree' : FileTree} (hpath : command.project.output = some path)
    (h : tree.write path (text ++ "\n").toUTF8 = .ok tree') :
    command.execute tree = ⟨0, "", none, tree'⟩ := by
  apply execute_of_ok
  simp only [Command.perform, htext, hpath, h, Except.mapError, bind, Except.bind, pure,
    Except.pure]

end Performing

/-- An analysis that finds no functions ends with 2. -/
theorem exitCode_of_findsNothing (h : FindsNothing tree command) :
    (command.execute tree).exitCode = 2 := by
  obtain ⟨language, files, hresult⟩ := h.result_eq
  rw [execute_of_result_error hresult]
  rfl

/-- A command of which another step fails ends with 1. -/
theorem exitCode_of_stepFails (h : StepFails tree command) :
    (command.execute tree).exitCode = 1 := by
  cases h with
  | @settings path cause hpath h =>
    have hsettings : command.settings tree = .error (.settingsFile path cause) :=
      settings_eq_error_iff.mpr ⟨path, cause, hpath, h, rfl⟩
    rw [execute_of_result_error (result_of_settings_error hsettings)]
    rfl
  | scan hsettings h =>
    obtain ⟨cause, hscan⟩ := h.exists_scan
    have hother := (scanFails_of_scan hscan).ne_noFunctions
    rw [execute_of_result_error (result_of_scan_error hsettings hscan)]
    cases cause with
    | noFunctions language files => exact absurd rfl (hother language files)
    | _ => rfl
  | output htext hpath h => exact execute_of_write_error htext hpath h

/-- A command that is not stopped prints its result or writes it. -/
theorem execute_cases (hnothing : ¬FindsNothing tree command) (hsteps : ¬StepFails tree command) :
    ∃ text, command.result tree = .ok text ∧
      ((command.project.output = none ∧
          command.execute tree = ⟨0, text ++ "\n", none, tree⟩) ∨
        ∃ path tree', command.project.output = some path ∧
          tree.write path (text ++ "\n").toUTF8 = .ok tree' ∧
          command.execute tree = ⟨0, "", none, tree'⟩) := by
  obtain ⟨text, htext⟩ := exists_result hnothing hsteps
  refine ⟨text, htext, ?_⟩
  cases houtput : command.project.output with
  | none => exact Or.inl ⟨rfl, execute_of_none htext houtput⟩
  | some path =>
    cases hwrite : tree.write path (text ++ "\n").toUTF8 with
    | error cause => exact absurd (.output htext houtput hwrite) hsteps
    | ok tree' => exact Or.inr ⟨path, tree', rfl, hwrite, execute_of_write htext houtput hwrite⟩

/-- A command that nothing stops ends with 0. -/
theorem exitCode_of_done (hnothing : ¬FindsNothing tree command)
    (hsteps : ¬StepFails tree command) : (command.execute tree).exitCode = 0 := by
  obtain ⟨text, -, ⟨-, hdone⟩ | ⟨path, tree', -, -, hdone⟩⟩ := execute_cases hnothing hsteps
  · rw [hdone]
  · rw [hdone]

/-- A command that does not end with 0 prints nothing and changes nothing. -/
theorem untouched_of_exitCode (h : (command.execute tree).exitCode ≠ 0) :
    (command.execute tree).printed = "" ∧ (command.execute tree).tree = tree := by
  cases hperform : command.perform tree with
  | error e =>
    rw [execute_of_error hperform]
    exact ⟨rfl, rfl⟩
  | ok done =>
    rw [execute_of_ok hperform] at h
    exact absurd rfl h

/-- A command that is to write no file leaves the files as they were. -/
theorem tree_of_none (h : command.project.output = none) : (command.execute tree).tree = tree := by
  cases htext : command.result tree with
  | error e => rw [execute_of_result_error htext]
  | ok text => rw [execute_of_none htext h]

/-! ## Printing and writing -/

/-- The printing form of a command writes no file. -/
theorem output_printing (command : Command) : command.printing.project.output = none := by
  cases command <;> rfl

/-- The printing form of a command has the same result. -/
theorem result_printing (tree : FileTree) (command : Command) :
    command.printing.result tree = command.result tree := by
  cases command <;> rfl

/-- A file that a command writes holds what the command prints without it. -/
theorem written_of_execute {path : String} (hnothing : ¬FindsNothing tree command)
    (hsteps : ¬StepFails tree command) (hpath : command.project.output = some path) :
    (command.execute tree).printed = "" ∧ (command.printing.execute tree).exitCode = 0 ∧
      Written tree path (command.printing.execute tree).printed.toUTF8
        (command.execute tree).tree := by
  obtain ⟨text, htext, ⟨hnone, -⟩ | ⟨path', tree', hpath', hwrite, hdone⟩⟩ :=
    execute_cases hnothing hsteps
  · rw [hnone] at hpath
    exact absurd hpath nofun
  · obtain rfl : path = path' := Option.some.inj (hpath.symm.trans hpath')
    have hprinted : command.printing.result tree = .ok text := by
      rw [result_printing, htext]
    rw [hdone, execute_of_none hprinted (output_printing command)]
    exact ⟨rfl, rfl, FileTree.written_of_write hwrite⟩

/-- What a run of a command comes to. -/
structure Settles (tree : FileTree) (command : Command) (outcome : Outcome) : Prop where
  /-- It ends with 2 if the analysis finds no functions. -/
  two_iff : outcome.exitCode = 2 ↔ FindsNothing tree command
  /-- It ends with 1 if another step fails. -/
  one_iff : outcome.exitCode = 1 ↔ StepFails tree command
  /-- Otherwise it ends with 0. -/
  zero_iff : outcome.exitCode = 0 ↔ ¬FindsNothing tree command ∧ ¬StepFails tree command
  /-- If it fails, it prints nothing and changes nothing. -/
  failed : outcome.exitCode ≠ 0 → outcome.printed = "" ∧ outcome.tree = tree
  /-- If it is not told to write a file, it changes nothing. -/
  printed : command.project.output = none → outcome.tree = tree
  /-- If it is, it prints nothing and changes that file alone, to what the same command prints that
  is not told to write a file. -/
  written : ∀ path, command.project.output = some path → outcome.exitCode = 0 →
    outcome.printed = "" ∧ (command.printing.execute tree).exitCode = 0 ∧
      Written tree path (command.printing.execute tree).printed.toUTF8 outcome.tree

/-- Carrying out a command comes to what `Settles` says. -/
theorem settles_execute (tree : FileTree) (command : Command) :
    Settles tree command (command.execute tree) := by
  -- The three ends exclude each other, and one of them is reached.
  have htwo : FindsNothing tree command → (command.execute tree).exitCode = 2 :=
    exitCode_of_findsNothing
  have hone : StepFails tree command → (command.execute tree).exitCode = 1 :=
    exitCode_of_stepFails
  have hzero : ¬FindsNothing tree command → ¬StepFails tree command →
      (command.execute tree).exitCode = 0 := exitCode_of_done
  have hdone : (command.execute tree).exitCode = 0 ↔
      ¬FindsNothing tree command ∧ ¬StepFails tree command := by
    grind
  refine ⟨by grind, by grind, hdone, untouched_of_exitCode, tree_of_none, ?_⟩
  intro path hpath hcode
  obtain ⟨hnothing, hsteps⟩ := hdone.mp hcode
  exact written_of_execute hnothing hsteps hpath

end CommandLine

open CommandLine

/-- **A command ends as its steps do**, and a file that it is told to write holds what it would
print: what any run prints whose arguments ask for the same command without that file. -/
theorem commands_end_as_their_steps_do {args : List String} {command : Command}
    (h : request? args = some (.run command)) (tree : FileTree) :
    Settles tree command (run args tree) ∧
      (∃ args', request? args' = some (.run command.printing)) ∧
      ∀ args', request? args' = some (.run command.printing) →
        run args' tree = command.printing.execute tree := by
  refine ⟨?_, exists_printing_arguments h, fun args' h' => ?_⟩
  · rw [run, h]
    exact settles_execute tree command
  · rw [run, h']

/-- A working folder with one script. -/
def scriptFolder : FileTree :=
  ((FileTree.empty.put ["work"] .folder).put ["work", "a.js"]
    (.file "function f() \x7bg();\x7d".toUTF8)).workIn ["work"]

/-- The definitions of the folder, written to a file; both paths are absolute. -/
def listing : Command :=
  .functions ⟨"/work", none, none, none, false, some "/work/out.json"⟩

/-- A listing of an absolute folder, written to an absolute path, ends with 0. -/
theorem listing_is_written :
    request? ["functions", "/work", "-o", "/work/out.json"] = some (.run listing) ∧
      (run ["functions", "/work", "-o", "/work/out.json"] scriptFolder).exitCode = 0 ∧
      Settles scriptFolder listing
        (run ["functions", "/work", "-o", "/work/out.json"] scriptFolder) := by
  have hrequest : request? ["functions", "/work", "-o", "/work/out.json"] = some (.run listing) :=
    rfl
  exact ⟨hrequest, by decide +kernel, (commands_end_as_their_steps_do hrequest scriptFolder).1⟩

end CallAtlas
