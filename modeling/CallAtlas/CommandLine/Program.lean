import CallAtlas.Analysis
import CallAtlas.CommandLine.Arguments
import CallAtlas.JsonValue

/-!
# The program

What the program does with its arguments in a given file tree: what it prints, what it reports, how
it ends and what it writes.
-/

set_option autoImplicit false

namespace CallAtlas.CommandLine

/-- Why a command fails. -/
inductive CommandError where
  /-- The file with the settings cannot be used. -/
  | settingsFile (path : String) (cause : AnalysisError)
  /-- The project cannot be analysed. -/
  | analysis (cause : AnalysisError)
  /-- The result cannot be written. -/
  | output (path : String) (cause : FileFailure)
  deriving Repr, DecidableEq

namespace CommandError

/-- What is reported. -/
def report : CommandError → String
  | settingsFile path cause => "Error: Failed to load config " ++ path ++ ": " ++ cause.fullMessage
  | analysis (.noFunctions language files) => (AnalysisError.noFunctions language files).message
  | analysis cause => "Error: " ++ cause.fullMessage
  | output path cause => "Error: Failed to write " ++ path ++ ": " ++ cause.message

/-- The number that the program ends with. -/
def exitCode : CommandError → Nat
  | analysis (.noFunctions _ _) => 2
  | _ => 1

end CommandError

/-- What a run of the program comes to. -/
structure Outcome where
  /-- The number it ends with. -/
  exitCode : Nat
  /-- What it prints. -/
  printed : String
  /-- What it reports if it fails. -/
  report : Option String
  /-- The files after it. -/
  tree : FileTree

/-- The settings that the options of a project ask for. -/
def settingsFor (tree : FileTree) (project : ProjectOptions) : Except CommandError Settings := do
  let settings ← match project.settingsFile with
    | some path => (Settings.load tree path).mapError (.settingsFile path)
    | none => pure {}
  return { settings with
    language := project.language.getD settings.language
    codeFolder := project.codeFolder.or settings.codeFolder
    extraction := { settings.extraction with
      preferStructured := project.preferStructured || settings.extraction.preferStructured } }

/-- An analysis as JSON. -/
def analysisJson (analysis : Analysis) : JsonValue :=
  .object
    [("diagram", .text analysis.diagram),
     ("grammar", .text analysis.grammar.shape),
     ("summary", .object
       [("total_functions", .number analysis.summary.functions),
        ("total_files", .number analysis.summary.files),
        ("language", .text analysis.summary.language),
        ("entry_point_count", .number analysis.summary.entryPoints),
        ("call_edges", .number analysis.summary.callEdges),
        ("recursive_groups", .array
          (analysis.summary.recursiveGroups.map fun group => .array (group.map .text))),
        ("enhanced", .boolean analysis.summary.enhanced)])]

/-- A definition as JSON. -/
def definitionJson (d : Definition) : JsonValue :=
  .object
    [("name", .text d.name), ("file", .text d.file), ("line", .number d.line),
     ("kind", .text d.kind.label), ("calls", .array (d.calls.toList.map .text))]

/-- The text of an analysis in a form. -/
def analysisText (analysis : Analysis) : OutputFormat → String
  | .text => analysis.diagram
  | .json => (analysisJson analysis).render

namespace Command

/-- The options about the project. -/
def project : Command → ProjectOptions
  | analyze project _ _ _ => project
  | functions project => project

/-- The settings that a command is carried out with. -/
def settings (tree : FileTree) (command : Command) : Except CommandError Settings := do
  let settings ← settingsFor tree command.project
  match command with
  | analyze _ grammar maxDepth _ =>
    return { settings with
      grammar := grammar.getD settings.grammar
      maxDepth := maxDepth.getD settings.maxDepth }
  | functions _ => return settings

/-- The text that a command results in. -/
def result (tree : FileTree) (command : Command) : Except CommandError String := do
  let settings ← command.settings tree
  match command with
  | analyze project _ _ format =>
    let analysis ← (Analysis.ofProject settings .silent tree project.root).mapError .analysis
    return analysisText analysis format
  | functions project =>
    let sources ← (Analysis.scan settings tree project.root).mapError .analysis
    return (JsonValue.array ((Analysis.definitions settings sources).map definitionJson)).render

/-- The text that a command prints and the files after it: the result with a newline is printed, or
written to a file. -/
def perform (tree : FileTree) (command : Command) : Except CommandError (String × FileTree) := do
  let text := (← command.result tree) ++ "\n"
  match command.project.output with
  | none => return (text, tree)
  | some path => return ("", ← (tree.write path text.toUTF8).mapError (.output path))

/-- Carries out a command. -/
def execute (tree : FileTree) (command : Command) : Outcome :=
  match command.perform tree with
  | .ok (printed, tree) => ⟨0, printed, none, tree⟩
  | .error e => ⟨e.exitCode, "", some e.report, tree⟩

end Command

/-- The name and the version of the program. -/
def versionText : String := "calltree 0.1.0\n"

/-- How the program is used. -/
def usageText : String :=
  "Usage: calltree [-v] analyze ROOT [-l LANGUAGE] [-c FILE] [--code-folder FOLDER]\n" ++
  "           [--prefer-structured] [-g GRAMMAR] [--max-depth N] [-f FORMAT] [-o FILE]\n" ++
  "       calltree [-v] functions ROOT [-l LANGUAGE] [-c FILE] [--code-folder FOLDER]\n" ++
  "           [--prefer-structured] [-o FILE]\n"

/-- Runs the program. -/
def run (args : List String) (tree : FileTree) : Outcome :=
  match request? args with
  | none => ⟨2, "", none, tree⟩
  | some .help => ⟨0, "", none, tree⟩
  | some .version => ⟨0, versionText, none, tree⟩
  | some (.run command) => command.execute tree

end CallAtlas.CommandLine
