import CallAtlas.CallForest
import CallAtlas.CallGraph
import CallAtlas.Diagram.Render
import CallAtlas.Diagram.Revision
import CallAtlas.Diagram.Tidy
import CallAtlas.Scanner

/-!
# Analysis

The diagram of a program and its figures.  The definitions of all files make up the call forest and
the call graph; the forest is drawn in the grammar of the settings, perhaps revised from outside,
and tidied.
-/

set_option autoImplicit false

namespace CallAtlas

/-- Figures of a program. -/
structure Summary where
  /-- The number of definitions. -/
  functions : Nat
  /-- The number of files. -/
  files : Nat
  /-- The label of the language. -/
  language : String
  /-- The number of entry points, also of those without a tree. -/
  entryPoints : Nat
  /-- The number of edges of the call graph. -/
  callEdges : Nat
  /-- The groups of names that call each other. -/
  recursiveGroups : List (List String)
  /-- Whether the diagram is a revised one. -/
  enhanced : Bool
  deriving Repr, DecidableEq

/-- A diagram with the figures of the program. -/
structure Analysis where
  /-- The text of the diagram. -/
  diagram : String
  /-- The grammar of the diagram. -/
  grammar : Grammar
  /-- The figures. -/
  summary : Summary
  deriving Repr, DecidableEq

/-- Revises a rendered diagram, or fails to. -/
abbrev Reviser : Type := String → Grammar → Option String

/-- The reviser that never answers. -/
def Reviser.silent : Reviser := fun _ _ => none

namespace Analysis

/-- The definitions of all files, file by file. -/
def definitions (settings : Settings) (sources : List SourceFile) : List Definition :=
  sources.flatMap fun source =>
    extract settings.extraction source.language source.text source.path

/-- The rendered diagram of some definitions. -/
def rendered (settings : Settings) (defs : List Definition) : String :=
  (settings.grammar.render (CallForest.grow defs { maxDepth := settings.maxDepth }) defs).text

/-- The diagram after the reviser has been asked: its answer if that is acceptable. -/
def revised (reviser : Reviser) (g : Grammar) (drawn : String) : String :=
  match reviser drawn g with
  | some candidate => String.ofList (Revision.accept drawn.toList candidate.toList g)
  | none => drawn

/-- The analysis of some definitions found in files. -/
def ofDefinitions (settings : Settings) (reviser : Reviser) (files : List String)
    (defs : List Definition) : Analysis :=
  let graph := CallGraph.ofDefinitions defs
  let drawn := rendered settings defs
  let chosen := revised reviser settings.grammar drawn
  { diagram := String.ofList (Tidy.tidy chosen.toList)
    grammar := settings.grammar
    summary :=
      { functions := defs.length
        files := files.eraseDups.length
        language := settings.language
        entryPoints := (CallAtlas.entryPoints defs).length
        callEdges := graph.edgeCount
        recursiveGroups := graph.recursiveGroups
        enhanced := chosen != drawn } }

/-- The analysis of some files. -/
def ofSources (settings : Settings) (reviser : Reviser) (sources : List SourceFile) :
    Except AnalysisError Analysis :=
  let defs := definitions settings sources
  if defs.isEmpty then .error (.noFunctions settings.language sources.length)
  else .ok (ofDefinitions settings reviser (sources.map (·.path)) defs)

/-- The files of a project that its settings ask for. -/
def scan (settings : Settings) (tree : FileTree) (root : String) :
    Except AnalysisError (List SourceFile) := do
  (← Scanner.ofSettings root settings).sources tree

/-- The analysis of a project. -/
def ofProject (settings : Settings) (reviser : Reviser) (tree : FileTree) (root : String) :
    Except AnalysisError Analysis := do
  ofSources settings reviser (← scan settings tree root)

end Analysis

/-- The settings that a file holds. -/
def Settings.load (tree : FileTree) (path : String) : Except AnalysisError Settings := do
  let text ← (tree.readText path).mapError .file
  match Settings.ofToml? text with
  | some settings => return settings
  | none => throw .settings

end CallAtlas
