import CallAtlas.CallForest
import CallAtlas.Diagram.Grammar
import CallAtlas.Diagram.Label
import CallAtlas.Diagram.Role

/-!
# Component diagrams

All functions of a program grouped by file, each name declared once with its role, and then the
edges of the call forest.
-/

set_option autoImplicit false

namespace CallAtlas.ComponentDiagram

/-- The lines that set the style of the diagram. -/
def preamble : List String :=
  ["!theme plain",
   "allowmixing",
   "skinparam componentStyle rectangle",
   "skinparam packageStyle rectangle",
   "skinparam shadowing false",
   "left to right direction"]

/-- The last line of a document. -/
def endMarker : String := "@enduml"

/-- The files of the definitions, each once, in order of first occurrence. -/
def files (defs : List Definition) : List String :=
  (defs.map (·.file)).eraseDups

/-- The lines that declare a function in the given role. -/
def declarationLines (role : Role) (name : String) : List String :=
  match role with
  | .utility =>
    ["  class \"" ++ name ++ "\" as " ++ Label.identifier name ++ " " ++ role.tag ++ " \x7b",
     "    +" ++ name ++ "()",
     "  \x7d"]
  | _ => ["  [" ++ name ++ "] as " ++ Label.identifier name ++ " " ++ role.tag]

/-- The lines that declare a definition in the role of its file and name. -/
def declare (d : Definition) : List String :=
  declarationLines (Role.classify d.file d.name) d.name

/-- The definitions whose name is not among the declared ones, and is not that of an earlier
definition of the list. -/
def undeclared : List String → List Definition → List Definition
  | _, [] => []
  | declared, d :: defs =>
    if d.name ∈ declared then undeclared declared defs
    else d :: undeclared (d.name :: declared) defs

/-- For each file the definitions that are declared in its package. -/
def packages (defs : List Definition) : List String → List String → List (String × List Definition)
  | _, [] => []
  | declared, file :: files =>
    let members := undeclared declared (defs.filter (·.file == file))
    (file, members) :: packages defs (declared ++ members.map (·.name)) files

/-- The lines of a file's package. -/
def packageLines (package : String × List Definition) : List String :=
  ("package \"" ++ Label.packageName package.1 ++ "\" \x7b") ::
    package.2.flatMap declare ++ ["\x7d"]

/-- The line that draws an edge between two names. -/
def edgeLine (source target : String) : String :=
  Label.identifier source ++ " --> " ++ Label.identifier target

/-- The edge lines of a forest, each once; a name is not joined to itself. -/
def edgeLines (forest : CallForest) : List String :=
  ((forest.edges.filter fun e => e.1.name != e.2.name).map
    fun e => edgeLine e.1.name e.2.name).eraseDups

/-- The component diagram of the definitions of a program and their forest. -/
def render (forest : CallForest) (defs : List Definition) : DiagramDocument :=
  ⟨.component,
    Grammar.component.marker :: preamble ++ (packages defs [] (files defs)).flatMap packageLines ++
      edgeLines forest ++ [endMarker]⟩

end CallAtlas.ComponentDiagram
