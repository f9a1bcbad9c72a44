import CallAtlas.CallForest
import CallAtlas.Diagram.Grammar
import CallAtlas.Diagram.Label
import CallAtlas.Text.Fragment

/-!
# Flowcharts

A call forest as a flowchart: a numbered box for every name in order of first occurrence, and an
arrow for every pair of a node and one below it.
-/

set_option autoImplicit false

namespace CallAtlas.Flowchart

/-- The line that styles the boxes. -/
def classLine : String :=
  "    classDef default fill:#eef4ff,stroke:#1e66f5,stroke-width:1px,color:#1e1e2e"

/-- The line that styles the arrows. -/
def linkLine : String :=
  "    linkStyle default stroke:#6c7086,stroke-width:1px"

/-- The identifier of the box with the given number. -/
def boxId (n : Nat) : String :=
  "N" ++ toString n

/-- The text in the box of a node, with its double quotes spelled out. -/
def boxLabel (node : CallTree) : String :=
  Text.replaced "\"" "#quot;"
    (Label.title node.name ++ " (" ++ FilePath.baseName node.file ++ ")")

/-- The line that declares the box of a node. -/
def boxLine (n : Nat) (node : CallTree) : String :=
  "    " ++ boxId n ++ "[\"" ++ boxLabel node ++ "\"]"

/-- The line that draws an arrow between two boxes. -/
def arrowLine (source target : Nat) : String :=
  "    " ++ boxId source ++ " --> " ++ boxId target

/-- The nodes that are the first of their name. -/
def firstOfName : List String → List CallTree → List CallTree
  | _, [] => []
  | seen, node :: nodes =>
    if node.name ∈ seen then firstOfName seen nodes
    else node :: firstOfName (node.name :: seen) nodes

/-- The nodes that get a box, in the order of their numbers. -/
def boxes (forest : CallForest) : List CallTree :=
  firstOfName [] forest.nodes

/-- The number of the box for a name. -/
def boxNumber? (forest : CallForest) (name : String) : Option Nat :=
  ((boxes forest).map (·.name)).idxOf? name

/-- The lines that declare the boxes. -/
def boxLines (forest : CallForest) : List String :=
  (boxes forest).zipIdx.map fun b => boxLine b.2 b.1

/-- The lines that draw the arrows; a name is not joined to itself. -/
def arrowLines (forest : CallForest) : List String :=
  forest.edges.filterMap fun e =>
    if e.1.name == e.2.name then none
    else
      match boxNumber? forest e.1.name, boxNumber? forest e.2.name with
      | some source, some target => some (arrowLine source target)
      | _, _ => none

/-- The flowchart of a forest. -/
def render (forest : CallForest) : DiagramDocument :=
  ⟨.graph, Grammar.graph.marker :: classLine :: boxLines forest ++ arrowLines forest ++ [linkLine]⟩

end CallAtlas.Flowchart
