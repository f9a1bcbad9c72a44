import CallAtlas.Diagram.Component
import CallAtlas.Diagram.Flowchart

/-!
# Rendering

The diagram of a program in the grammar that is asked for.
-/

set_option autoImplicit false

namespace CallAtlas

/-- The diagram of a call forest; the component grammar also declares functions outside of it. -/
def Grammar.render (g : Grammar) (forest : CallForest) (defs : List Definition) :
    DiagramDocument :=
  match g with
  | .graph => Flowchart.render forest
  | .component => ComponentDiagram.render forest defs

end CallAtlas
