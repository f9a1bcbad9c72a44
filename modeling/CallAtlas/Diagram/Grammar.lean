import CallAtlas.Text.LetterCase
import CallAtlas.Text.Trim

/-!
# Diagram grammars

The two diagram languages that are written, how a document of each opens, and documents as lists
of lines.
-/

set_option autoImplicit false

namespace CallAtlas

/-- The language a diagram is written in. -/
inductive Grammar where
  /-- A flowchart of boxes. -/
  | graph
  /-- A component diagram with packages. -/
  | component
  deriving Repr, DecidableEq

namespace Grammar

/-- The first line of a document that is written here. -/
def marker : Grammar → String
  | graph => "graph TD"
  | component => "@startuml"

/-- The name of the diagram language. -/
def label : Grammar → String
  | graph => "mermaid"
  | component => "plantuml"

/-- The name of the kind of diagram. -/
def shape : Grammar → String
  | graph => "graph"
  | component => "component"

/-- The grammar that a label given by a user means; case and surrounding blanks do not matter.
A label that means none is given back in the form that was compared. -/
def ofHint (hint : String) : Except String Grammar :=
  match Text.lower (Text.trimmed hint) with
  | "graph" | "mermaid" | "flowchart" => .ok graph
  | "component" | "plantuml" | "uml" => .ok component
  | other => .error other

/-- The message for a label that means no grammar. -/
def unknownMessage (label : String) : String :=
  "unknown grammar '" ++ label ++ "' (expected mermaid or plantuml)"

/-- The grammar that a settings file names, exactly. -/
def ofName? : String → Option Grammar
  | "graph" | "mermaid" => some graph
  | "component" | "plantuml" => some component
  | _ => none

/-- The first line that is not blank, without the blanks around it. -/
def firstLine? (text : List Char) : Option (List Char) :=
  ((Text.lines text).map Text.trim).find? fun line => !line.isEmpty

/-- Whether a first line opens a document of the grammar. -/
def opensLine : Grammar → List Char → Bool
  | graph, line =>
    line == "graph".toList || "graph ".toList.isPrefixOf line || "flowchart".toList.isPrefixOf line
  | component, line => "@startuml".toList.isPrefixOf line

/-- Whether a text opens like a document of the grammar. -/
def opens (g : Grammar) (text : List Char) : Bool :=
  match firstLine? text with
  | some line => g.opensLine line
  | none => false

end Grammar

/-- A rendered diagram. -/
structure DiagramDocument where
  /-- The language it is written in. -/
  grammar : Grammar
  /-- Its lines. -/
  lines : List String
  deriving Repr, DecidableEq

/-- The lines with newlines between them. -/
def DiagramDocument.text (doc : DiagramDocument) : String :=
  "\n".intercalate doc.lines

end CallAtlas
