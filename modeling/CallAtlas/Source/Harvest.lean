import CallAtlas.Definition
import CallAtlas.Language
import CallAtlas.Source.Node

/-!
# Definitions and calls of a syntax tree

A walk over a syntax tree lists one definition per defining node, in preorder.  A call of a bare
identifier counts for the innermost defining node around it; a function without a name passes its
calls on.
-/

set_option autoImplicit false

namespace CallAtlas.Source

/-- The nodes around a function definition, without the one that holds it and its decorators. -/
def undecorated (above : List Node) : List Node :=
  match above with
  | [] => []
  | parent :: rest => if parent.kind == .decorated then rest else parent :: rest

/-- The form of a function definition in a language that marks blocks by indentation, judged by
the nodes above it. -/
def indentedKind (above : List Node) : DefinitionKind :=
  match (undecorated above).map Node.kind with
  | [] | .module :: _ => .moduleLevel
  | .block :: .classDef :: _ => .method
  | _ => .declaration

/-- The form of a function item, judged by the nodes above it. -/
def itemKind (above : List Node) : DefinitionKind :=
  match above.map Node.kind with
  | .members :: .implementation :: _ | .members :: .interface :: _ => .method
  | _ => .declaration

/-- The name under which a script binds a function value, if its parent binds it to a plain
identifier. -/
def boundName? (above : List Node) : Option String :=
  match above with
  | parent :: _ =>
    if parent.kind == .declarator then
      match parent.child? .name with
      | some name => if name.kind == .identifier && !name.text.isEmpty then some name.text else none
      | none => none
    else none
  | [] => none

/-- The name and form of the definition that a node makes, if it makes one; `above` holds the
nodes around it, the nearest first. -/
def definition? (language : Language) (above : List Node) (node : Node) :
    Option (String × DefinitionKind) :=
  match language with
  | .python =>
    if node.kind == .function then
      (node.childText? .name).map fun name => (name, indentedKind above)
    else none
  | .rust =>
    if node.kind == .function then
      (node.childText? .name).map fun name => (name, itemKind above)
    else none
  | .javascript | .typescript =>
    match node.kind with
    | .function | .generator => (node.childText? .name).map fun name => (name, .declaration)
    | .method => (node.childText? .name).map fun name => (name, .method)
    | .arrow | .functionValue => (boundName? above).map fun name => (name, .arrow)
    | _ => none
  | .unknown => none

/-- The name that a node calls, if it is a call of a bare identifier. -/
def calledName? (node : Node) : Option String :=
  if node.kind == .call then
    match node.child? .callee with
    | some callee =>
      if callee.kind == .identifier && !callee.text.isEmpty then some callee.text else none
    | none => none
  else none

/-- Counts a call for the definition at the given place among those found; a call in no definition,
or of no plain name, counts for none. -/
def countCall (scope : Option Nat) (callee : Option String) (found : Array Definition) :
    Array Definition :=
  match scope, callee with
  | some place, some name => found.modify place fun d => { d with calls := d.calls.insert name }
  | _, _ => found

mutual

/-- Walks through a subtree and adds what it defines to the definitions found so far.  `scope` is
the place among these of the innermost definition around the subtree. -/
def gather (language : Language) (file : String) (above : List Node) (scope : Option Nat)
    (found : Array Definition) : Node → Array Definition
  | .mk kind field row text children =>
    let node := Node.mk kind field row text children
    match definition? language above node with
    | some (name, form) =>
      gatherAll language file (node :: above) (some found.size)
        (found.push ⟨name, file, row + 1, form, .empty⟩) children
    | none =>
      gatherAll language file (node :: above) scope (countCall scope (calledName? node) found)
        children

/-- The same for several subtrees in a row. -/
def gatherAll (language : Language) (file : String) (above : List Node) (scope : Option Nat)
    (found : Array Definition) : List Node → Array Definition
  | [] => found
  | node :: nodes =>
    gatherAll language file above scope (gather language file above scope found node) nodes

end

/-- The definitions of a syntax tree in preorder; calls outside all of them count for none. -/
def definitions (language : Language) (file : String) (root : Node) : List Definition :=
  (gather language file [] none #[] root).toList

end CallAtlas.Source
