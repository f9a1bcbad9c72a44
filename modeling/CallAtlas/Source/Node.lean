/-!
# Syntax trees

The tree of a parsed source file.  A node keeps what a reader of definitions and calls asks for:
what kind of construct it is, which field of its parent it fills, the row it begins in, and, for
nodes that name something, the text they span.
-/

set_option autoImplicit false

namespace CallAtlas.Source

/-- The kind of construct a node stands for. -/
inductive NodeKind where
  /-- The whole file. -/
  | module
  /-- A declared function with a body. -/
  | function
  /-- A declared generator function. -/
  | generator
  /-- A method with a body. -/
  | method
  /-- An arrow function. -/
  | arrow
  /-- A function used as a value. -/
  | functionValue
  /-- A binding of a variable. -/
  | declarator
  /-- A definition together with its decorators. -/
  | decorated
  /-- A class. -/
  | classDef
  /-- An indented or braced sequence of statements. -/
  | block
  /-- The items of a module, trait or implementation. -/
  | members
  /-- An implementation block. -/
  | implementation
  /-- A trait. -/
  | interface
  /-- A call. -/
  | call
  /-- A plain identifier used as a value. -/
  | identifier
  /-- Any other construct. -/
  | other
  deriving Repr, DecidableEq

/-- The field of its parent that a node fills. -/
inductive Field where
  /-- The name that is defined or bound. -/
  | name
  /-- What is called. -/
  | callee
  deriving Repr, DecidableEq

/-- A node of a syntax tree. -/
inductive Node where
  /-- A construct with its field in the parent, its row counted from zero, its text and the nodes
  below it. -/
  | mk (kind : NodeKind) (field : Option Field) (row : Nat) (text : String) (children : List Node)
  deriving Repr

namespace Node

/-- The kind of construct. -/
def kind : Node → NodeKind
  | mk kind _ _ _ _ => kind

/-- The field of the parent that the node fills. -/
def field : Node → Option Field
  | mk _ field _ _ _ => field

/-- The row in which the node begins, counted from zero. -/
def row : Node → Nat
  | mk _ _ row _ _ => row

/-- The text the node spans. -/
def text : Node → String
  | mk _ _ _ text _ => text

/-- The nodes below. -/
def children : Node → List Node
  | mk _ _ _ _ children => children

/-- The first child that fills the given field. -/
def child? (node : Node) (f : Field) : Option Node :=
  node.children.find? fun c => c.field == some f

/-- The text of the child that fills the given field, unless it is empty. -/
def childText? (node : Node) (f : Field) : Option String :=
  ((node.child? f).map text).filter fun t => !t.isEmpty

/-- The same node in a field of its parent. -/
def inField (f : Field) : Node → Node
  | mk kind _ row text children => mk kind (some f) row text children

/-- A node of no particular kind. -/
def group (children : List Node) : Node := mk .other none 0 "" children

/-- A node without anything of interest. -/
def blank : Node := group []

end Node

end CallAtlas.Source
