import CallAtlas.NameSet

/-!
# Function definitions

What is known of a function or method found in a source file.  Names are not unique: one name may
be defined in several files, or several times in one file.
-/

set_option autoImplicit false

namespace CallAtlas

/-- The syntactic form of a definition. -/
inductive DefinitionKind where
  /-- A function declared by name. -/
  | declaration
  /-- A function value bound to a name. -/
  | arrow
  /-- A method of a class, an object or an implementation block. -/
  | method
  /-- A function at the top of a module. -/
  | moduleLevel
  deriving Repr, DecidableEq

/-- The name of the form in listings. -/
def DefinitionKind.label : DefinitionKind → String
  | declaration => "function_declaration"
  | arrow => "arrow_function"
  | method => "method_definition"
  | moduleLevel => "module_function"

/-- The form of the given name. -/
def DefinitionKind.ofLabel? (label : String) : Option DefinitionKind :=
  [declaration, arrow, method, moduleLevel].find? (·.label == label)

/-- A function or method found in a source file. -/
structure Definition where
  /-- The name it is defined under. -/
  name : String
  /-- The file it stands in. -/
  file : String
  /-- The line it begins in, counted from one. -/
  line : Nat
  /-- Its syntactic form. -/
  kind : DefinitionKind
  /-- The names it calls. -/
  calls : NameSet
  deriving DecidableEq

/-- The definition that a name stands for: the last one of that name. -/
def resolve (defs : List Definition) (name : String) : Option Definition :=
  defs.reverse.find? (·.name == name)

/-- The names that some definition calls. -/
def calledNames (defs : List Definition) : NameSet :=
  defs.foldl (fun s d => s ∪ d.calls) NameSet.empty

/-- The defined names that no definition calls, each once, in order of first occurrence. -/
def entryPoints (defs : List Definition) : List String :=
  ((defs.map (·.name)).filter fun name => !defs.any fun d => name ∈ d.calls).eraseDups

end CallAtlas
