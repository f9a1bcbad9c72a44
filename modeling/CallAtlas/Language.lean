import CallAtlas.FilePath
import CallAtlas.Text.LetterCase

/-!
# Languages

The languages whose sources are read, how a label, an extension or a path names one, and the two
ways of finding definitions.
-/

set_option autoImplicit false

namespace CallAtlas

/-- The language of a source file. -/
inductive Language where
  | rust
  | python
  | javascript
  | typescript
  /-- Any other language. -/
  | unknown
  deriving Repr, DecidableEq

/-- How definitions are found in a text. -/
inductive ExtractionMode where
  /-- By a walk over the syntax tree. -/
  | structured
  /-- By patterns over the raw text. -/
  | lexical
  deriving Repr, DecidableEq

namespace Language

/-- The name of the language. -/
def label : Language → String
  | rust => "rust"
  | python => "python"
  | javascript => "javascript"
  | typescript => "typescript"
  | unknown => "unknown"

/-- The language of the given name. -/
def ofLabel? (label : String) : Option Language :=
  [rust, python, javascript, typescript, unknown].find? (·.label == label)

/-- The language that a free-form label means; case and surrounding blanks do not matter. -/
def ofHint (hint : String) : Language :=
  match Text.lower (Text.trimmed hint) with
  | "rust" | "rs" => rust
  | "python" | "py" => python
  | "javascript" | "js" | "jsx" | "react" | "node" | "nodejs" => javascript
  | "typescript" | "ts" | "tsx" => typescript
  | _ => unknown

/-- The language of files with the given extension; case does not matter. -/
def ofExtension (extension : String) : Language :=
  match Text.lower extension with
  | "rs" => rust
  | "py" | "pyw" => python
  | "js" | "jsx" | "mjs" | "cjs" => javascript
  | "ts" | "tsx" | "mts" | "cts" => typescript
  | _ => unknown

/-- The language of the file at a path, by its extension. -/
def ofPath (path : String) : Language :=
  match FilePath.extension? path.toList with
  | some extension => ofExtension (String.ofList extension)
  | none => unknown

/-- The mode used for a language unless the settings say otherwise. -/
def defaultMode : Language → ExtractionMode
  | rust | python => .structured
  | javascript | typescript | unknown => .lexical

/-- Whether sources of the language can be parsed into a syntax tree. -/
def hasGrammar : Language → Bool
  | unknown => false
  | _ => true

end Language

end CallAtlas
