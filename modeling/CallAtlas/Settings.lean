import CallAtlas.Diagram.Grammar
import CallAtlas.Extraction
import CallAtlas.Toml.Reader

/-!
# Settings

The settings of an analysis.  Each of them has a default, and a TOML document may give any of them
another value; it may say other things as well, which do not count.
-/

set_option autoImplicit false

namespace CallAtlas

/-- The settings of an analysis. -/
structure Settings where
  /-- The label of the language, in any spelling. -/
  language : String := "javascript"
  /-- For each label of a language the suffixes of the files to read. -/
  extensions : List (String × List String) :=
    [("javascript", [".js", ".jsx", ".mjs", ".cjs"]),
     ("python", [".py"]),
     ("react", [".js", ".jsx", ".ts", ".tsx"]),
     ("rust", [".rs"]),
     ("typescript", [".ts", ".tsx"])]
  /-- The most levels of a call tree. -/
  maxDepth : Nat := 3
  /-- The grammar of the diagram. -/
  grammar : Grammar := .component
  /-- The folder of the project to which the analysis keeps. -/
  codeFolder : Option String := none
  /-- The patterns of the files that are left out. -/
  exclude : List String :=
    ["**/node_modules/**", "**/dist/**", "**/build/**", "**/target/**", "**/*.min.js"]
  /-- The settings of the extraction. -/
  extraction : ExtractionSettings := {}
  deriving Repr, DecidableEq

namespace Settings

/-- The language that the label means. -/
def languageHint (settings : Settings) : Language :=
  Language.ofHint settings.language

/-- The suffixes of the files to read: those listed for the label, or else for the name of the
language it means.  No suffix at all means every file. -/
def suffixes (settings : Settings) : List String :=
  let label := Text.lower (Text.trimmed settings.language)
  ((settings.extensions.lookup label).or
    (settings.extensions.lookup settings.languageHint.label)).getD []

/-- The grammar that a value names: by its name, or by a table with the name as the only key and
nothing below it. -/
def grammar? : Toml.Value → Option Grammar
  | .text name => Grammar.ofName? name
  | .table _ [(name, value)] => if value.isEmpty then Grammar.ofName? name else none
  | _ => none

/-- The lists of suffixes that a value holds by label. -/
def extensions? (value : Toml.Value) : Option (List (String × List String)) :=
  value.entries?.bind fun entries =>
    entries.mapM fun e => e.2.texts?.map fun suffixes => (e.1, suffixes)

/-- The value of a key as it is read by `convert`, or the default where the key is missing. -/
def readKey {α : Type} (entries : Toml.Entries) (key : String)
    (convert : Toml.Value → Option α) (default : α) : Option α :=
  match entries.get? key with
  | some value => convert value
  | none => some default

/-- The settings that the entries of a table give. -/
def ofEntries? (entries : Toml.Entries) : Option Settings := do
  let base : Settings := {}
  let language ← readKey entries "language" Toml.Value.text? base.language
  let extensions ← readKey entries "extensions" extensions? base.extensions
  let maxDepth ← readKey entries "max_depth" Toml.Value.natural? base.maxDepth
  let grammar ← readKey entries "grammar" grammar? base.grammar
  let codeFolder ← readKey entries "code_folder" (·.text?.map some) base.codeFolder
  let exclude ← readKey entries "exclude" Toml.Value.texts? base.exclude
  let preferStructured ←
    readKey entries "prefer_structured" Toml.Value.boolean? base.extraction.preferStructured
  let prefixes ←
    readKey entries "excluded_call_prefixes" Toml.Value.texts? base.extraction.excludedCallPrefixes
  return ⟨language, extensions, maxDepth, grammar, codeFolder, exclude, ⟨preferStructured, prefixes⟩⟩

/-- The settings that a TOML document gives. -/
def ofToml? (text : String) : Option Settings :=
  (Toml.document? text.toList).bind ofEntries?

end Settings

end CallAtlas
