import CallAtlas.Definition
import CallAtlas.Text.CharClass
import CallAtlas.Text.Pattern

/-!
# Patterns of definitions and calls

In lexical mode a definition is recognised by its head: a `function` keyword, an arrow function
bound to a name, or a method at the beginning of a line.  A call is a dotted name before an
opening parenthesis.
-/

set_option autoImplicit false

namespace CallAtlas.Lexical

open Text

/-- The words that look like a name before a parenthesis but name no function. -/
def keywords : List String :=
  ["if", "else", "for", "while", "do", "switch", "case", "catch", "try", "finally", "return",
   "function", "typeof", "instanceof", "new", "delete", "void", "async", "await", "yield",
   "with", "throw", "in", "of", "super", "import", "export", "class", "constructor"]

/-- A symbol of the text. -/
def sym (c : Char) : Pattern Char := .one (· == c)

/-- Any amount of whitespace. -/
def blanks : Pattern Char := .star (.one isBlank)

/-- At least one whitespace character. -/
def someBlanks : Pattern Char := .plus (.one isBlank)

/-- A given word. -/
def keyword (w : String) : Pattern Char := .word w.toList

/-- The beginning of a line. -/
def lineStart : Pattern Char :=
  .edge fun before _ => before.all (· == '\n')

/-- An identifier. -/
def identifier : Pattern Char :=
  .seq (.one isIdentifierStart) (.star (.one isIdentifierRest))

/-- Identifiers joined by dots. -/
def dottedPath : Pattern Char :=
  .seq identifier (.star (.seq (sym '.') identifier))

/-- Parentheses and what stands between them, up to the first closing one. -/
def parameters : Pattern Char :=
  .all [sym '(', .star (.one (· != ')')), sym ')']

/-- An optional type annotation, which runs on while the characters pass the test. -/
def annotation (test : Char → Bool) : Pattern Char :=
  .optional (.all [sym ':', blanks, .plus (.one test)])

/-- The head of a function that the `function` keyword introduces. -/
def functionHead : Probe Char where
  lead := .all [wordEdge, keyword "function", blanks, .optional (sym '*'), blanks]
  target := identifier
  tail := .all [blanks, sym '(']

/-- The head of an arrow function that is bound to a name. -/
def arrowHead : Probe Char where
  lead := .all [wordEdge, .any [keyword "const", keyword "let", keyword "var"], someBlanks]
  target := identifier
  tail := .all
    [blanks, annotation (· != '='), sym '=', blanks,
     .optional (.seq (keyword "async") someBlanks),
     .alt parameters identifier, blanks, annotation (· != '='), sym '=', sym '>']

/-- The words that may stand before the name of a method. -/
def modifier : Pattern Char :=
  .any (["public", "private", "protected", "static", "async", "get", "set"].map keyword)

/-- The head of a method at the beginning of a line. -/
def methodHead : Probe Char where
  lead := .all [lineStart, .star (.one isSpaceOrTab), .star (.seq modifier someBlanks)]
  target := identifier
  tail := .all
    [blanks, parameters, blanks, annotation (fun c => c != '\x7b' && c != ';'), sym '\x7b']

/-- A call. -/
def call : Probe Char where
  lead := .empty
  target := dottedPath
  tail := .all [blanks, sym '(']

/-- The heads in the order in which their definitions are listed. -/
def heads : List (DefinitionKind × Probe Char) :=
  [(.declaration, functionHead), (.arrow, arrowHead), (.method, methodHead)]

end CallAtlas.Lexical
