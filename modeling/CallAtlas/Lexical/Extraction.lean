import CallAtlas.Lexical.Patterns

/-!
# Lexical extraction

Definitions are listed head by head, and within one head in the order of the text.  The calls of
a definition are all those from its head to the end of the text, so a definition also calls what
later ones call.
-/

set_option autoImplicit false

namespace CallAtlas.Lexical

open Text

/-- The call prefixes that are left out unless the settings name others. -/
def defaultExcludedPrefixes : List String := ["console."]

/-- Whether a word is a keyword. -/
def isKeyword (name : String) : Bool := keywords.contains name

/-- The targets of the calls in a text, in the order of the text. -/
def callTargets (text : List Char) : List String :=
  (call.findAll text).map fun f => String.ofList f.target

/-- Whether a call target counts as a call of the given definition. -/
def counts (excluded : List String) (name callee : String) : Bool :=
  callee != name && !isKeyword callee &&
    !excluded.any fun start => start.toList.isPrefixOf callee.toList

/-- The calls of the definition of the given name whose head begins the text. -/
def callsFrom (excluded : List String) (text : List Char) (name : String) : NameSet :=
  NameSet.ofList ((callTargets text).filter (counts excluded name))

/-- The number of newlines in a text. -/
def newlines (text : List Char) : Nat := text.count '\n'

/-- The matches of all heads, in the order in which their definitions are listed. -/
def headMatches (text : List Char) : List (DefinitionKind × Found Char) :=
  heads.flatMap fun h => (h.2.findAll text).map fun f => (h.1, f)

/-- The definition whose head has been found. -/
def definitionAt (excluded : List String) (file : String) (kind : DefinitionKind)
    (f : Found Char) : Definition :=
  let name := String.ofList f.target
  ⟨name, file, newlines f.past + 1, kind, callsFrom excluded f.onward name⟩

/-- The definitions of a text. -/
def extract (excluded : List String) (text file : String) : List Definition :=
  ((headMatches text.toList).filter fun m => !isKeyword (String.ofList m.2.target)).map
    fun m => definitionAt excluded file m.1 m.2

end CallAtlas.Lexical
