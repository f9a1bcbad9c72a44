import CallAtlas.Diagram.Grammar

/-!
# Revised diagrams

A diagram may be handed to an outside reviser.  Its answer is used only if it is still a document
of the same grammar; a code fence around it is dropped.
-/

set_option autoImplicit false

namespace CallAtlas.Revision

open Text

/-- The three characters that open and close a fence. -/
def fence : List Char := "```".toList

/-- What follows the first newline; nothing where there is none. -/
def afterFirstLine (text : List Char) : List Char :=
  (text.dropWhile (· != '\n')).drop 1

/-- A text without the blanks around it and without a code fence around it. -/
def unfenced (text : List Char) : List Char :=
  let text := trim text
  if fence.isPrefixOf text then
    let body := afterFirstLine (text.drop 3)
    let closed := trimEnd body
    if fence.isSuffixOf closed then trim (closed.take (closed.length - 3)) else trim body
  else text

/-- The revised text if it opens in the grammar, and otherwise the one that was drawn. -/
def accept (drawn candidate : List Char) (g : Grammar) : List Char :=
  let cleaned := unfenced candidate
  if g.opens cleaned then cleaned else drawn

end CallAtlas.Revision
