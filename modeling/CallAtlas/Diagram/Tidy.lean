import CallAtlas.Diagram.Role
import CallAtlas.Text.Pattern
import CallAtlas.Text.Trim

/-!
# Tidying of diagram text

Every line of a diagram is changed on its own: two known names get their capitals back, arrows
get one space on each side, and a component that is named like a handler or a branch is marked as
a utility.
-/

set_option autoImplicit false

namespace CallAtlas.Tidy

open Text

/-- The letter that a character stands for when case is ignored: capital ASCII letters stand for
the small ones, and the long s for the s. -/
def fold (c : Char) : Char :=
  if c == 'ſ' then 's' else c.toLower

/-- The given word in any letter case. -/
def anyCase (word : String) : Pattern Char :=
  .all (word.toList.map fun letter => .one fun c => fold c == letter)

/-- An arrow of two or more hyphens, with the spaces and tabs around it. -/
def arrow : Probe Char where
  lead := .star (.one isSpaceOrTab)
  target := .all [.one (· == '-'), .plus (.one (· == '-')), .one (· == '>')]
  tail := .star (.one isSpaceOrTab)

/-- A word that handlers, formatters and validators have in their names. -/
def handlerWord : Pattern Char :=
  .any [anyCase "handle", anyCase "format", anyCase "validat"]

/-- A bracketed text that begins with a branching keyword or ends in a question mark. -/
def branchNode : Pattern Char :=
  .any
    [.all
      [.one (· == '['), .star (.one isBlank),
       .any [anyCase "if", anyCase "else", anyCase "switch", anyCase "case"], wordEdge,
       .star (.one (· != ']')), .one (· == ']')],
     .all
      [.one (· == '['), .star (.one (· != ']')), .one (· == '?'), .star (.one isBlank),
       .one (· == ']')]]

/-- The line with the known names in their right capitals. -/
def capitalize (line : List Char) : List Char :=
  replaceAll "Handlesubmit".toList "HandleSubmit".toList
    (replaceAll "Formatdate".toList "FormatDate".toList line)

/-- The line with one space on each side of every arrow. -/
def spaceArrows (line : List Char) : List Char :=
  arrow.substitute (fun f => ' ' :: f.target ++ [' ']) line

/-- Whether the components of a line are really utilities. -/
def namesUtility (line : List Char) : Bool :=
  handlerWord.occurs none line || branchNode.occurs none line

/-- The line with its components marked as utilities where their names say so. -/
def retag (line : List Char) : List Char :=
  if hasFragment Role.component.tag.toList line && namesUtility line then
    replaceAll Role.component.tag.toList Role.utility.tag.toList line
  else line

/-- One line of a diagram, tidied. -/
def tidyLine (line : List Char) : List Char :=
  retag (spaceArrows (capitalize line))

/-- A diagram, tidied line by line. -/
def tidy (text : List Char) : List Char :=
  joinWith '\n' ((splitAt '\n' text).map tidyLine)

end CallAtlas.Tidy
