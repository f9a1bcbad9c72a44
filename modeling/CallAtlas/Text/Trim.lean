import CallAtlas.Text.CharClass

/-!
# Trimming and lines

Blank ends are dropped from a text, and a text is cut into lines.
-/

set_option autoImplicit false

namespace CallAtlas.Text

/-- The text without the whitespace it ends in. -/
def trimEnd (cs : List Char) : List Char :=
  (cs.reverse.dropWhile isBlank).reverse

/-- The text without the whitespace it begins and ends in. -/
def trim (cs : List Char) : List Char :=
  trimEnd (cs.dropWhile isBlank)

/-- The string without the whitespace it begins and ends in. -/
def trimmed (s : String) : String :=
  String.ofList (trim s.toList)

/-- The parts of a list between the occurrences of a separator; there is always at least one. -/
def splitAt {α : Type} [BEq α] (sep : α) : List α → List (List α)
  | [] => [[]]
  | c :: cs =>
    if c == sep then [] :: splitAt sep cs
    else
      match splitAt sep cs with
      | [] => [[c]]
      | part :: parts => (c :: part) :: parts

/-- The parts joined again, with the separator between neighbours. -/
def joinWith {α : Type} (sep : α) : List (List α) → List α
  | [] => []
  | [part] => part
  | part :: parts => part ++ sep :: joinWith sep parts

/-- A line without the carriage return it ends in. -/
def dropReturn (line : List Char) : List Char :=
  if line.getLast? == some '\r' then line.dropLast else line

/-- The lines of a text: a newline, or a carriage return and a newline, ends a line, and what
follows the last of them is a line if it is not empty. -/
def lines (cs : List Char) : List (List Char) :=
  let parts := splitAt '\n' cs
  parts.dropLast.map dropReturn ++ parts.getLast?.toList.filter fun line => !line.isEmpty

end CallAtlas.Text
