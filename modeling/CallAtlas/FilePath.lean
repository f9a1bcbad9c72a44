import CallAtlas.Text.Trim

/-!
# File paths

A path is read as the parts between its slashes.  Empty parts do not count, and a single dot
counts only at the very beginning.
-/

set_option autoImplicit false

namespace CallAtlas

/-- One part of a path. -/
inductive PathPart where
  /-- The slash an absolute path begins with. -/
  | root
  /-- A single dot at the beginning. -/
  | here
  /-- Two dots. -/
  | up
  /-- A name in a folder. -/
  | name (chars : List Char)
  deriving Repr, DecidableEq

namespace FilePath

/-- What a piece between slashes stands for when it is not the first one. -/
def innerPart : List Char → Option PathPart
  | [] => none
  | ['.'] => none
  | ['.', '.'] => some .up
  | piece => some (.name piece)

/-- The parts of a path. -/
def parts (path : List Char) : List PathPart :=
  match Text.splitAt '/' path with
  | [] => []
  | first :: rest =>
    let start :=
      if first.isEmpty then (if path.isEmpty then [] else [.root])
      else if first == ['.'] then [.here]
      else (innerPart first).toList
    start ++ rest.filterMap innerPart

/-- The name a path ends in, if it ends in one. -/
def fileName? (path : List Char) : Option (List Char) :=
  match (parts path).getLast? with
  | some (.name chars) => some chars
  | _ => none

/-- The name a path ends in, or else the whole path. -/
def baseName (path : String) : String :=
  match fileName? path.toList with
  | some chars => String.ofList chars
  | none => path

/-- Cuts a file name at its last dot, unless that dot is its first character. -/
def cutAtDot (name : List Char) : Option (List Char × List Char) :=
  let after := (name.reverse.takeWhile (· != '.')).reverse
  let before := name.take (name.length - after.length - 1)
  if before.isEmpty then none else some (before, after)

/-- The file name without its extension. -/
def stem? (path : List Char) : Option (List Char) :=
  (fileName? path).map fun name =>
    match cutAtDot name with
    | some (before, _) => before
    | none => name

/-- What follows the last dot of the file name. -/
def extension? (path : List Char) : Option (List Char) :=
  (fileName? path).bind fun name => (cutAtDot name).map (·.2)

end FilePath

end CallAtlas
