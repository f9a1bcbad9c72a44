import CallAtlas.FileTree
import CallAtlas.Text.Trim

/-!
# Access to files

An absolute path is followed step by step from the top of the tree, and any other from the working
folder.  The target of a link is a path too, and is followed from the folder of the link if it is
not absolute.  Reading and writing give the cause where they fail.
-/

set_option autoImplicit false

namespace CallAtlas

/-- Why a file cannot be read or written. -/
inductive FileFailure where
  /-- Nothing stands at the path. -/
  | notFound
  /-- A step leads below something that is no folder. -/
  | notFolder
  /-- A folder stands where a file is needed. -/
  | isFolder
  /-- Links lead on and on. -/
  | tooManyLinks
  /-- The file is no text. -/
  | notText
  deriving Repr, DecidableEq

/-- The wording of a failure. -/
def FileFailure.message : FileFailure → String
  | notFound => "No such file or directory (os error 2)"
  | notFolder => "Not a directory (os error 20)"
  | isFolder => "Is a directory (os error 21)"
  | tooManyLinks => "Too many levels of symbolic links (os error 40)"
  | notText => "stream did not contain valid UTF-8"

namespace FileTree

/-- The steps of a path.  Slashes next to each other or at the end make empty steps. -/
def steps (path : String) : List String :=
  (Text.splitAt '/' path.toList).map String.ofList

/-- Whether a path begins with a slash. -/
def isAbsolute (path : String) : Bool :=
  path.toList.head? == some '/'

/-- The folder from which a path is followed: the top for an absolute path, and otherwise the given
folder. -/
def origin (folder : List String) (path : String) : List String :=
  if isAbsolute path then [] else folder

/-- The steps along which a path is followed; the empty path leads nowhere. -/
def followable (path : String) : Except FileFailure (List String) :=
  if path.isEmpty then .error .notFound else .ok (steps path)

/-- Where a step leads from a path of the tree. -/
inductive Passage where
  /-- To a path of the tree. -/
  | place (place : List String)
  /-- To a link with the given target. -/
  | link (target : String)

/-- Takes one step from a path of the tree; the way up from the top leads to the top. -/
def pass (tree : FileTree) (place : List String) (step : String) :
    Except FileFailure Passage :=
  if !tree.hasFolder place then .error .notFolder
  else if step == "" || step == "." then .ok (.place place)
  else if step == ".." then .ok (.place place.dropLast)
  else
    match tree.get? (place ++ [step]) with
    | none => .error .notFound
    | some (.link target) => .ok (.link target)
    | some _ => .ok (.place (place ++ [step]))

/-- Follows steps from a path of the tree.  At a link, `onLink` is given the folder of the link,
its target and the steps that follow. -/
def followWith (tree : FileTree)
    (onLink : List String → String → List String → Except FileFailure (List String)) :
    List String → List String → Except FileFailure (List String)
  | place, [] => .ok place
  | place, step :: rest =>
    match tree.pass place step with
    | .error e => .error e
    | .ok (.place next) => followWith tree onLink next rest
    | .ok (.link target) => onLink place target rest

/-- Follows steps from a path of the tree through fewer links than the given number. -/
def follow (tree : FileTree) : Nat → List String → List String → Except FileFailure (List String)
  | 0, _, _ => .error .tooManyLinks
  | links + 1, place, path =>
    followWith tree
      (fun folder target rest => do
        follow tree links (origin folder target) ((← followable target) ++ rest))
      place path

/-- The most links that a path may lead through. -/
def maxLinks : Nat := 40

/-- The path in the tree to which a path leads through all links. -/
def resolve (tree : FileTree) (path : String) : Except FileFailure (List String) := do
  follow tree (maxLinks + 1) (origin tree.workingFolder path) (← followable path)

/-- Whether the path leads to a folder. -/
def isFolder (tree : FileTree) (path : String) : Bool :=
  match tree.resolve path with
  | .ok place => tree.hasFolder place
  | .error _ => false

/-- The content of the file at a path of the tree. -/
def contentAt (tree : FileTree) (place : List String) : Except FileFailure ByteArray :=
  match tree.get? place with
  | some (.file content) => .ok content
  | _ => .error .isFolder

/-- The content of the file that the path leads to. -/
def read (tree : FileTree) (path : String) : Except FileFailure ByteArray := do
  tree.contentAt (← tree.resolve path)

/-- The text of some bytes. -/
def textOf (content : ByteArray) : Except FileFailure String :=
  match String.fromUTF8? content with
  | some text => .ok text
  | none => .error .notText

/-- The text of the file that the path leads to. -/
def readText (tree : FileTree) (path : String) : Except FileFailure String := do
  textOf (← tree.read path)

/-- Takes the last step to a file that is to be written: a name, at which no folder stands.  Slashes
behind the name ask for a folder. -/
def passLast (tree : FileTree) (place : List String) (step : String) (slashes : List String) :
    Except FileFailure Passage :=
  if !tree.hasFolder place then .error .notFolder
  else if step == "" || step == "." || step == ".." || !slashes.isEmpty then .error .isFolder
  else
    match tree.get? (place ++ [step]) with
    | some .folder => .error .isFolder
    | some (.link target) => .ok (.link target)
    | _ => .ok (.place (place ++ [step]))

/-- Follows steps from a path of the tree to where a file is written; links are followed as by
`followWith`. -/
def targetWith (tree : FileTree)
    (onLink : List String → String → List String → Except FileFailure (List String)) :
    List String → List String → Except FileFailure (List String)
  | _, [] => .error .isFolder
  | place, step :: rest =>
    if rest.all (· == "") then
      match tree.passLast place step rest with
      | .error e => .error e
      | .ok (.place next) => .ok next
      | .ok (.link target) => onLink place target []
    else
      match tree.pass place step with
      | .error e => .error e
      | .ok (.place next) => targetWith tree onLink next rest
      | .ok (.link target) => onLink place target rest

/-- Finds where a file is written, from a path of the tree and through fewer links than the given
number. -/
def targetFrom (tree : FileTree) : Nat → List String → List String →
    Except FileFailure (List String)
  | 0, _, _ => .error .tooManyLinks
  | links + 1, place, path =>
    targetWith tree
      (fun folder target rest => do
        targetFrom tree links (origin folder target) ((← followable target) ++ rest))
      place path

/-- The path in the tree at which a file is written that is to stand at the given path. -/
def target (tree : FileTree) (path : String) : Except FileFailure (List String) := do
  targetFrom tree (maxLinks + 1) (origin tree.workingFolder path) (← followable path)

/-- The tree after a file has been written. -/
def write (tree : FileTree) (path : String) (content : ByteArray) :
    Except FileFailure FileTree := do
  return tree.put (← tree.target path) (.file content)

/-- Enters a folder by one step of a path; a folder that does not exist is made. -/
def enter (origin : FileTree × List String) (step : String) : FileTree × List String :=
  let (tree, place) := origin
  let next := place ++ [step]
  if step == "" || step == "." then (tree, place)
  else if step == ".." then (tree, place.dropLast)
  else
    match tree.get? next, tree.follow (maxLinks + 1) place [step] with
    | none, _ => (tree.put next .folder, next)
    | some (.link _), .ok target => (tree, target)
    | some _, _ => (tree, next)

/-- The tree with an item at a path and the folders it needs; a file goes where links lead. -/
def insert (tree : FileTree) (path : String) (item : FileItem) : FileTree :=
  let names := (steps path).filter (· != "")
  let (tree, place) := names.dropLast.foldl enter (tree, origin tree.workingFolder path)
  match item, targetFrom tree (maxLinks + 1) place names.getLast?.toList with
  | .file _, .ok target => tree.put target item
  | .folder, _ => (names.getLast?.toList.foldl enter (tree, place)).1
  | _, _ => tree.put (place ++ names.getLast?.toList) item

/-- The tree without the item at a path and everything below it; a link is removed, not what it
leads to. -/
def remove? (tree : FileTree) (path : String) : Option FileTree :=
  let names := (steps path).filter (· != "")
  match tree.follow (maxLinks + 1) (origin tree.workingFolder path) names.dropLast with
  | .ok folder =>
    let place := folder ++ names.getLast?.toList
    (tree.get? place).map fun _ => tree.erase place
  | .error _ => none

end FileTree

end CallAtlas
