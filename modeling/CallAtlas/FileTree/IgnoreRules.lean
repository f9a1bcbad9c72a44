import CallAtlas.FileTree.Access
import CallAtlas.Glob.Matching

/-!
# Ignore rules

A folder may hold files of rules that say which paths below it do not count.  A rule is a glob; the
last rule that matches a path decides, and a rule may also let a path in again.
-/

set_option autoImplicit false

namespace CallAtlas

/-- A line of a file of rules. -/
structure IgnoreRule where
  /-- The glob, for paths relative to the folder of the rule. -/
  glob : Glob
  /-- Whether the rule lets a path in instead of leaving it out. -/
  admits : Bool
  /-- Whether the rule is for folders alone. -/
  foldersOnly : Bool

namespace IgnoreRule

/-- The text of a line that counts: without the blanks at its end, unless the last of them is
escaped. -/
def significant (line : List Char) : List Char :=
  if ['\\', ' '].isSuffixOf line then line else Text.trimEnd line

/-- The glob of a rule in the form that is matched.  Without a slash in it, it is matched at every
depth, and two stars at its end match what is in a folder, but not the folder. -/
def fullGlob (anchored : Bool) (glob : List Char) : List Char :=
  let glob :=
    if anchored || glob.contains '/' || glob == ['*', '*'] then glob
    else "**/".toList ++ glob
  if "/**".toList.isSuffixOf glob then glob ++ "/*".toList else glob

/-- Takes off the slash at the end of a rule, with the backslash before it; says whether there was
one. -/
def splitFolderMark (glob : List Char) : List Char × Bool :=
  if glob.getLast? == some '/' then
    let glob := glob.dropLast
    (if glob.getLast? == some '\\' then glob.dropLast else glob, true)
  else (glob, false)

/-- Takes off the mark of a rule that admits paths and the slash of one that is anchored at its
folder; says which of the two were there. -/
def splitMarks : List Char → List Char × Bool × Bool
  | '\\' :: '!' :: rest => ('!' :: rest, false, false)
  | '\\' :: '#' :: rest => ('#' :: rest, false, false)
  | '!' :: '/' :: rest => (rest, true, true)
  | '!' :: rest => (rest, true, false)
  | '/' :: rest => (rest, false, true)
  | rest => (rest, false, false)

/-- The rule of a line; comments, blank lines and lines that hold no glob have none. -/
def ofLine? (line : List Char) : Option IgnoreRule :=
  if line.head? == some '#' then none
  else
    let line := significant line
    if line.isEmpty then none
    else
      let (glob, admits, anchored) := splitMarks line
      let (glob, foldersOnly) := splitFolderMark glob
      let full := fullGlob anchored glob
      match Glob.tokensOf true full with
      | .ok tokens => some ⟨⟨String.ofList full, tokens⟩, admits, foldersOnly⟩
      | .error _ => none

/-- Whether the rule is about a path. -/
def appliesTo (rule : IgnoreRule) (path : String) (isFolder : Bool) : Bool :=
  (isFolder || !rule.foldersOnly) && rule.glob.matchesPath true path

end IgnoreRule

/-- The lines of a file up to the first one that is no text. -/
def textLines (content : ByteArray) : List (List Char) :=
  let parts := Text.splitAt 10 content.toList
  let ended := parts.dropLast.map (· ++ [10]) ++ parts.getLast?.toList
  let texts := (ended.map fun part => String.fromUTF8? ⟨part.toArray⟩).takeWhile Option.isSome
  Text.lines ((texts.filterMap id).flatMap String.toList)

/-- The rules that a file of rules holds; a byte order mark at its beginning does not count. -/
def ignoreRules (content : ByteArray) : List IgnoreRule :=
  match textLines content with
  | [] => []
  | line :: rest =>
    (line.dropWhile (· == Char.ofNat 0xFEFF) :: rest).filterMap IgnoreRule.ofLine?

/-- A file of rules that is in force. -/
structure IgnoreFile where
  /-- The folder below which the rules are in force. -/
  folder : List String
  /-- The kind of the file; the rules of smaller kinds are asked first. -/
  kind : Nat
  /-- The rules in their order. -/
  rules : List IgnoreRule

namespace IgnoreFile

/-- The places of files of rules, relative to their folder, in the order of their kinds. -/
def places : List (List String) :=
  [[".ignore"], [".gitignore"], [".git", "info", "exclude"]]

/-- The files of rules of a folder. -/
def ofFolder (tree : FileTree) (folder : List String) : List IgnoreFile :=
  places.zipIdx.filterMap fun p =>
    match tree.follow FileTree.maxLinks folder p.1 >>= tree.contentAt with
    | .ok content => some ⟨folder, p.2, ignoreRules content⟩
    | .error _ => none

/-- The files of rules of a tree. -/
def all (tree : FileTree) : List IgnoreFile :=
  tree.folders.flatMap (ofFolder tree)

/-- What the file says about a path of the tree: whether the last rule about it admits it. -/
def verdict? (file : IgnoreFile) (path : List String) (isFolder : Bool) : Option Bool :=
  if file.folder.isPrefixOf path then
    let below := "/".intercalate (path.drop file.folder.length)
    (file.rules.reverse.find? fun rule => rule.appliesTo below isFolder).map (·.admits)
  else none

/-- What the files say about a path: the first kind of file that says anything decides, and of
that kind the file that is nearest to the path. -/
def verdictOf? (files : List IgnoreFile) (path : List String) (isFolder : Bool) : Option Bool :=
  (List.range places.length).findSome? fun kind =>
    (List.range path.length).reverse.findSome? fun depth =>
      (files.filter fun f => f.kind == kind && f.folder.length == depth).findSome?
        fun f => f.verdict? path isFolder

end IgnoreFile

end CallAtlas
