import CallAtlas.FileTree.IgnoreRules

/-!
# Walks through file trees

A walk lists what lies below a folder, without hidden entries and what the ignore rules leave out.
Nothing is listed below a folder that is left out, and links are listed but not entered.
-/

set_option autoImplicit false

namespace CallAtlas.FileTree

/-- Whether the name of a path begins with a dot. -/
def isHidden (path : List String) : Bool :=
  match path.getLast? with
  | some name => name.toList.head? == some '.'
  | none => false

/-- Whether an entry counts, judged by itself: the ignore rules decide, and where they say nothing
it must not be hidden. -/
def counts (rules : List IgnoreFile) (path : List String) (isFolder : Bool) : Bool :=
  (IgnoreFile.verdictOf? rules path isFolder).getD (!isHidden path)

/-- Whether an entry and all folders above it, up to the given number of steps, count. -/
def isListed (rules : List IgnoreFile) (depth : Nat) (entry : List String × FileItem) : Bool :=
  counts rules entry.1 entry.2.isFolder &&
    (List.range entry.1.length).all fun n => n ≤ depth || counts rules (entry.1.take n) true

/-- The entries below a folder that a walk lists, with their paths from that folder on. -/
def walk (tree : FileTree) (folder : List String) : List (List String × FileItem) :=
  let rules := IgnoreFile.all tree
  let below := tree.entries.filter fun e => folder.isPrefixOf e.1 && folder.length < e.1.length
  (below.filter (isListed rules folder.length)).map fun e => (e.1.drop folder.length, e.2)

end CallAtlas.FileTree
