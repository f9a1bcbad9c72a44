import CallAtlas.CommandLine.Program

/-!
# The command line

Loads what a command reads of the file system, runs the program on it, and carries out what it comes
to.  A link is loaded with the place that it leads to in the end.
-/

set_option autoImplicit false

namespace CallAtlas.CommandLine

/-- The text of a place in the tree. -/
def placeText (place : List String) : String :=
  "/" ++ "/".intercalate place

/-- The names that lead to a place, from its text. -/
def placeOf (text : String) : List String :=
  (FileTree.steps text).filter (· != "")

/-- Adds what stands at a place to a tree that has the folder of the place. -/
def loadItem (tree : FileTree) (place : List String) : IO FileTree := do
  let entry : IO.FS.DirEntry := ⟨placeText place.dropLast, place.getLastD ""⟩
  try
    match (← entry.path.symlinkMetadata).type with
    | .dir => return tree.put place .folder
    | .symlink => return tree.put place (.link (← IO.FS.realPath entry.path).toString)
    | _ => return tree.put place (.file (← IO.FS.readBinFile entry.path))
  catch _ => return tree

/-- Adds a place and the folders above it; there is no link on the way. -/
def loadPlace (tree : FileTree) (place : List String) : IO FileTree :=
  (List.range place.length).foldlM (fun tree n => loadItem tree (place.take (n + 1))) tree

/-- Adds what stands at a place and what it leads to; gives that place too. -/
def loadTarget (tree : FileTree) (place : List String) : IO (FileTree × List String) := do
  let tree ← loadItem tree place
  match tree.get? place with
  | some (.link target) => return (← loadPlace tree (placeOf target), placeOf target)
  | _ => return (tree, place)

/-- Adds what stands on the way that some steps lead from a place, and gives the place at its
end. -/
def loadSteps (tree : FileTree) (place steps : List String) : IO (FileTree × List String) :=
  steps.foldlM (fun (tree, place) step => do
    if step == "" || step == "." then return (tree, place)
    else if step == ".." then return (tree, place.dropLast)
    else loadTarget tree (place ++ [step])) (tree, place)

/-- Adds what stands on the way that a path leads. -/
def loadPath (tree : FileTree) (path : String) : IO (FileTree × List String) :=
  loadSteps tree (FileTree.origin tree.workingFolder path) (FileTree.steps path)

/-- Adds the files of rules of a folder. -/
def loadRules (tree : FileTree) (folder : List String) : IO FileTree :=
  IgnoreFile.places.foldlM (fun tree place => return (← loadSteps tree folder place).1) tree

/-- Adds everything below a folder. -/
partial def loadBelow (tree : FileTree) (folder : List String) : IO FileTree := do
  let entry : IO.FS.DirEntry := ⟨placeText folder, "."⟩
  let names := (← entry.path.readDir).toList.map (·.fileName)
  names.foldlM (fun tree name => do
    let place := folder ++ [name]
    let (tree, _) ← loadTarget tree place
    match tree.get? place with
    | some .folder => try loadBelow tree place catch _ => return tree
    | _ => return tree) tree

/-- Adds what a scan of a project reads. -/
def loadProject (tree : FileTree) (root : String) : IO FileTree := do
  let (tree, folder) ← loadPath tree root
  let folders := (List.range (folder.length + 1)).map folder.take
  let tree ← folders.foldlM loadRules tree
  try loadBelow tree folder catch _ => return tree

/-- Adds what a command reads, and the way to the file that it writes. -/
def loadCommand (tree : FileTree) (command : Command) : IO FileTree := do
  let project := command.project
  let paths := project.settingsFile.toList ++ project.output.toList
  let tree ← paths.foldlM (fun tree path => return (← loadPath tree path).1) tree
  match command.settings tree with
  | .error _ => return tree
  | .ok settings =>
    match Scanner.narrowedRoot project.root settings.codeFolder with
    | .error _ => return tree
    | .ok root => loadProject tree root

/-- Writes the files in which one tree differs from another. -/
def writeChanges (old new : FileTree) : IO Unit :=
  new.entries.forM fun e =>
    match e.2, old.get? e.1 with
    | .file content, some (.file before) =>
      if content.data == before.data then pure ()
      else IO.FS.writeBinFile (placeText e.1) content
    | .file content, _ => IO.FS.writeBinFile (placeText e.1) content
    | _, _ => pure ()

end CallAtlas.CommandLine

open CallAtlas CallAtlas.CommandLine

/-- Runs the program in the working folder. -/
def main (args : List String) : IO UInt32 := do
  let top := placeOf (← IO.FS.realPath (← IO.currentDir)).toString
  let tree := (← loadPlace .empty top).workIn top
  let tree ← match request? args with
    | some (.run command) => loadCommand tree command
    | _ => pure tree
  let outcome := run args tree
  writeChanges tree outcome.tree
  IO.print (if request? args == some .help then usageText else outcome.printed)
  match outcome.report with
  | some report => IO.eprintln report
  | none => if outcome.exitCode == 0 then pure () else IO.eprint usageText
  return outcome.exitCode.toUInt32
