import CallAtlas.AnalysisError
import CallAtlas.FileTree.Walk
import CallAtlas.Settings

/-!
# Scanning a project

A scanner picks the files of a folder that an analysis reads: those that a walk lists, that no
pattern excludes and that end in one of the suffixes.  Paths are spelled as the root is, and the
files of a folder come in the order of their names.
-/

set_option autoImplicit false

namespace CallAtlas

/-- A file to be analysed. -/
structure SourceFile where
  /-- The path below the root. -/
  path : String
  /-- The content. -/
  text : String
  /-- The language it is read in. -/
  language : Language
  deriving Repr, DecidableEq

/-- What to pick from a folder. -/
structure Scanner where
  /-- The folder, as it was spelled. -/
  root : String
  /-- The suffixes of the files to pick; all files if there are none. -/
  suffixes : List String := []
  /-- The patterns of the files to leave out. -/
  exclude : List Glob := []
  /-- The language of files whose names do not tell it. -/
  fallback : Language := .unknown

namespace Scanner

/-- A path followed by one relative to it. -/
def join (folder path : String) : String :=
  if folder.isEmpty || folder.toList.getLast? == some '/' then folder ++ path
  else folder ++ "/" ++ path

/-- The folder of a project to which its settings keep; it must not lead out of the project. -/
def narrowedRoot (root : String) (codeFolder : Option String) : Except AnalysisError String :=
  let folder := Text.trim (codeFolder.getD "").toList
  if folder.isEmpty then .ok root
  else if (FilePath.parts folder).any fun part => part == .root || part == .up then
    .error (.invalidPath ("code folder must stay inside the project: " ++ String.ofList folder))
  else .ok (join root (String.ofList folder))

/-- The globs of some patterns. -/
def globs (patterns : List String) : Except AnalysisError (List Glob) :=
  patterns.mapM fun pattern => (Glob.ofString pattern).mapError .pattern

/-- The scanner with other patterns of files to leave out. -/
def withExclude (scanner : Scanner) (patterns : List String) : Except AnalysisError Scanner := do
  return { scanner with exclude := ← globs patterns }

/-- The scanner that the settings of a project ask for. -/
def ofSettings (root : String) (settings : Settings) : Except AnalysisError Scanner := do
  let root ← narrowedRoot root settings.codeFolder
  return ⟨root, settings.suffixes, ← globs settings.exclude, settings.languageHint⟩

/-- A relative path with forward slashes. -/
def normalized (path : String) : String :=
  String.ofList (path.toList.map fun c => if c == '\\' then '/' else c)

/-- Whether a file is picked, by its path below the root. -/
def picks (scanner : Scanner) (path : String) : Bool :=
  (!scanner.exclude.any fun glob => glob.matchesPath false path) &&
    (scanner.suffixes.isEmpty || scanner.suffixes.any fun s => s.toList.isSuffixOf path.toList)

/-- The files that are picked, with their paths below the root and their contents. -/
def files (scanner : Scanner) (tree : FileTree) :
    Except AnalysisError (List (String × ByteArray)) :=
  match tree.resolve scanner.root with
  | .error _ => .error (.invalidPath scanner.root)
  | .ok folder =>
    if !tree.hasFolder folder then .error (.invalidPath scanner.root)
    else
      .ok ((tree.walk folder).filterMap fun e =>
        let path := "/".intercalate e.1
        if scanner.picks (normalized path) then
          (tree.read (join scanner.root path)).toOption.map fun content => (path, content)
        else none)

/-- The paths of the files that are picked, spelled as the root is. -/
def scan (scanner : Scanner) (tree : FileTree) : Except AnalysisError (List String) := do
  return (← scanner.files tree).map fun file => join scanner.root file.1

/-- The file with its text, unless it is no text. -/
def source? (scanner : Scanner) (file : String × ByteArray) : Option SourceFile :=
  (String.fromUTF8? file.2).map fun text =>
    let language := Language.ofPath file.1
    ⟨normalized file.1, text, if language = .unknown then scanner.fallback else language⟩

/-- The texts of the files that are picked; files that are no text are left out. -/
def sources (scanner : Scanner) (tree : FileTree) : Except AnalysisError (List SourceFile) := do
  return (← scanner.files tree).filterMap scanner.source?

end Scanner

end CallAtlas
