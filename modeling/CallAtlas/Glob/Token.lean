/-!
# Glob tokens

A glob is read from left to right into tokens.  Two stars that stand where a folder could stand
match folders of any depth; anywhere else they are just two stars.
-/

set_option autoImplicit false

namespace CallAtlas.Glob

/-- A part of a glob. -/
inductive Token where
  /-- Exactly this character. -/
  | literal (c : Char)
  /-- Any one symbol. -/
  | any
  /-- Any run of symbols. -/
  | anyRun
  /-- Folders at the beginning of a path, or none. -/
  | foldersFirst
  /-- Something below the folder so far. -/
  | foldersLast
  /-- A slash, or one folder or more between two slashes. -/
  | foldersBetween
  /-- A symbol in one of the ranges, or in none of them. -/
  | oneOf (negated : Bool) (ranges : List (Char × Char))
  /-- One of the branches; without a branch, nothing. -/
  | choice (branches : List (List Token))

/-- Why a text is no glob. -/
inductive Fault where
  /-- A bracket is not closed. -/
  | unclosedClass
  /-- The ends of a range are in the wrong order. -/
  | invalidRange (low high : Char)
  /-- An opening brace is not closed. -/
  | unclosedGroup
  /-- A closing brace was not opened. -/
  | unopenedGroup
  /-- Nothing follows a backslash. -/
  | danglingEscape
  deriving Repr, DecidableEq

/-- The wording of a fault. -/
def Fault.message : Fault → String
  | unclosedClass => "unclosed character class; missing ']'"
  | invalidRange low high =>
    "invalid range; '" ++ String.singleton low ++ "' > '" ++ String.singleton high ++ "'"
  | unclosedGroup =>
    "unclosed alternate group; missing '\x7d' (maybe escape '\x7b' with '[\x7b]'?)"
  | unopenedGroup =>
    "unopened alternate group; missing '\x7b' (maybe escape '\x7d' with '[\x7d]'?)"
  | danglingEscape => "dangling '\\'"

/-! ## Bracketed classes -/

/-- A class that is being read. -/
structure ClassDraft where
  /-- The ranges so far, the last one first. -/
  ranges : List (Char × Char)
  /-- Whether the last range waits for its upper end. -/
  pending : Bool

/-- The draft after one more character. -/
def ClassDraft.add (draft : ClassDraft) (c : Char) : Except Fault ClassDraft :=
  match draft.pending, draft.ranges with
  | true, (low, _) :: ranges =>
    if c < low then .error (.invalidRange low c) else .ok ⟨(low, c) :: ranges, false⟩
  | _, ranges =>
    if c == '-' && !ranges.isEmpty then .ok ⟨ranges, true⟩ else .ok ⟨(c, c) :: ranges, false⟩

/-- The ranges of a finished class; a hyphen at its end stands for itself. -/
def ClassDraft.finish (draft : ClassDraft) : List (Char × Char) :=
  (if draft.pending then ('-', '-') :: draft.ranges else draft.ranges).reverse

/-- Reads a class up to the bracket that closes it, which is not its first character; gives the
ranges and the number of characters read, or nothing if the class is not closed. -/
def readClass : ClassDraft → List Char → Except Fault (Option (List (Char × Char) × Nat))
  | _, [] => .ok none
  | draft, c :: cs =>
    if c == ']' && !draft.ranges.isEmpty then .ok (some (draft.finish, 1))
    else do
      let found ← readClass (← draft.add c) cs
      return found.map fun f => (f.1, f.2 + 1)

/-- Reads what follows an opening bracket; gives the class and the number of characters read, or
nothing if the class is not closed. -/
def readBracket : List Char → Except Fault (Option (Token × Nat))
  | '!' :: cs | '^' :: cs => do
    return (← readClass ⟨[], false⟩ cs).map fun f => (.oneOf true f.1, f.2 + 1)
  | cs => do
    return (← readClass ⟨[], false⟩ cs).map fun f => (.oneOf false f.1, f.2)

/-! ## Whole globs -/

/-- A glob that is being read. -/
structure Draft where
  /-- The tokens of the innermost branch so far, the last one first. -/
  branch : List Token
  /-- The finished branches of the innermost open group, the last one first. -/
  finished : List (List Token)
  /-- The branch and the finished branches around each open group, the innermost first. -/
  outer : List (List Token × List (List Token))

namespace Draft

/-- The draft of a glob of which nothing has been read. -/
def start : Draft := ⟨[], [], []⟩

/-- Whether a group is open. -/
def inGroup (draft : Draft) : Bool := !draft.outer.isEmpty

/-- The draft with a token added. -/
def push (draft : Draft) (token : Token) : Draft :=
  { draft with branch := token :: draft.branch }

/-- The draft with a new group opened. -/
def openGroup (draft : Draft) : Draft :=
  ⟨[], [], (draft.branch, draft.finished) :: draft.outer⟩

/-- The draft with a new branch begun. -/
def nextBranch (draft : Draft) : Draft :=
  ⟨[], draft.branch :: draft.finished, draft.outer⟩

/-- Whether a branch says nothing at all. -/
def isBlank (branch : List Token) : Bool :=
  branch.all fun
    | .choice [] => true
    | _ => false

/-- The draft with the innermost group closed; branches that say nothing are dropped. -/
def closeGroup (draft : Draft) : Option Draft :=
  match draft.outer with
  | [] => none
  | (branch, finished) :: outer =>
    let branches := (draft.branch :: draft.finished).reverse.map List.reverse
    some ⟨.choice (branches.filter fun b => !isBlank b) :: branch, finished, outer⟩

/-- The draft with the last token replaced by one for folders; it stays if it is one already. -/
def endInFolders (draft : Draft) (token : Token) : Draft :=
  match draft.branch with
  | .foldersFirst :: _ | .foldersLast :: _ => draft
  | _ :: branch => { draft with branch := token :: branch }
  | [] => draft.push token

/-- Whether two stars after the given character stand where a folder could begin. -/
def folderBegins (draft : Draft) (before : Option Char) : Bool :=
  before == some '/' || (draft.inGroup && (before == some ',' || before == some '\x7b'))

/-- The draft after two stars, which the given characters follow, and whether the first of those
is used up. -/
def addStars (draft : Draft) (before : Option Char) (next : List Char) : Draft × Bool :=
  let plain := (draft.push .anyRun).push .anyRun
  match draft.branch.isEmpty, next with
  | true, [] => (draft.push .foldersFirst, false)
  | true, '/' :: _ => (draft.push .foldersFirst, true)
  | true, _ => (plain, false)
  | false, next =>
    if draft.folderBegins before then
      match next with
      | [] => (draft.endInFolders .foldersLast, false)
      | c :: _ =>
        if draft.inGroup && (c == ',' || c == '\x7d') then
          (draft.endInFolders .foldersLast, false)
        else if c == '/' then (draft.endInFolders .foldersBetween, true)
        else (plain, false)
    else (plain, false)

end Draft

/-- Reads the rest of a glob after skipping some characters.  `before` is the character before the
rest; `classes` says whether a bracket may still open a class, and `lenient` whether a bracket that
is not closed stands for itself. -/
def readTokens (lenient : Bool) :
    Nat → Bool → Option Char → Draft → List Char → Except Fault (List Token)
  | _, _, _, draft, [] => if draft.inGroup then .error .unclosedGroup else .ok draft.branch.reverse
  | skip + 1, classes, _, draft, c :: cs => readTokens lenient skip classes (some c) draft cs
  | 0, classes, before, draft, c :: cs =>
    match c with
    | '?' => readTokens lenient 0 classes (some c) (draft.push .any) cs
    | '*' =>
      match cs with
      | '*' :: next =>
        let (draft, slash) := draft.addStars before next
        readTokens lenient (if slash then 2 else 1) classes (some c) draft cs
      | _ => readTokens lenient 0 classes (some c) (draft.push .anyRun) cs
    | '[' => do
      let found ← if classes then readBracket cs else pure none
      match found with
      | some (token, n) => readTokens lenient n classes (some c) (draft.push token) cs
      | none =>
        if lenient then readTokens lenient 0 false (some c) (draft.push (.literal c)) cs
        else .error .unclosedClass
    | '\x7b' => readTokens lenient 0 classes (some c) draft.openGroup cs
    | '\x7d' =>
      match draft.closeGroup with
      | some draft => readTokens lenient 0 classes (some c) draft cs
      | none => .error .unopenedGroup
    | ',' =>
      readTokens lenient 0 classes (some c)
        (if draft.inGroup then draft.nextBranch else draft.push (.literal c)) cs
    | '\\' =>
      match cs with
      | d :: _ => readTokens lenient 1 classes (some c) (draft.push (.literal d)) cs
      | [] => .error .danglingEscape
    | _ => readTokens lenient 0 classes (some c) (draft.push (.literal c)) cs

/-- The tokens of a whole glob. -/
def tokensOf (lenient : Bool) (glob : List Char) : Except Fault (List Token) :=
  readTokens lenient 0 true none .start glob

end CallAtlas.Glob
