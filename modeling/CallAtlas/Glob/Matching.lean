import CallAtlas.Glob.Token
import CallAtlas.Text.Pattern

/-!
# Matching globs

A glob matches whole paths.  Paths are compared as the bytes of their UTF-8 form, so that a
question mark stands for one byte.  Whether a star also matches a slash depends on the use.
-/

set_option autoImplicit false

namespace CallAtlas

/-- A glob that has been read. -/
structure Glob where
  /-- The text it was read from. -/
  source : String
  /-- Its tokens. -/
  tokens : List Glob.Token

/-- A text that is no glob, and why. -/
structure GlobError where
  /-- The text. -/
  source : String
  /-- What is wrong with it. -/
  fault : Glob.Fault
  deriving Repr, DecidableEq

/-- The message of the error. -/
def GlobError.message (e : GlobError) : String :=
  "error parsing glob '" ++ e.source ++ "': " ++ e.fault.message

namespace Glob

open Text

/-- The bytes of a text. -/
def bytes (s : String) : List UInt8 :=
  s.toUTF8.toList

/-- The slash between the parts of a path. -/
def slash : UInt8 := 47

/-- The glob of a text. -/
def ofString (source : String) : Except GlobError Glob :=
  match tokensOf false source.toList with
  | .ok tokens => .ok ⟨source, tokens⟩
  | .error fault => .error ⟨source, fault⟩

/-- Any one byte; not a slash if slashes part the path. -/
def anyByte (parted : Bool) : Pattern UInt8 :=
  .one fun b => !parted || b != slash

/-- Any run of bytes. -/
def anyBytes : Pattern UInt8 := .star (.one fun _ => true)

/-- The ranges of bytes that a range of characters covers: a character of several bytes stands for
each of them, and the range runs between the two that are nearest. -/
def byteRanges (range : Char × Char) : List (UInt8 × UInt8) :=
  let low := String.utf8EncodeChar range.1
  let high := String.utf8EncodeChar range.2
  if range.1 == range.2 then low.map fun b => (b, b)
  else
    low.dropLast.map (fun b => (b, b)) ++ [(low.getLast?.getD 0, high.head?.getD 0)] ++
      (high.drop 1).map fun b => (b, b)

/-- Whether a byte lies in one of the ranges of characters. -/
def inRanges (ranges : List (Char × Char)) (b : UInt8) : Bool :=
  (ranges.flatMap byteRanges).any fun r => r.1 ≤ b && b ≤ r.2

mutual

/-- The pattern of a token. -/
def Token.pattern (parted : Bool) : Token → Pattern UInt8
  | .literal c => .word (String.utf8EncodeChar c)
  | .any => anyByte parted
  | .anyRun => .star (anyByte parted)
  | .foldersFirst => .alt (.optional (.one (· == slash))) (.seq anyBytes (.one (· == slash)))
  | .foldersLast => .seq (.one (· == slash)) anyBytes
  | .foldersBetween =>
    .alt (.one (· == slash)) (.seq (.one (· == slash)) (.seq anyBytes (.one (· == slash))))
  | .oneOf negated ranges => .one fun b => inRanges ranges b != negated
  | .choice [] => .empty
  | .choice (branch :: branches) =>
    .alt (Token.patterns parted branch) (Token.branchPatterns parted branches)

/-- The pattern of tokens one after the other. -/
def Token.patterns (parted : Bool) : List Token → Pattern UInt8
  | [] => .empty
  | token :: tokens => .seq (token.pattern parted) (Token.patterns parted tokens)

/-- The pattern of one of the branches; there is none in the empty list. -/
def Token.branchPatterns (parted : Bool) : List (List Token) → Pattern UInt8
  | [] => .one fun _ => false
  | branch :: branches =>
    .alt (Token.patterns parted branch) (Token.branchPatterns parted branches)

end

/-- The pattern of a glob; two stars alone match everything. -/
def pattern (parted : Bool) : List Token → Pattern UInt8
  | [.foldersFirst] => anyBytes
  | tokens => Token.patterns parted tokens

/-- Whether the glob matches the whole path; `parted` says whether slashes part the path for stars
and question marks. -/
def matchesPath (parted : Bool) (glob : Glob) (path : String) : Bool :=
  (pattern parted glob.tokens).accepts (bytes path)

end Glob

end CallAtlas
