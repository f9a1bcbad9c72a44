import CallAtlas.FilePath
import CallAtlas.Text.LetterCase

/-!
# Labels

How names of functions and files are written inside a diagram.
-/

set_option autoImplicit false

namespace CallAtlas.Label

/-- The title form of the rest of a name; `inWord` says whether a letter stands before it. -/
def titleAfter : Bool → List Char → List Char
  | _, [] => []
  | inWord, c :: cs =>
    let c := if c == '_' then ' ' else c
    if Text.isAlphabetic c then
      (if inWord then Text.lowerForm c else Text.upperForm c) ++ titleAfter true cs
    else c :: titleAfter false cs

/-- The display form of a name: underscores become spaces, and of every run of letters the first
is a capital and the others are small. -/
def title (name : String) : String :=
  String.ofList (titleAfter false name.toList)

/-- The label of a file's package: its base name with underscores for dots. -/
def packageName (file : String) : String :=
  String.ofList ((FilePath.baseName file).toList.map fun c => if c == '.' then '_' else c)

/-- The identifier of a function: its name with underscores for all but ASCII letters and
digits. -/
def identifier (name : String) : String :=
  "fn_" ++ String.ofList (name.toList.map fun c => if c.isAlphanum then c else '_')

end CallAtlas.Label
