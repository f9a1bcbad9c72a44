/-!
# Fragments of a text

Whether a text contains a fragment, and the replacement of every occurrence of one.
-/

set_option autoImplicit false

namespace CallAtlas.Text

/-- Whether `part` occurs in the text as a run of neighbouring characters. -/
def hasFragment (part : List Char) : List Char → Bool
  | [] => part.isEmpty
  | c :: cs => part.isPrefixOf (c :: cs) || hasFragment part cs

/-- Replaces the occurrences of `old` that begin after the next `skip` characters. -/
def replaceAfter (old new : List Char) : Nat → List Char → List Char
  | _, [] => []
  | skip + 1, _ :: cs => replaceAfter old new skip cs
  | 0, c :: cs =>
    if old.isPrefixOf (c :: cs) then new ++ replaceAfter old new (old.length - 1) cs
    else c :: replaceAfter old new 0 cs

/-- Replaces every occurrence of `old` by `new`, from the left and without overlaps; `old` is
not empty where this is used. -/
def replaceAll (old new : List Char) (cs : List Char) : List Char :=
  replaceAfter old new 0 cs

/-- The string with every occurrence of `old` replaced by `new`. -/
def replaced (old new s : String) : String :=
  String.ofList (replaceAll old.toList new.toList s.toList)

end CallAtlas.Text
