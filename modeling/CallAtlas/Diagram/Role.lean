import CallAtlas.FilePath
import CallAtlas.Text.Fragment
import CallAtlas.Text.LetterCase

/-!
# Roles of functions

The role a function plays in a component diagram, judged by its file's path and its name alone.
-/

set_option autoImplicit false

namespace CallAtlas

/-- The role of a function. -/
inductive Role where
  /-- A part of the user interface, a page or a hook. -/
  | component
  /-- A formatter, parser, validator, handler or helper. -/
  | utility
  /-- Anything else. -/
  | service
  deriving Repr, DecidableEq

namespace Role

/-- The name of the role. -/
def label : Role → String
  | component => "component"
  | utility => "utility"
  | service => "service"

/-- The tag that marks the role in a diagram. -/
def tag : Role → String
  | component => "<<component>>"
  | utility => "<<utility>>"
  | service => "<<service>>"

/-- The form in which paths are compared: small letters, forward slashes and one at the start. -/
def normalPath (path : String) : List Char :=
  let chars := Text.lowerAfter [] (path.toList.map fun c => if c == '\\' then '/' else c)
  if chars.head? == some '/' then chars else '/' :: chars

/-- Whether one of the given fragments occurs in a text. -/
def hasAny (fragments : List String) (text : List Char) : Bool :=
  fragments.any fun fragment => Text.hasFragment fragment.toList text

/-- Whether the path is that of a page or layout file of an application folder. -/
def isRouteFile (path : List Char) : Bool :=
  Text.hasFragment "/app/".toList path &&
    match FilePath.stem? path with
    | some stem => stem == "page".toList || stem == "layout".toList
    | none => false

/-- Whether the name is that of a hook: `use` and then a capital letter. -/
def isHook : List Char → Bool
  | 'u' :: 's' :: 'e' :: c :: _ => Text.isUppercase c
  | _ => false

/-- Whether the name begins with a capital letter and holds a small one. -/
def isPascalCase (name : List Char) : Bool :=
  (match name with
    | c :: _ => Text.isUppercase c
    | [] => false) && name.any Text.isLowercase

/-- Whether a function looks like a part of the user interface. -/
def looksLikeInterface (path name : String) : Bool :=
  let normal := normalPath path
  hasAny ["component", "/pages/", "/hooks/"] normal || isRouteFile normal ||
    isHook name.toList || isPascalCase name.toList

/-- Whether a function looks like a helper. -/
def looksLikeUtility (path name : String) : Bool :=
  hasAny ["util", "helper", "/lib/"] (normalPath path) ||
    hasAny ["format", "parse", "valid", "handle"] (Text.lowerAfter [] name.toList)

/-- The role of the function with the given file path and name. -/
def classify (path name : String) : Role :=
  if looksLikeInterface path name then component
  else if looksLikeUtility path name then utility
  else service

end Role

end CallAtlas
