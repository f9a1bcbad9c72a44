import CallAtlas.Lexical.Extraction
import CallAtlas.Source.Harvest
import CallAtlas.Source.Indented
import CallAtlas.Source.Items
import CallAtlas.Source.Script

/-!
# Extraction

The definitions of a source file, found in the mode that its language and the settings ask for.
-/

set_option autoImplicit false

namespace CallAtlas

/-- Settings of the extraction. -/
structure ExtractionSettings where
  /-- Whether scripts are parsed instead of searched by patterns. -/
  preferStructured : Bool := false
  /-- In lexical mode, calls that begin with one of these do not count. -/
  excludedCallPrefixes : List String := Lexical.defaultExcludedPrefixes
  deriving Repr, DecidableEq

/-- The mode used for a language. -/
def ExtractionSettings.modeFor (settings : ExtractionSettings) (language : Language) :
    ExtractionMode :=
  match language with
  | .javascript | .typescript =>
    if settings.preferStructured then .structured else language.defaultMode
  | _ => language.defaultMode

namespace Source

/-- The syntax tree of a text; `markup` says whether typed scripts may hold markup. -/
def parse (language : Language) (markup : Bool) (text : List Char) : Node :=
  match language with
  | .python => Indented.parse text
  | .rust => Items.parse text
  | .javascript => Script.parse ⟨false, true⟩ text
  | .typescript => Script.parse ⟨true, markup⟩ text
  | .unknown => .blank

/-- The definitions of a text, read from its syntax tree. -/
def extract (language : Language) (markup : Bool) (text file : String) : List Definition :=
  definitions language file (parse language markup text.toList)

end Source

/-- The definitions of a source file; a blank text has none. -/
def extract (settings : ExtractionSettings) (language : Language) (text file : String) :
    List Definition :=
  if text.toList.all Text.isBlank then []
  else
    match settings.modeFor language with
    | .structured => Source.extract language (".tsx".toList.isSuffixOf file.toList) text file
    | .lexical => Lexical.extract settings.excludedCallPrefixes text file

end CallAtlas
