import CallAtlas.Text.CharClass
import CallAtlas.Text.CaseTable

/-!
# Upper and lower case of text

The full Unicode case mappings: a character may have a form of several characters, and a capital
sigma at the end of a word has a lower-case form of its own.
-/

set_option autoImplicit false

namespace CallAtlas.Text

/-- The lower-case form of one character, whatever stands around it. -/
def lowerForm (c : Char) : List Char :=
  if c.toNat < 128 then [c.toLower]
  else if c.toNat == 0x130 then ['i', Char.ofNat 0x307]
  else [Char.ofNat (shifted lowerShifts c.toNat)]

/-- The upper-case form of one character. -/
def upperForm (c : Char) : List Char :=
  if c.toNat < 128 then [c.toUpper]
  else
    match upperForms.lookup c.toNat with
    | some form => form.map Char.ofNat
    | none => [Char.ofNat (shifted upperShifts c.toNat)]

/-- Whether the first character that the final-sigma rule does not ignore is a cased letter. -/
def meetsCased : List Char → Bool
  | [] => false
  | c :: cs => if isCaseIgnorable c then meetsCased cs else isCased c

/-- The lower-case form of `rest`, where `before` holds the text before it, nearest first. -/
def lowerAfter (before : List Char) : List Char → List Char
  | [] => []
  | c :: rest =>
    (if c == 'Σ' then [if meetsCased before && !meetsCased rest then 'ς' else 'σ']
      else lowerForm c) ++ lowerAfter (c :: before) rest

/-- The lower-case form of a text. -/
def lower (s : String) : String :=
  String.ofList (lowerAfter [] s.toList)

end CallAtlas.Text
