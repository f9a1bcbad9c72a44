/-!
# JSON

JSON values and their text over several lines, in which every item of an array and every field of
an object has a line of its own and is indented by two spaces more than what holds it.
-/

set_option autoImplicit false

namespace CallAtlas

/-- A JSON value. -/
inductive JsonValue where
  /-- A string. -/
  | text (s : String)
  /-- A natural number. -/
  | number (n : Nat)
  /-- A truth value. -/
  | boolean (b : Bool)
  /-- An array. -/
  | array (items : List JsonValue)
  /-- An object with its fields in the order they are written. -/
  | object (fields : List (String × JsonValue))

namespace JsonValue

/-- A digit in base sixteen. -/
def hexDigit (n : Nat) : Char :=
  if n < 10 then Char.ofNat ('0'.toNat + n) else Char.ofNat ('a'.toNat + (n - 10))

/-- A character as it is written inside quotes: quotes, backslashes and the control characters of
ASCII below the space are escaped. -/
def escaped (c : Char) : List Char :=
  if c == '"' then ['\\', '"']
  else if c == '\\' then ['\\', '\\']
  else if c == '\n' then ['\\', 'n']
  else if c == '\r' then ['\\', 'r']
  else if c == '\t' then ['\\', 't']
  else if c.toNat == 8 then ['\\', 'b']
  else if c.toNat == 12 then ['\\', 'f']
  else if c.toNat < 32 then
    ['\\', 'u', '0', '0', hexDigit (c.toNat / 16), hexDigit (c.toNat % 16)]
  else [c]

/-- A string in quotes. -/
def quoted (s : String) : String :=
  "\"" ++ String.ofList (s.toList.flatMap escaped) ++ "\""

/-- The break before a line at the given depth. -/
def lineBreak (depth : Nat) : String :=
  "\n" ++ String.ofList (List.replicate (2 * depth) ' ')

mutual

/-- The text of a value at the given depth. -/
def pretty (depth : Nat) : JsonValue → String
  | text s => quoted s
  | number n => toString n
  | boolean b => if b then "true" else "false"
  | array [] => "[]"
  | array (item :: items) =>
    "[" ++ lineBreak (depth + 1) ++ pretty (depth + 1) item ++ prettyItems (depth + 1) items ++
      lineBreak depth ++ "]"
  | object [] => "\x7b\x7d"
  | object ((key, value) :: fields) =>
    "\x7b" ++ lineBreak (depth + 1) ++ quoted key ++ ": " ++ pretty (depth + 1) value ++
      prettyFields (depth + 1) fields ++ lineBreak depth ++ "\x7d"

/-- The text of the items that follow another one. -/
def prettyItems (depth : Nat) : List JsonValue → String
  | [] => ""
  | item :: items => "," ++ lineBreak depth ++ pretty depth item ++ prettyItems depth items

/-- The text of the fields that follow another one. -/
def prettyFields (depth : Nat) : List (String × JsonValue) → String
  | [] => ""
  | (key, value) :: fields =>
    "," ++ lineBreak depth ++ quoted key ++ ": " ++ pretty depth value ++
      prettyFields depth fields

end

/-- The text of a value over several lines. -/
def render (value : JsonValue) : String :=
  pretty 0 value

end JsonValue

end CallAtlas
