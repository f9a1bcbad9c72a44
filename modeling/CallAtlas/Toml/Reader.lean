import CallAtlas.Text.Parser
import CallAtlas.Text.Trim
import CallAtlas.Toml.Table

/-!
# Reading TOML

The readers of keys, values, headers and lines of a TOML document, and the document as a table.
A text that is no document, or that defines something twice, has no table.
-/

set_option autoImplicit false

namespace CallAtlas.Toml

open Text Text.Parser

/-- A character other than the ASCII control characters, or a tab. -/
def isPrintable (c : Char) : Bool :=
  c == '\t' || (' '.toNat ≤ c.toNat && c.toNat != 127)

/-- The mark of a literal string. -/
def isTick (c : Char) : Bool := c.toNat == 39

/-- Reads spaces and tabs. -/
def blanks : Parser Unit := do
  let _ ← run isSpaceOrTab

/-- Reads the end of a line. -/
def newline : Parser Unit := exactly "\n" <|> exactly "\r\n"

/-- Reads a comment up to the end of its line. -/
def comment : Parser Unit := do
  exactly "#"
  let _ ← run isPrintable

/-- Reads what may follow a statement on its line, and the end of the line or of the text. -/
def lineEnd : Parser Unit := do
  blanks
  orGive comment ()
  newline <|> (do require (← atEnd))

/-- Reads blanks, comments and newlines, which may stand inside an array. -/
def filler : Parser Unit := do
  let _ ← many ((do let _ ← someRun isSpaceOrTab) <|> newline <|> comment)

/-! ## Strings and keys -/

/-- The value of a digit in base sixteen. -/
def hexValue? (c : Char) : Option Nat :=
  if '0' ≤ c && c ≤ '9' then some (c.toNat - '0'.toNat)
  else if 'a' ≤ c && c ≤ 'f' then some (c.toNat - 'a'.toNat + 10)
  else if 'A' ≤ c && c ≤ 'F' then some (c.toNat - 'A'.toNat + 10)
  else none

/-- The number that digits of a base stand for, the most significant digit first. -/
def digitsValue (base : Nat) (digits : List Char) : Nat :=
  digits.foldl (fun n c => n * base + (hexValue? c).getD 0) 0

/-- Reads a character that is given by its number in base sixteen. -/
def codePoint (width : Nat) : Parser Char := do
  let digits := (← peek).take width
  require (digits.length == width && digits.all fun c => (hexValue? c).isSome)
  let n := digitsValue 16 digits
  require (n.isValidChar)
  skip width
  pure (Char.ofNat n)

/-- Reads a character that is written with a backslash. -/
def escaped : Parser Char := do
  exactly "\\"
  match ← one fun _ => true with
  | 'b' => pure (Char.ofNat 8)
  | 't' => pure '\t'
  | 'n' => pure '\n'
  | 'f' => pure (Char.ofNat 12)
  | 'r' => pure '\r'
  | '"' => pure '"'
  | '\\' => pure '\\'
  | 'u' => codePoint 4
  | 'U' => codePoint 8
  | _ => failure

/-- Reads the pieces of a string up to where none follows. -/
def pieces (piece : Parser (List Char)) : Parser String := do
  return String.ofList (← many piece).flatten

/-- Reads a basic string of one line. -/
def basicString : Parser String := do
  exactly "\""
  let s ← pieces (someRun (fun c => isPrintable c && c != '"' && c != '\\') <|> (do return [← escaped]))
  exactly "\""
  pure s

/-- Reads a literal string of one line. -/
def literalString : Parser String := do
  let _ ← one isTick
  let cs ← run fun c => isPrintable c && !isTick c
  let _ ← one isTick
  pure (String.ofList cs)

/-- Reads a backslash at the end of a line, with all blanks and newlines after it. -/
def continuation : Parser Unit := do
  exactly "\\"
  blanks
  newline
  let _ ← many ((do let _ ← someRun isSpaceOrTab) <|> newline)

/-- Reads one or two quotes that do not close a string of several lines. -/
def innerQuotes (isQuote : Char → Bool) : Parser (List Char) := do
  let quotes ← someRun isQuote
  require (quotes.length ≤ 2)
  require (!(← atEnd))
  pure quotes

/-- Reads the end of a string of several lines: three quotes after at most two that belong to
the string. -/
def closingQuotes (isQuote : Char → Bool) : Parser (List Char) := do
  let quotes := ((← peek).takeWhile isQuote).take 5
  require (3 ≤ quotes.length)
  skip quotes.length
  pure (quotes.drop 3)

/-- Reads a string of several lines in the given quotes; a newline right after the opening quotes
does not belong to it. -/
def longString (isQuote : Char → Bool) (piece : Parser (List Char)) : Parser String := do
  let opening := (← peek).take 3
  require (opening.length == 3 && opening.all isQuote)
  skip 3
  orGive newline ()
  let cs ← many (piece <|> (do newline; pure ['\n']) <|> innerQuotes isQuote)
  let last ← closingQuotes isQuote
  pure (String.ofList (cs.flatten ++ last))

/-- Reads a basic string of several lines. -/
def longBasicString : Parser String :=
  longString (· == '"')
    (someRun (fun c => isPrintable c && c != '"' && c != '\\') <|> (do continuation; pure []) <|>
      (do return [← escaped]))

/-- Reads a literal string of several lines. -/
def longLiteralString : Parser String :=
  longString isTick (someRun fun c => isPrintable c && !isTick c)

/-- Reads a string. -/
def string : Parser String :=
  longBasicString <|> basicString <|> longLiteralString <|> literalString

/-- Reads one part of a key. -/
def keyPart : Parser String := do
  blanks
  let part ← basicString <|> literalString <|>
    (do return String.ofList (← someRun fun c => c.isAlphanum || c == '_' || c == '-'))
  blanks
  pure part

/-- How deep values nest and how many parts a key has at most. -/
def depthLimit : Nat := 79

/-- Reads a key as its path and its last part. -/
def key : Parser (List String × String) := do
  let parts ← separated keyPart (exactly ".")
  require (parts.length ≤ depthLimit)
  pure (parts.dropLast, parts.getLast?.getD "")

/-! ## Numbers and moments -/

/-- Reads digits, where single underscores may stand between two of them. -/
def digits (isDigit : Char → Bool) : Parser (List Char) := do
  let groups ← separated (someRun isDigit) (exactly "_")
  pure groups.flatten

/-- Reads a sign; says whether the number is negative. -/
def sign : Parser Bool :=
  (do exactly "-"; pure true) <|> (do exactly "+"; pure false) <|> pure false

/-- Reads the digits of a decimal number without leading zeros. -/
def decimalDigits : Parser (List Char) := do
  let ds ← digits Char.isDigit
  require (ds.length == 1 || ds.head? != some '0')
  pure ds

/-- Reads a number in the base with the given mark. -/
def basedInteger (mark : String) (base : Nat) : Parser Nat := do
  exactly mark
  let ds ← digits fun c => (hexValue? c).any (· < base)
  pure (digitsValue base ds)

/-- Reads an integer of 64 bits. -/
def integer : Parser Value := do
  let n ← (Int.ofNat <$> basedInteger "0x" 16) <|> (Int.ofNat <$> basedInteger "0o" 8) <|>
    (Int.ofNat <$> basedInteger "0b" 2) <|> (do
      let negative ← sign
      let n := digitsValue 10 (← decimalDigits)
      pure (if negative then -Int.ofNat n else Int.ofNat n))
  require (-9223372036854775808 ≤ n && n ≤ 9223372036854775807)
  pure (.integer n)

/-- Reads the fraction of a number. -/
def fraction : Parser (List Char) := do
  exactly "."
  digits Char.isDigit

/-- Reads the exponent of a number. -/
def exponent : Parser Int := do
  let _ ← one fun c => c == 'e' || c == 'E'
  let negative ← sign
  let n := digitsValue 10 (← digits Char.isDigit)
  pure (if negative then -Int.ofNat n else Int.ofNat n)

/-- Whether `m` tens to the power `e` is too large for a double: it rounds to infinity. -/
def overflows (m : Nat) (e : Int) : Bool :=
  m != 0 && decide (-400 < e + (Nat.toDigits 10 m).length) &&
    (decide (400 < e + (Nat.toDigits 10 m).length) ||
      decide ((Nat.pow 2 1024 - Nat.pow 2 970) * Nat.pow 10 (-e).toNat ≤ m * Nat.pow 10 e.toNat))

/-- Reads a decimal number with a fraction or an exponent; a positive one must not be too large
for a double. -/
def decimal : Parser Unit := do
  let negative ← sign
  let whole ← decimalDigits
  let (part, e) ← (do let e ← exponent; pure ([], e)) <|> (do
    let part ← fraction
    let e ← orGive exponent 0
    pure (part, e))
  require (negative || !overflows (digitsValue 10 (whole ++ part)) (e - part.length))

/-- Reads infinity or the number that is none. -/
def specialNumber : Parser Unit := do
  let _ ← sign
  exactly "inf" <|> exactly "nan"

/-- Reads a number of exactly the given count of decimal digits, in a range. -/
def field (width low high : Nat) : Parser Nat := do
  let ds := (← peek).take width
  require (ds.length == width && ds.all Char.isDigit)
  let n := digitsValue 10 ds
  require (low ≤ n && n ≤ high)
  skip width
  pure n

/-- The number of days of a month. -/
def monthLength (year month : Nat) : Nat :=
  if month == 2 then
    if year % 4 == 0 && (year % 100 != 0 || year % 400 == 0) then 29 else 28
  else if [4, 6, 9, 11].contains month then 30
  else 31

/-- Reads a date. -/
def date : Parser Unit := do
  let year ← field 4 0 9999
  exactly "-"
  let month ← field 2 1 12
  exactly "-"
  let _ ← field 2 1 (monthLength year month)

/-- Reads a time of the day. -/
def time : Parser Unit := do
  let _ ← field 2 0 23
  exactly ":"
  let _ ← field 2 0 59
  exactly ":"
  let _ ← field 2 0 60
  orGive (do
    exactly "."
    let _ ← someRun Char.isDigit) ()

/-- Reads the distance to universal time. -/
def offset : Parser Unit :=
  (do let _ ← one fun c => c == 'Z' || c == 'z') <|> (do
    let _ ← one fun c => c == '+' || c == '-'
    let _ ← field 2 0 23
    exactly ":"
    let _ ← field 2 0 59)

/-- Reads a date with or without a time, or a time. -/
def moment : Parser Unit :=
  (do
    date
    orGive (do
      let _ ← one fun c => c == 'T' || c == 't' || c == ' '
      time
      orGive offset ()) ()) <|> time

/-- Reads a value that holds no others. -/
def scalar : Parser Value :=
  (Value.text <$> string) <|> (Value.moment <$> slice moment) <|>
    (Value.float <$> slice (decimal <|> specialNumber)) <|> integer <|>
    (do exactly "true"; pure (.boolean true)) <|> (do exactly "false"; pure (.boolean false))

/-! ## Values -/

/-- Reads an array of values. -/
def arrayOf (value : Parser Value) : Parser Value := do
  exactly "["
  let items ← orGive (do
    let items ← separated (do filler; let v ← value; filler; pure v) (exactly ",")
    orGive (exactly ",") ()
    pure items) []
  filler
  exactly "]"
  pure (.array items)

/-- Reads a key with its value. -/
def entryOf (value : Parser Value) : Parser ((List String × String) × Value) := do
  let k ← key
  exactly "="
  blanks
  let v ← value
  pure (k, v)

/-- Reads a table in braces. -/
def inlineTableOf (value : Parser Value) : Parser Value := do
  exactly "\x7b"
  blanks
  let entries ← orGive (separated (do let e ← entryOf value; blanks; pure e) (exactly ",")) []
  exactly "\x7d"
  match entries.foldlM (fun t e => Entries.addEntry e.1.1 e.1.2 e.2 .inline t) [] with
  | some table => pure (.table .inline table)
  | none => failure

/-- Reads a value in which others nest to at most the given depth. -/
def value : Nat → Parser Value
  | 0 => scalar
  | depth + 1 => scalar <|> arrayOf (value depth) <|> inlineTableOf (value depth)

/-! ## Documents -/

/-- A line of a document that says something. -/
inductive Statement where
  /-- The header of a table. -/
  | table (path : List String) (key : String)
  /-- The header of one more table of an array. -/
  | element (path : List String) (key : String)
  /-- A key with its value. -/
  | entry (path : List String) (key : String) (value : Value)

/-- Reads a statement up to the end of its line. -/
def statement : Parser Statement := do
  let s ←
    (do
      exactly "[["
      let k ← key
      exactly "]]"
      pure (Statement.element k.1 k.2)) <|>
    (do
      exactly "["
      let k ← key
      exactly "]"
      pure (.table k.1 k.2)) <|>
    (do
      let e ← entryOf (value depthLimit)
      pure (.entry e.1.1 e.1.2 e.2))
  lineEnd
  pure s

/-- Reads the statements of a document; a line may also be blank or hold a comment alone. -/
def statements : Parser (List Statement) := do
  orGive (exactly "\uFEFF") ()
  let found ← many (do
    blanks
    (some <$> statement) <|> (do lineEnd; pure none))
  require (← atEnd)
  pure (found.filterMap id)

/-- A document that is being read: its table and the path of the header that came last. -/
structure Draft where
  /-- The table of the whole document. -/
  root : Entries
  /-- The table that entries go to. -/
  place : List String

/-- The draft after one more statement. -/
def Draft.add (draft : Draft) : Statement → Option Draft
  | .table path key =>
    (Entries.within false (Entries.beginTable key) path .headed draft.root).map fun root =>
      ⟨root, path ++ [key]⟩
  | .element path key =>
    (Entries.within false (Entries.beginElement key) path .headed draft.root).map fun root =>
      ⟨root, path ++ [key]⟩
  | .entry path key value =>
    (Entries.within false (Entries.addEntry path key value) draft.place .headed draft.root).map
      fun root => ⟨root, draft.place⟩

/-- The table of a document. -/
def document? (text : List Char) : Option Entries :=
  match statements (.start text) with
  | some (found, _) => (found.foldlM Draft.add ⟨[], []⟩).map (·.root)
  | none => none

end CallAtlas.Toml
