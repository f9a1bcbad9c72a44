import CallAtlas.Text.LetterTable
import CallAtlas.Text.Pattern

/-!
# Classes of characters

Whitespace, letters by case, and the characters of words, as Unicode defines them.  The classes
of the first 128 code points are given by formula, so a question about one of them needs no table.
-/

set_option autoImplicit false

namespace CallAtlas.Text

/-- Whitespace: the Unicode property White_Space. -/
def isBlank (c : Char) : Bool :=
  let n := c.toNat
  Nat.ble 9 n && Nat.ble n 13 || n == 32 || n == 0x85 || n == 0xA0 || n == 0x1680 ||
    Nat.ble 0x2000 n && Nat.ble n 0x200A || n == 0x2028 || n == 0x2029 || n == 0x202F ||
    n == 0x205F || n == 0x3000

/-- Space or tab. -/
def isSpaceOrTab (c : Char) : Bool :=
  c == ' ' || c == '\t'

/-- Letters and letter-like characters: the Unicode property Alphabetic. -/
def isAlphabetic (c : Char) : Bool :=
  if c.toNat < 128 then c.isAlpha else inSpans alphabeticSpans c.toNat

/-- Capital letters: the Unicode property Uppercase. -/
def isUppercase (c : Char) : Bool :=
  if c.toNat < 128 then c.isUpper else inSpans uppercaseSpans c.toNat

/-- Small letters: the Unicode property Lowercase. -/
def isLowercase (c : Char) : Bool :=
  if c.toNat < 128 then c.isLower else inSpans lowercaseSpans c.toNat

/-- Letters that have a case. -/
def isCased (c : Char) : Bool :=
  isUppercase c || isLowercase c || inSpans titlecaseSpans c.toNat

/-- Characters that do not end a word for the rule of the final sigma. -/
def isCaseIgnorable (c : Char) : Bool :=
  if c.toNat < 128 then c.toNat == 39 || c == '.' || c == ':' || c == '^' || c.toNat == 96
  else inSpans caseIgnorableSpans c.toNat

/-- Word characters: letters, marks, decimal digits, connector punctuation and joiners. -/
def isWord (c : Char) : Bool :=
  if c.toNat < 128 then c.isAlphanum || c == '_'
  else inSpans alphabeticSpans c.toNat || inSpans markSpans c.toNat

/-- The first character of an identifier: an ASCII letter, an underscore or a dollar sign. -/
def isIdentifierStart (c : Char) : Bool :=
  c.isAlpha || c == '_' || c == '$'

/-- A later character of an identifier: a word character or a dollar sign. -/
def isIdentifierRest (c : Char) : Bool :=
  isWord c || c == '$'

/-- A place between a word character and something else. -/
def wordEdge : Pattern Char :=
  .edge fun before after => before.any isWord != after.any isWord

end CallAtlas.Text
