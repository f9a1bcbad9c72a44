/-!
# Parsers

Parsers read a text from a cursor and may fail, which leaves the cursor where it was.  A grammar
is given by its rules, each written in terms of all of them; the rules are tied together to any
finite depth of nesting.
-/

set_option autoImplicit false

namespace CallAtlas.Text

/-- A place in a text: what follows it, and how many characters and newlines come before it. -/
structure Cursor where
  /-- The text from here on. -/
  rest : List Char
  /-- The number of characters before this place. -/
  passed : Nat
  /-- The row, counted from zero. -/
  row : Nat
  deriving Repr

/-- The beginning of a text. -/
def Cursor.start (text : List Char) : Cursor := ⟨text, 0, 0⟩

/-- The place some characters further on; the text ends where it ends. -/
def Cursor.advance (c : Cursor) (n : Nat) : Cursor :=
  let read := c.rest.take n
  ⟨c.rest.drop n, c.passed + read.length, c.row + read.count '\n'⟩

/-- A reader of text that may fail. -/
abbrev Parser (α : Type) : Type := StateT Cursor Option α

namespace Parser

variable {α β : Type}

/-- The text that follows. -/
def peek : Parser (List Char) := fun c => some (c.rest, c)

/-- The current row. -/
def row : Parser Nat := fun c => some (c.row, c)

/-- Moves on by the given number of characters. -/
def skip (n : Nat) : Parser Unit := fun c => some ((), c.advance n)

/-- Reads the given number of characters. -/
def take (n : Nat) : Parser String := fun c =>
  some (String.ofList (c.rest.take n), c.advance n)

/-- Whether the text goes on with the given characters. -/
def lookingAt (s : String) : Parser Bool := do
  return s.toList.isPrefixOf (← peek)

/-- Whether the text has ended. -/
def atEnd : Parser Bool := do
  return (← peek).isEmpty

/-- Fails unless the condition holds. -/
def require (b : Bool) : Parser Unit := if b then pure () else failure

/-- Runs a parser, or gives a value where it fails. -/
def orGive (p : Parser α) (a : α) : Parser α := p <|> pure a

/-- Reads one character that passes the test. -/
def one (test : Char → Bool) : Parser Char := do
  match ← peek with
  | c :: _ => do
    require (test c)
    skip 1
    pure c
  | [] => failure

/-- Reads exactly the given characters. -/
def exactly (s : String) : Parser Unit := do
  require (← lookingAt s)
  skip s.length

/-- Reads the longest run of characters that pass the test. -/
def run (test : Char → Bool) : Parser (List Char) := do
  let cs := (← peek).takeWhile test
  skip cs.length
  pure cs

/-- Reads a run of characters that pass the test, which is not empty. -/
def someRun (test : Char → Bool) : Parser (List Char) := do
  let cs ← run test
  require (!cs.isEmpty)
  pure cs

/-- Whether the parser succeeds here; nothing is consumed. -/
def fits (p : Parser α) : Parser Bool := fun c =>
  match p c with
  | some _ => some (true, c)
  | none => some (false, c)

/-- Runs a parser as long as it succeeds and moves on, at most once for each character of the
bound. -/
def upTo (p : Parser α) : List Char → Parser (List α)
  | [] => pure []
  | _ :: bound => fun c =>
    match p c with
    | some (a, c') =>
      if c.passed < c'.passed then
        match upTo p bound c' with
        | some (as, c'') => some (a :: as, c'')
        | none => some ([a], c')
      else some ([], c)
    | none => some ([], c)

/-- Runs a parser as often as it succeeds and moves on. -/
def many (p : Parser α) : Parser (List α) := fun c => upTo p c.rest c

/-- Reads items with the separator between neighbours; there is at least one. -/
def separated (item : Parser α) (separator : Parser β) : Parser (List α) := do
  let first ← item
  let rest ← many (do
    let _ ← separator
    item)
  pure (first :: rest)

/-- The text that a parser consumes. -/
def slice (p : Parser α) : Parser String := fun c =>
  match p c with
  | some (_, c') => some (String.ofList (c.rest.take (c'.passed - c.passed)), c')
  | none => none

end Parser

/-- The rules of a grammar, named by `ρ`: a parser for each of them. -/
abbrev Rules (ρ α : Type) : Type := ρ → Parser α

/-- Rules in terms of each other, nested to at most the given depth. -/
def Rules.nested {ρ α : Type} (step : Rules ρ α → Rules ρ α) : Nat → Rules ρ α
  | 0 => fun _ => failure
  | depth + 1 => step (Rules.nested step depth)

end CallAtlas.Text
