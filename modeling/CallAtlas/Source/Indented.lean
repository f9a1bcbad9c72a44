import CallAtlas.Source.Node
import CallAtlas.Text.CharClass
import CallAtlas.Text.Parser

/-!
# Programs with indented blocks

The grammar of programs whose blocks are marked by indentation, as in Python.  A line ends a
statement unless a bracket is open.  Operators are not ordered by precedence, because only the
calls and definitions in an expression matter: an expression is a chain of operands.
-/

set_option autoImplicit false

namespace CallAtlas.Source.Indented

open Text Parser

/-- The rules of the grammar that refer to each other. -/
inductive Rule where
  /-- An expression; inside brackets it may go on over the end of a line. -/
  | expression (inBrackets : Bool)
  /-- A substitution in a formatted string. -/
  | substitution
  /-- What follows the colon of a statement that is indented by the given amount. -/
  | suite (indent : Nat)
  /-- A statement that is indented by the given amount. -/
  | statement (indent : Nat)

/-- The length of the blanks and comments that do not count; a newline counts outside of
brackets. -/
def spaceLength (inBrackets : Bool) : Bool → List Char → Nat
  | _, [] => 0
  | true, c :: cs =>
    if c == '\n' then (if inBrackets then 1 + spaceLength inBrackets false cs else 0)
    else 1 + spaceLength inBrackets true cs
  | false, '\\' :: '\n' :: cs => 2 + spaceLength inBrackets false cs
  | false, '\\' :: '\r' :: '\n' :: cs => 3 + spaceLength inBrackets false cs
  | false, c :: cs =>
    if c == '#' then 1 + spaceLength inBrackets true cs
    else if c == '\n' then (if inBrackets then 1 + spaceLength inBrackets false cs else 0)
    else if isBlank c || c.toNat == 0xFEFF then 1 + spaceLength inBrackets false cs
    else 0

/-- Skips blanks and comments. -/
def space (inBrackets : Bool) : Parser Unit := do
  skip (spaceLength inBrackets false (← peek))

/-- The width of the blank start of the first line that is not blank, and the number of
characters before its first token. -/
def lineStart (width passed : Nat) : Bool → List Char → Option (Nat × Nat)
  | _, [] => none
  | inComment, c :: cs =>
    if c == '\n' then lineStart 0 (passed + 1) false cs
    else if inComment then lineStart width (passed + 1) true cs
    else if c == '#' then lineStart width (passed + 1) true cs
    else if c == ' ' then lineStart (width + 1) (passed + 1) false cs
    else if c == '\t' then lineStart (width + 8) (passed + 1) false cs
    else if c == '\x0c' then lineStart 0 (passed + 1) false cs
    else if isBlank c || c.toNat == 0xFEFF then lineStart width (passed + 1) false cs
    else some (width, passed)

/-- The length of the word that the text begins with. -/
def wordLength : List Char → Nat
  | [] => 0
  | c :: cs => if isAlphabetic c || c == '_' then 1 + (cs.takeWhile isWord).length else 0

/-- The word that the text begins with. -/
def nextWord (cs : List Char) : String := String.ofList (cs.take (wordLength cs))

/-- Reads a word. -/
def word : Parser String := do
  let n := wordLength (← peek)
  require (n != 0)
  take n

/-- Reads the given word. -/
def keyword (w : String) : Parser Unit := do
  require ((← word) == w)

/-- Reads the given symbol. -/
def symbol (s : String) : Parser Unit := do
  require (← lookingAt s)
  skip s.length

/-- The words that cannot be used as a value. -/
def reserved : List String :=
  ["and", "as", "assert", "async", "await", "break", "class", "continue", "def", "del", "elif",
   "else", "except", "finally", "for", "from", "global", "if", "import", "in", "is", "lambda",
   "nonlocal", "not", "or", "pass", "raise", "return", "try", "while", "with", "yield"]

/-- Whether the character ends a logical line. -/
def endsLine : List Char → Bool
  | [] => true
  | c :: _ => c == '\n'

/-- Skips the rest of the line. -/
def skipLine : Parser Unit := do
  skip ((← peek).takeWhile (· != '\n')).length

variable (self : Rules Rule Node)

/-- One element between brackets: a separator or an expression.  A star before an argument of a
call spreads the whole of it. -/
def bracketItem (arguments : Bool) : Parser Node := do
  space true
  let rest ← peek
  match rest with
  | [] => failure
  | c :: _ =>
    if c == ',' || c == ':' || c == '=' || c == ';' then skip 1; return .blank
    else if c == ')' || c == ']' || c == '\x7d' then failure
    else if arguments && c == '*' && !"**".toList.isPrefixOf rest then skip 1; return .blank
    else self (.expression true) <|> (do
      require (c == '*' || c == '/' || c == '-')
      skip (if (← lookingAt "->") then 2 else 1)
      return .blank)

/-- Brackets and what is between them. -/
def bracketed (openMark closeMark : String) : Parser Node := do
  symbol openMark
  let items ← many (bracketItem self false)
  space true
  symbol closeMark
  return .group items

/-- The arguments of a call, in parentheses. -/
def callArguments : Parser Node := do
  symbol "("
  let items ← many (bracketItem self true)
  space true
  symbol ")"
  return .group items

/-- The number of prefix letters before the quote of a string, if the text begins with one. -/
def quotePrefix : Nat → List Char → Option Nat
  | _, [] => none
  | n, c :: cs =>
    if c == '"' || c.toNat == 39 then some n
    else if n < 3 && "rRbBuUfFtT".toList.contains c then quotePrefix (n + 1) cs
    else none

/-- One piece of a string between its quotes. -/
def stringPiece (quote : List Char) (formatted raw : Bool) : Parser Node := do
  let rest ← peek
  require (!quote.isPrefixOf rest)
  match rest with
  | [] => failure
  | '\\' :: 'N' :: '\x7b' :: cs =>
    if formatted && !raw then skip (4 + (cs.takeWhile (· != '\x7d')).length) else skip 2
    return .blank
  | '\\' :: '\x7b' :: _ => skip (if formatted then 1 else 2); return .blank
  | '\\' :: _ => skip 2; return .blank
  | c :: cs =>
    if formatted && c == '\x7b' then
      if cs.head? == some '\x7b' then skip 2; return .blank
      else self .substitution
    else if c == '\n' && quote.length == 1 then failure
    else skip 1; return .blank

/-- A string with its substitutions. -/
def stringLiteral : Parser Node := do
  let rest ← peek
  match quotePrefix 0 rest with
  | none => failure
  | some n =>
    let letters := rest.take n
    let formatted := letters.any fun c => c == 'f' || c == 'F' || c == 't' || c == 'T'
    let raw := letters.any fun c => c == 'r' || c == 'R'
    let quote := (rest.drop n).take 1
    let triple := quote ++ quote ++ quote
    let quote := if triple.isPrefixOf (rest.drop n) then triple else quote
    skip (n + quote.length)
    let pieces ← many (stringPiece self quote formatted raw)
    require (quote.isPrefixOf (← peek))
    skip quote.length
    return .group pieces

/-- One piece of the format after the colon of a substitution. -/
def formatPiece : Parser Node := do
  match ← peek with
  | [] => failure
  | c :: _ =>
    if c == '\x7d' then failure
    else if c == '\x7b' then self .substitution
    else skip 1; return .blank

/-- A substitution in a formatted string, with its braces. -/
def substitution : Parser Node := do
  symbol "\x7b"
  let items ← many (do
    space true
    match ← peek with
    | ',' :: _ => skip 1; return Node.blank
    | '=' :: _ => skip 1; return .blank
    | '!' :: c :: _ => require (c != '='); skip 2; return .blank
    | _ => self (.expression true))
  space true
  let format ← orGive (do symbol ":"; many (formatPiece self)) []
  symbol "\x7d"
  return .group (items ++ format)

/-- The length of a number that the text begins with; zero if there is none. -/
def numberLength (cs : List Char) : Nat :=
  let digits (cs : List Char) := (cs.takeWhile fun c => c.isDigit || c == '_').length
  let radix := match cs with
    | '0' :: c :: d :: _ => "xXoObB".toList.contains c && d.isAlphanum
    | _ => false
  if radix then (cs.takeWhile fun c => c.isAlphanum || c == '_').length
  else
    let whole := match cs with
      | c :: _ => if c.isDigit then digits cs else 0
      | [] => 0
    let afterWhole := cs.drop whole
    let fraction := match afterWhole with
      | '.' :: c :: _ =>
        if c.isDigit then 1 + digits (afterWhole.drop 1) else if whole != 0 && c != '.' then 1 else 0
      | ['.'] => if whole != 0 then 1 else 0
      | _ => 0
    if whole + fraction == 0 then 0
    else
      let afterFraction := afterWhole.drop fraction
      let exponent := match afterFraction with
        | e :: s :: d :: _ =>
          if e == 'e' || e == 'E' then
            if s.isDigit then 1 + digits (afterFraction.drop 1)
            else if (s == '+' || s == '-') && d.isDigit then 2 + digits (afterFraction.drop 2)
            else 0
          else 0
        | [e, s] => if (e == 'e' || e == 'E') && s.isDigit then 2 else 0
        | _ => 0
      let suffix := match afterFraction.drop exponent with
        | c :: _ => if "jJlL".toList.contains c then 1 else 0
        | [] => 0
      whole + fraction + exponent + suffix

/-- An operand before anything that is applied to it. -/
def primary : Parser Node := do
  let rest ← peek
  let row ← Parser.row
  match rest with
  | [] => failure
  | c :: _ =>
    if c == '(' then bracketed self "(" ")"
    else if c == '[' then bracketed self "[" "]"
    else if c == '\x7b' then bracketed self "\x7b" "\x7d"
    else if (quotePrefix 0 rest).isSome then stringLiteral self
    else if "...".toList.isPrefixOf rest then skip 3; return .blank
    else if numberLength rest != 0 then skip (numberLength rest); return .blank
    else
      let w ← word
      require (!reserved.contains w)
      if w == "None" || w == "True" || w == "False" then return .blank
      else return .mk .identifier none row w []

/-- What is applied to an operand. -/
inductive Suffix where
  /-- Arguments of a call. -/
  | arguments (nodes : Node)
  /-- A subscript, an attribute or a neighbouring string. -/
  | access (nodes : Node)

/-- Applies a suffix to an operand. -/
def Suffix.apply (row : Nat) (base : Node) : Suffix → Node
  | arguments nodes => .mk .call none row "" [base.inField .callee, nodes]
  | access nodes => .group [base, nodes]

/-- A suffix of an operand. -/
def suffix (inBrackets : Bool) : Parser Suffix := do
  space inBrackets
  match ← peek with
  | '(' :: _ => return .arguments (← callArguments self)
  | '[' :: _ => return .access (← bracketed self "[" "]")
  | '.' :: _ =>
    skip 1
    space inBrackets
    let _ ← word
    return .access .blank
  | rest =>
    require (quotePrefix 0 rest).isSome
    return .access (← stringLiteral self)

/-- The parameters of an anonymous function, up to the colon. -/
def lambdaParameters (inBrackets : Bool) : Parser Node := do
  let items ← many (do
    space inBrackets
    match ← peek with
    | [] => failure
    | c :: _ =>
      if c == ',' || c == '=' then skip 1; return Node.blank
      else if c == ':' then failure
      else self (.expression inBrackets) <|> (do
        require (c == '*' || c == '/')
        skip 1
        return .blank))
  space inBrackets
  symbol ":"
  return .group items

/-- An operator before an operand, and whether it is a single star. -/
def prefixMark (inBrackets : Bool) : Parser (Bool × Node) := do
  space inBrackets
  let rest ← peek
  match rest with
  | [] => failure
  | c :: _ =>
    if "**".toList.isPrefixOf rest then skip 2; return (false, .blank)
    else if "*+-~".toList.contains c then skip 1; return (c == '*', .blank)
    else
      match nextWord rest with
      | "not" | "await" => skip (wordLength rest); return (false, .blank)
      | "yield" =>
        skip 5
        space inBrackets
        if nextWord (← peek) == "from" then skip 4
        return (false, .blank)
      | "lambda" => skip 6; return (false, ← lambdaParameters self inBrackets)
      | _ => failure

/-- An operand with what stands before it and what is applied to it.  A star takes a plain
identifier for itself, so what is applied is then applied to the starred name. -/
def operand (inBrackets : Bool) : Parser Node := do
  let marks ← many (prefixMark self inBrackets)
  let starred := match marks.getLast? with
    | some mark => mark.1
    | none => false
  let value ← (do
    space inBrackets
    let row ← Parser.row
    let base ← primary self
    let base := if starred then Node.group [base] else base
    let suffixes ← many (suffix self inBrackets)
    return suffixes.foldl (Suffix.apply row) base) <|> (do
    require (!marks.isEmpty)
    return .blank)
  return .group (marks.map (·.2) ++ [value])

/-- The operators made of symbols, no operator before a longer one that begins with it. -/
def operators : List String :=
  ["**", "//", "<<", ">>", "<=", ">=", "<>", "==", "!=", ":=", "*", "/", "%", "@", "+", "-", "<",
   ">", "&", "|", "^"]

/-- An operator between two operands. -/
def infixMark (inBrackets : Bool) : Parser Unit := do
  space inBrackets
  let rest ← peek
  match nextWord rest with
  | "and" | "or" | "in" | "is" | "if" | "else" | "as" | "from" | "for" => skip (wordLength rest)
  | "not" =>
    skip 3
    space inBrackets
    keyword "in"
  | "async" =>
    skip 5
    space inBrackets
    keyword "for"
  | _ =>
    require (!"->".toList.isPrefixOf rest)
    match operators.find? fun op => op.toList.isPrefixOf rest with
    | none => failure
    | some op =>
      skip op.length
      if op != "==" && op != "!=" && op != ":=" && (← lookingAt "=") then skip 1

/-- A chain of operands. -/
def expression (inBrackets : Bool) : Parser Node := do
  let first ← operand self inBrackets
  let others ← many (do
    infixMark inBrackets
    operand self inBrackets)
  return .group (first :: others)

/-- One element of a simple statement: a separator or an expression. -/
def lineItem : Parser Node := do
  space false
  match ← peek with
  | [] => failure
  | c :: _ =>
    if c == ',' || c == '=' || c == ':' then skip 1; return .blank
    else if "->".toList.isPrefixOf (← peek) then skip 2; return .blank
    else self (.expression false)

/-- A simple statement. -/
def simpleStatement : Parser Node := do
  space false
  let rest ← peek
  match nextWord rest with
  | "import" | "from" =>
    let line := rest.takeWhile fun c => c != '\n' && c != ';' && c != '#'
    if line.contains '(' then
      skip ((rest.takeWhile (· != ')')).length + 1)
    else if line.contains '\\' then
      let _ ← many (do
        space false
        let cs ← peek
        require (!endsLine cs && cs.head? != some ';')
        skip 1
        return ())
    else skip line.length
    return .blank
  | "pass" | "break" | "continue" | "global" | "nonlocal" | "return" | "raise" | "assert" | "del" =>
    skip (wordLength rest)
    return .group (← many (lineItem self))
  | _ =>
    let first ← lineItem self
    return .group (first :: (← many (lineItem self)))

/-- Simple statements on one line, separated by semicolons; a line that cannot be read is left
out from there on. -/
def simpleStatements : Parser Node := do
  let first ← orGive (simpleStatement self) .blank
  let others ← many (do
    space false
    symbol ";"
    orGive (simpleStatement self) .blank)
  space false
  if !endsLine (← peek) then skipLine
  return .group (first :: others)

/-- The head of a compound statement after its keyword, up to the colon. -/
def header : Parser Node := do
  let items ← many (do
    space false
    match ← peek with
    | ',' :: _ => skip 1; return Node.blank
    | _ => self (.expression false))
  space false
  symbol ":"
  return .group items

/-- A compound statement with a head and a suite; the keyword has been read. -/
def compound (indent : Nat) : Parser Node := do
  let head ← header self
  return .group [head, ← self (.suite indent)]

/-- The parameters of a type, if there are any. -/
def typeParameters : Parser Node := do
  space false
  if (← lookingAt "[") then bracketed self "[" "]" else return .blank

/-- A function definition that begins in the given row; `def` comes next. -/
def functionDefinition (indent row : Nat) : Parser Node := do
  keyword "def"
  space false
  let nameRow ← Parser.row
  let name ← word
  let types ← typeParameters self
  space false
  let parameters ← bracketed self "(" ")"
  space false
  let result ← orGive (do symbol "->"; self (.expression false)) .blank
  space false
  symbol ":"
  let body ← self (.suite indent)
  return .mk .function none row ""
    [.mk .identifier (some .name) nameRow name [], types, parameters, result, body]

/-- A class definition; `class` comes next. -/
def classDefinition (indent : Nat) : Parser Node := do
  keyword "class"
  space false
  let row ← Parser.row
  let name ← word
  let types ← typeParameters self
  space false
  let bases ← if (← lookingAt "(") then callArguments self else pure Node.blank
  space false
  symbol ":"
  let body ← self (.suite indent)
  return .mk .classDef none row "" [.mk .identifier (some .name) row name [], types, bases, body]

/-- A definition, possibly of an asynchronous function. -/
def definition (indent : Nat) : Parser Node := do
  let row ← Parser.row
  match nextWord (← peek) with
  | "def" => functionDefinition self indent row
  | "class" => classDefinition self indent
  | "async" =>
    skip 5
    space false
    functionDefinition self indent row
  | _ => failure

/-- A definition with decorators before it. -/
def decoratedDefinition (indent : Nat) : Parser Node := do
  let decorators ← many (do
    symbol "@"
    let decorator ← self (.expression false)
    match lineStart 0 0 false (← peek) with
    | some (_, passed) => skip passed; return decorator
    | none => failure)
  return .mk .decorated none (← Parser.row) "" (decorators ++ [← definition self indent])

/-- The pattern of a case, up to its guard or its colon. -/
def casePattern : Nat → Nat → List Char → Nat
  | _, passed, [] => passed
  | depth, passed, c :: cs =>
    if c == '(' || c == '[' || c == '\x7b' then casePattern (depth + 1) (passed + 1) cs
    else if c == ')' || c == ']' || c == '\x7d' then casePattern (depth - 1) (passed + 1) cs
    else if c == '\n' && depth == 0 then passed
    else if c == ':' && depth == 0 then passed
    else if depth == 0 && c == ' ' && "if ".toList.isPrefixOf cs then passed + 1
    else casePattern depth (passed + 1) cs

/-- Blanks out the strings of a text, so that marks inside of them do not count. -/
def maskStrings : Option Char → List Char → List Char
  | _, [] => []
  | none, c :: cs =>
    if c == '"' || c.toNat == 39 then '_' :: maskStrings (some c) cs else c :: maskStrings none cs
  | some q, '\\' :: _ :: cs => '_' :: '_' :: maskStrings (some q) cs
  | some q, c :: cs => '_' :: maskStrings (if c == q then none else some q) cs

/-- A case of a match statement. -/
def caseClause (indent : Nat) : Parser Node := do
  keyword "case"
  space false
  let n := casePattern 0 0 (maskStrings none (← peek))
  require (n != 0)
  skip n
  let guard ← orGive (do keyword "if"; self (.expression false)) .blank
  space false
  symbol ":"
  return .group [guard, ← self (.suite indent)]

/-- A match statement. -/
def matchStatement (indent : Nat) : Parser Node := do
  keyword "match"
  let subject ← self (.expression false)
  let others ← header self
  space false
  require (endsLine (← peek))
  match lineStart 0 0 false (← peek) with
  | some (_, passed) => require (nextWord ((← peek).drop passed) == "case")
  | none => failure
  return .group [subject, others, ← self (.suite indent)]

/-- A statement that begins here and is indented by the given amount. -/
def statement (indent : Nat) : Parser Node := do
  let rest ← peek
  let w := nextWord rest
  let simple := simpleStatements self
  match w with
  | "if" | "elif" | "while" | "for" | "with" | "try" | "except" | "finally" | "else" =>
    (do skip (wordLength rest); compound self indent) <|> simple
  | "def" | "class" => definition self indent <|> simple
  | "async" =>
    definition self indent <|> (do
      skip 5
      space false
      let _ ← word
      compound self indent) <|> simple
  | "match" => matchStatement self indent <|> simple
  | "case" => caseClause self indent <|> simple
  | _ => if rest.head? == some '@' then decoratedDefinition self indent <|> simple else simple

/-- The statements on the lines that are indented by the given amount. -/
def statementsAt (indent : Nat) : Parser (List Node) :=
  many (do
    match lineStart 0 0 false (← peek) with
    | none => failure
    | some (width, passed) =>
      require (width == indent)
      skip passed
      self (.statement indent))

/-- What follows the colon of a statement: simple statements, or deeper lines. -/
def suite (indent : Nat) : Parser Node := do
  space false
  let row ← Parser.row
  if endsLine (← peek) then
    match lineStart 0 0 false (← peek) with
    | none => return .mk .block none row "" []
    | some (width, _) =>
      if width ≤ indent then return .mk .block none row "" []
      else return .mk .block none row "" (← statementsAt self width)
  else return .mk .block none row "" [← simpleStatements self]

/-- Every rule in terms of all of them. -/
def rules : Rules Rule Node → Rules Rule Node := fun self rule =>
  match rule with
  | .expression inBrackets => expression self inBrackets
  | .substitution => substitution self
  | .suite indent => suite self indent
  | .statement indent => statement self indent

/-- The tree of a program. -/
def parse (text : List Char) : Node :=
  let self := Rules.nested rules (8 * text.length + 16)
  let lines : Parser (List Node) := many (do
    match lineStart 0 0 false (← peek) with
    | none => failure
    | some (width, passed) =>
      skip passed
      self (.statement width))
  match lines (.start text) with
  | some (nodes, _) => .mk .module none 0 "" nodes
  | none => .mk .module none 0 "" []

end CallAtlas.Source.Indented
