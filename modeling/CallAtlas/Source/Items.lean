import CallAtlas.Source.Node
import CallAtlas.Text.CharClass
import CallAtlas.Text.Parser

/-!
# Programs made of items

The grammar of programs that are sequences of items, as in Rust: functions, types, traits,
implementations and modules.  Arguments of macros and attributes are token trees, which hold no
calls.  Patterns are read as runs of tokens, and an expression is a chain of operands.
-/

set_option autoImplicit false

namespace CallAtlas.Source.Items

open Text Parser

/-- The rules of the grammar that refer to each other. -/
inductive Rule where
  /-- An expression; the flag says that a brace after a path does not belong to it. -/
  | expression (noBraces : Bool)
  /-- A type. -/
  | type
  /-- Statements in braces. -/
  | block
  /-- An expression that ends in braces. -/
  | braced
  /-- A statement or item. -/
  | statement

/-- The length of blanks and comments, where block comments nest. -/
def spaceLength : Nat → Bool → List Char → Nat
  | _, _, [] => 0
  | depth + 1, _, '*' :: '/' :: cs => 2 + spaceLength depth false cs
  | depth, false, '/' :: '*' :: cs => 2 + spaceLength (depth + 1) false cs
  | depth + 1, _, _ :: cs => 1 + spaceLength (depth + 1) false cs
  | 0, true, c :: cs => 1 + spaceLength 0 (c != '\n') cs
  | 0, false, '/' :: '/' :: cs => 2 + spaceLength 0 true cs
  | 0, false, c :: cs =>
    if isBlank c || c.toNat == 0xFEFF then 1 + spaceLength 0 false cs else 0

/-- Skips blanks and comments. -/
def space : Parser Unit := do
  skip (spaceLength 0 false (← peek))

/-- The length of the word that the text begins with, without a raw mark. -/
def plainWordLength : List Char → Nat
  | [] => 0
  | c :: cs => if isAlphabetic c || c == '_' then 1 + (cs.takeWhile isWord).length else 0

/-- The length of the word that the text begins with. -/
def wordLength (cs : List Char) : Nat :=
  match cs with
  | 'r' :: '#' :: rest =>
    if plainWordLength rest != 0 then 2 + plainWordLength rest else plainWordLength cs
  | _ => plainWordLength cs

/-- The word that the text begins with. -/
def nextWord (cs : List Char) : String := String.ofList (cs.take (wordLength cs))

/-- Reads a word after blanks. -/
def word : Parser String := do
  space
  let n := wordLength (← peek)
  require (n != 0)
  take n

/-- Reads the given word. -/
def keyword (w : String) : Parser Unit := do
  require ((← word) == w)

/-- Reads the given symbol after blanks. -/
def symbol (s : String) : Parser Unit := do
  space
  require (← lookingAt s)
  skip s.length

/-- The length of a text in quotes, from after the opening quote to after the closing one. -/
def quotedLength (quote : Char) : List Char → Nat
  | [] => 0
  | '\\' :: _ :: cs => 2 + quotedLength quote cs
  | c :: cs => if c == quote then 1 else 1 + quotedLength quote cs

/-- The length of a raw text, from after the opening quote to after the closing mark. -/
def rawLength (closing : List Char) : List Char → Nat
  | [] => 0
  | c :: cs => if closing.isPrefixOf (c :: cs) then closing.length else 1 + rawLength closing cs

/-- The length of a string literal that begins with the given number of prefix letters. -/
def stringLength (letters : Nat) (cs : List Char) : Nat :=
  let rest := cs.drop letters
  let hashes := (rest.takeWhile (· == '#')).length
  let raw := (cs.take letters).contains 'r'
  match rest.drop hashes with
  | '"' :: body =>
    if raw then letters + hashes + 1 + rawLength ('"' :: List.replicate hashes '#') body
    else if hashes == 0 then letters + 1 + quotedLength '"' body
    else 0
  | _ => 0

/-- The length of a lifetime or label. -/
def lifetimeLength : List Char → Nat
  | c :: cs =>
    if c.toNat == 39 && plainWordLength cs != 0 then 1 + plainWordLength cs else 0
  | [] => 0

/-- The length of a character literal. -/
def charLength : List Char → Nat
  | q :: c :: d :: cs =>
    if q.toNat != 39 then 0
    else if c == '\\' then 1 + quotedLength q (c :: d :: cs)
    else if d == q then 3
    else 0
  | _ => 0

/-- The length of a number. -/
def numberLength (cs : List Char) : Nat :=
  match cs with
  | [] => 0
  | c :: _ =>
    if !c.isDigit then 0
    else
      let digits (cs : List Char) := (cs.takeWhile fun c => c.isAlphanum || c == '_').length
      let exponent (taken : List Char) (rest : List Char) :=
        match taken.getLast?, rest with
        | some e, s :: d :: _ =>
          if (e == 'e' || e == 'E') && (s == '+' || s == '-') && d.isDigit then
            1 + digits (rest.drop 1)
          else 0
        | _, _ => 0
      let whole := digits cs
      let rest := cs.drop whole
      let radix := match cs with
        | '0' :: x :: _ => x == 'x' || x == 'o' || x == 'b'
        | _ => false
      if radix then whole
      else
        match rest with
        | '.' :: d :: _ =>
          if d.isDigit then
            let fraction := 1 + digits (rest.drop 1)
            whole + fraction + exponent (rest.take fraction) (rest.drop fraction)
          else if d == '.' || d == '_' || isAlphabetic d then whole
          else whole + 1
        | ['.'] => whole + 1
        | _ => whole + exponent (cs.take whole) rest

/-- The length of a literal; zero if the text does not begin with one. -/
def literalLength (cs : List Char) : Nat :=
  match cs with
  | [] => 0
  | c :: _ =>
    if c == '"' then stringLength 0 cs
    else if c == 'r' then stringLength 1 cs
    else if c == 'b' || c == 'c' then
      match stringLength 1 cs, stringLength 2 cs with
      | 0, 0 => if c == 'b' && charLength (cs.drop 1) != 0 then 1 + charLength (cs.drop 1) else 0
      | 0, n => if (cs.drop 1).head? == some 'r' then n else 0
      | n, _ => n
    else if c.toNat == 39 then charLength cs
    else numberLength cs

/-- Skips one token. -/
def token : Parser Unit := do
  let rest ← peek
  require (!rest.isEmpty)
  let literal := literalLength rest
  let lifetime := lifetimeLength rest
  let w := wordLength rest
  skip (if literal != 0 then literal else if lifetime != 0 then lifetime else if w != 0 then w else 1)

/-- Skips tokens until the given number of open brackets are closed. -/
def closeBrackets : Nat → Nat → Parser Unit
  | _, 0 => pure ()
  | 0, _ + 1 => failure
  | fuel + 1, depth + 1 => do
    space
    match ← peek with
    | [] => failure
    | c :: _ =>
      if c == '(' || c == '[' || c == '\x7b' then skip 1; closeBrackets fuel (depth + 2)
      else if c == ')' || c == ']' || c == '\x7d' then skip 1; closeBrackets fuel depth
      else token; closeBrackets fuel (depth + 1)

/-- Whether the character opens a bracket. -/
def opensBracket (c : Char) : Bool := c == '(' || c == '[' || c == '\x7b'

/-- Skips a bracketed token tree. -/
def tokenTree : Parser Unit := do
  space
  match ← peek with
  | c :: rest =>
    require (opensBracket c)
    skip 1
    closeBrackets rest.length 1
  | [] => failure

/-- Skips attributes. -/
def attributes : Parser Unit := do
  let _ ← many (do
    symbol "#"
    let _ ← orGive (symbol "!") ()
    require ((← peek).head? == some '[')
    tokenTree)

/-- Skips a lifetime. -/
def lifetime : Parser Unit := do
  space
  let rest ← peek
  require (charLength rest == 0 && lifetimeLength rest != 0)
  skip (lifetimeLength rest)

/-- Skips the tokens of a pattern up to a place where it stops. -/
def pattern (stops : List Char → Bool) : Parser Unit := do
  let _ ← many (do
    space
    let rest ← peek
    require (!stops rest)
    match rest with
    | [] => failure
    | c :: _ =>
      if opensBracket c then tokenTree
      else if c == ')' || c == ']' || c == '\x7d' then failure
      else if "::".toList.isPrefixOf rest then skip 2
      else if "..=".toList.isPrefixOf rest then skip 3
      else token)

/-- Skips the head of an item up to its braces or its semicolon. -/
def itemHead : Nat → Nat → Parser Unit
  | 0, _ => failure
  | fuel + 1, angles => do
    space
    let rest ← peek
    match rest with
    | [] => failure
    | c :: _ =>
      if c == ';' || c == '\x7b' && angles == 0 then pure ()
      else if "->".toList.isPrefixOf rest || "=>".toList.isPrefixOf rest then
        skip 2
        itemHead fuel angles
      else if opensBracket c then tokenTree; itemHead fuel angles
      else if c == ')' || c == ']' || c == '\x7d' then failure
      else if c == '<' then skip 1; itemHead fuel (angles + 1)
      else if c == '>' then skip 1; itemHead fuel (angles - 1)
      else token; itemHead fuel angles

/-- Skips the head of an item. -/
def head : Parser Unit := do
  itemHead ((← peek).length + 1) 0

/-- The words that are no identifiers. -/
def reserved : List String :=
  ["as", "async", "await", "break", "const", "continue", "crate", "dyn", "else", "enum", "extern",
   "false", "fn", "for", "if", "impl", "in", "let", "loop", "match", "mod", "move", "mut", "pub",
   "ref", "return", "self", "static", "struct", "super", "trait", "true", "type", "unsafe", "use",
   "where", "while"]

/-- The reserved words that may still begin a path. -/
def pathWords : List String := ["self", "super", "crate"]

variable (self : Rules Rule Node)

/-- Elements with commas after them, up to a closing mark. -/
def listUntil (item : Parser Node) (closeMark : String) : Parser Node := do
  let items ← many (do
    space
    require (!(← lookingAt closeMark))
    (do symbol ","; return Node.blank) <|> (do symbol ";"; return .blank) <|> item)
  symbol closeMark
  return .group items

/-- One of the arguments of a type or path. -/
def genericArgument : Parser Node := do
  space
  let rest ← peek
  if rest.head? == some '\x7b' then self .block
  else if rest.head? == some '-' then skip 1; token; return .blank
  else if lifetimeLength rest != 0 && charLength rest == 0 then lifetime; return .blank
  else if literalLength rest != 0 then skip (literalLength rest); return .blank
  else
    let first ← self .type
    let bound ← orGive (do
      space
      require (!(← lookingAt "=="))
      symbol "="
      (self .type <|> (do token; return Node.blank))) .blank
    let bounds ← orGive (do symbol ":"; self .type) .blank
    return .group [first, bound, bounds]

/-- Arguments of a type or path in angle brackets. -/
def genericArguments : Parser Node := do
  symbol "<"
  listUntil (genericArgument self) ">"

/-- The result type of a function, if one is given. -/
def resultType : Parser Node :=
  orGive (do symbol "->"; self .type) .blank

/-- The segments of a type's path after its first word. -/
def typeSegments : Parser Node := do
  let parts ← many (
    (do
      space
      require !(← lookingAt "<=")
      genericArguments self) <|>
    (do
      symbol "("
      let inputs ← listUntil (self .type) ")"
      return Node.group [inputs, ← resultType self]) <|>
    (do
      symbol "::"
      orGive (genericArguments self) .blank) <|>
    (do
      let n := wordLength (← peek)
      require (n != 0 && !reserved.contains (nextWord (← peek)))
      skip n
      return .blank))
  return .group parts

/-- Bounds after the first one, each after a plus sign. -/
def moreBounds : Parser Node := do
  let bounds ← many (do
    symbol "+"
    (do lifetime; return Node.blank) <|> self .type)
  return .group bounds

/-- A type. -/
def typeExpression : Parser Node := do
  space
  let rest ← peek
  match rest with
  | [] => failure
  | c :: _ =>
    if c == '(' then
      skip 1
      let inner ← listUntil (do return Node.group [← self .type, ← moreBounds self]) ")"
      return inner
    else if c == '[' then
      skip 1
      let element ← self .type
      let length ← orGive (do symbol ";"; self (.expression false)) .blank
      symbol "]"
      return .group [element, length]
    else if c == '&' then
      skip 1
      let _ ← orGive lifetime ()
      let _ ← orGive (keyword "mut") ()
      self .type
    else if c == '*' then
      skip 1
      let _ ← word
      self .type
    else if c == '!' then skip 1; return .blank
    else if c == '?' then skip 1; self .type
    else if c == '~' then
      skip 1
      let _ ← word
      self .type
    else if c == '<' then
      skip 1
      let first ← self .type
      let asType ← orGive (do keyword "as"; self .type) .blank
      symbol ">"
      return .group [first, asType, ← typeSegments self]
    else if lifetimeLength rest != 0 then
      lifetime
      moreBounds self
    else if "::".toList.isPrefixOf rest then
      skip 2
      let _ ← word
      typeSegments self
    else
      let w ← word
      match w with
      | "impl" | "dyn" => return .group [← self .type, ← moreBounds self]
      | "for" =>
        let binders ← genericArguments self
        return .group [binders, ← self .type]
      | "unsafe" | "const" | "async" => self .type
      | "extern" =>
        space
        skip (literalLength (← peek))
        self .type
      | "fn" =>
        symbol "("
        let inputs ← listUntil (do
          attributes
          (do
            let _ ← word
            space
            require !(← lookingAt "::")
            symbol ":"
            self .type) <|> self .type <|> (do symbol "..."; return .blank)) ")"
        return .group [inputs, ← resultType self]
      | _ =>
        require (!reserved.contains w || pathWords.contains w)
        (do
          space
          require !(← lookingAt "!=")
          symbol "!"
          tokenTree
          return Node.blank) <|> typeSegments self

/-- One of the elements between parentheses or brackets. -/
def element : Parser Node := do
  attributes
  self (.expression false)

/-- The body of a structure value. -/
def structureBody : Parser Node := do
  symbol "\x7b"
  listUntil (do
    attributes
    (do symbol ".."; orGive (self (.expression false)) Node.blank) <|> (do
      let n := Nat.max (wordLength (← peek)) (numberLength (← peek))
      require (n != 0)
      skip n
      orGive (do
        space
        require !(← lookingAt "::")
        symbol ":"
        self (.expression false)) .blank)) "\x7d"

/-- Whether braces after a path hold the fields of a structure value. -/
def looksLikeFields : Parser Bool := fits do
  symbol "\x7b"
  attributes
  symbol "\x7d" <|> symbol ".." <|> (do
    space
    let n := Nat.max (wordLength (← peek)) (numberLength (← peek))
    require (n != 0)
    skip n
    space
    match ← peek with
    | ':' :: c :: _ => require (c != ':')
    | c :: _ => require (c == ',' || c == '\x7d')
    | [] => failure)

/-- A path used as a value, with the macro or structure that it may begin. -/
def pathExpression (noBraces : Bool) : Parser Node := do
  let row ← Parser.row
  let absolute ← orGive (do symbol "::"; return true) false
  let w ← word
  require (!reserved.contains w || pathWords.contains w)
  let segments ← many (do
    symbol "::"
    genericArguments self <|> (do let _ ← word; return Node.blank))
  let macroArguments ← fits do
    space
    require !(← lookingAt "!=")
    symbol "!"
    tokenTree
  if macroArguments then
    symbol "!"
    tokenTree
    return .blank
  else if !noBraces && (← looksLikeFields) then
    return .group [.group segments, ← structureBody self]
  else if absolute || !segments.isEmpty || pathWords.contains w then return .group segments
  else return .mk .identifier none row w []

/-- The parameters of a closure. -/
def closureParameters : Parser Node := do
  (do symbol "||"; return Node.blank) <|> (do
    symbol "|"
    listUntil (do
      attributes
      let before := (← peek).length
      pattern fun rest =>
        match rest with
        | ':' :: ':' :: _ => false
        | c :: _ => c == ':' || c == ',' || c == '|'
        | [] => true
      require ((← peek).length < before)
      orGive (do symbol ":"; self .type) .blank) "|")

/-- A closure after the words before it. -/
def closure (noBraces : Bool) : Parser Node := do
  let parameters ← closureParameters self
  let result ← resultType self
  return .group [parameters, result, ← self (.expression noBraces)]

/-- The branches of an `if` after the keyword. -/
def conditional : Parser Node := do
  let condition ← self (.expression true)
  let body ← self .block
  let others ← orGive (do
    keyword "else"
    space
    if (← lookingAt "\x7b") then self .block else self (.expression false)) .blank
  return .group [condition, body, others]

/-- The forms of expressions that end in braces. -/
def blockWords : List String :=
  ["if", "match", "while", "loop", "for", "unsafe", "async", "const", "try", "gen"]

/-- The arms of a match after its subject. -/
def matchArms : Parser Node := do
  symbol "\x7b"
  let arms ← many (do
    attributes
    space
    require !(← lookingAt "\x7d")
    pattern fun rest => "=>".toList.isPrefixOf rest || nextWord rest == "if"
    let guard ← orGive (do keyword "if"; self (.expression false)) Node.blank
    symbol "=>"
    let body ← (do
      let body ← self .braced
      space
      match ← peek with
      | c :: _ => require (c != '.' && c != '?')
      | [] => pure ()
      return body) <|> self (.expression false)
    let _ ← orGive (symbol ",") ()
    return Node.group [guard, body])
  symbol "\x7d"
  return .group arms

/-- An expression that ends in braces. -/
def bracedExpression : Parser Node := do
  let _ ← orGive (do lifetime; symbol ":") ()
  space
  if (← lookingAt "\x7b") then self .block
  else
    match ← word with
    | "if" => conditional self
    | "match" =>
      let subject ← self (.expression true)
      return .group [subject, ← matchArms self]
    | "while" =>
      let condition ← self (.expression true)
      return .group [condition, ← self .block]
    | "loop" | "try" | "unsafe" | "const" => self .block
    | "async" | "gen" =>
      let _ ← orGive (keyword "move") ()
      self .block
    | "for" =>
      pattern fun rest => nextWord rest == "in"
      keyword "in"
      let iterated ← self (.expression true)
      return .group [iterated, ← self .block]
    | _ => failure

/-- An operand before anything that is applied to it. -/
def primary (noBraces : Bool) : Parser Node := do
  space
  let rest ← peek
  match rest with
  | [] => failure
  | c :: _ =>
    if c == '(' then skip 1; listUntil (element self) ")"
    else if c == '[' then skip 1; listUntil (element self) "]"
    else if c == '|' then closure self noBraces
    else if c == '<' then
      skip 1
      let first ← self .type
      let asType ← orGive (do keyword "as"; self .type) .blank
      symbol ">"
      let segments ← many (do
        symbol "::"
        genericArguments self <|> (do let _ ← word; return Node.blank))
      return .group [first, asType, .group segments]
    else if literalLength rest != 0 then skip (literalLength rest); return .blank
    else if c == '\x7b' || lifetimeLength rest != 0 then self .braced
    else
      let w := nextWord rest
      match w with
      | "true" | "false" => skip w.length; return .blank
      | "move" | "static" =>
        let _ ← word
        let _ ← orGive (keyword "move") ()
        closure self noBraces
      | "async" =>
        self .braced <|> (do
          let _ ← word
          let _ ← orGive (keyword "move") ()
          closure self noBraces)
      | "const" =>
        self .braced <|> (do
          let _ ← word
          closure self noBraces)
      | _ =>
        if blockWords.contains w then self .braced <|> pathExpression self noBraces
        else pathExpression self noBraces

/-- What is applied to an operand. -/
inductive Suffix where
  /-- Arguments of a call. -/
  | arguments (nodes : Node)
  /-- An index, a field or a question mark. -/
  | access (nodes : Node)

/-- Applies a suffix to an operand. -/
def Suffix.apply (base : Node) : Suffix → Node
  | arguments nodes => .mk .call none base.row "" [base.inField .callee, nodes]
  | access nodes => .group [base, nodes]

/-- A suffix of an operand. -/
def suffix : Parser Suffix := do
  space
  match ← peek with
  | '(' :: _ => skip 1; return .arguments (← listUntil (element self) ")")
  | '[' :: _ => skip 1; return .access (← listUntil (element self) "]")
  | '?' :: _ => skip 1; return .access .blank
  | '.' :: c :: _ =>
    require (c != '.')
    skip 1
    space
    let rest ← peek
    let digits := (rest.takeWhile Char.isDigit).length
    if digits != 0 then skip digits; return .access .blank
    else
      let _ ← word
      let types ← orGive (do symbol "::"; genericArguments self) .blank
      return .access types
  | _ => failure

/-- An operator, or a word that acts like one, before an operand; the flag says whether the
operand may be missing. -/
def prefixMark : Parser (Bool × Node) := do
  attributes
  space
  let rest ← peek
  match rest with
  | [] => failure
  | c :: _ =>
    if "..=".toList.isPrefixOf rest then skip 3; return (true, .blank)
    else if "..".toList.isPrefixOf rest then skip 2; return (true, .blank)
    else if c == '-' || c == '*' || c == '!' then skip 1; return (false, .blank)
    else if c == '&' then
      skip 1
      let _ ← orGive (do
        keyword "raw"
        let w ← word
        require (w == "const" || w == "mut")) ()
      let _ ← orGive (keyword "mut") ()
      return (false, .blank)
    else
      match nextWord rest with
      | "return" | "yield" => let _ ← word; return (true, .blank)
      | "break" | "continue" =>
        let _ ← word
        let _ ← orGive (do
          lifetime
          space
          require !(← lookingAt ":")) ()
        return (true, .blank)
      | "let" =>
        let _ ← word
        pattern fun rest => rest.head? == some '='
        symbol "="
        return (false, .blank)
      | _ => failure

/-- An operand with what stands before it and what is applied to it. -/
def operand (noBraces : Bool) : Parser Node := do
  let marks ← many (prefixMark)
  let mayMiss := match marks.getLast? with
    | some mark => mark.1
    | none => false
  space
  if mayMiss && noBraces && (← lookingAt "\x7b") then return .blank
  else
    let value ← (do
      let base ← primary self noBraces
      let suffixes ← many (suffix self)
      return suffixes.foldl Suffix.apply base) <|> (do
      require mayMiss
      return .blank)
    return .group (marks.map (·.2) ++ [value])

/-- The operators between operands, no operator before a longer one that begins with it. -/
def operators : List String :=
  ["<<=", ">>=", "&&", "||", "==", "!=", "<=", ">=", "+=", "-=", "*=", "/=", "%=", "^=", "&=",
   "|=", "<<", ">>", "+", "-", "*", "/", "%", "^", "&", "|", "<", ">", "="]

/-- What may follow an operand: an operator and an operand, a range, or a cast. -/
def continuation (noBraces : Bool) : Parser Node := do
  space
  let rest ← peek
  if nextWord rest == "as" then
    let _ ← word
    self .type
  else if "..".toList.isPrefixOf rest then
    skip (if "..=".toList.isPrefixOf rest then 3 else 2)
    space
    if noBraces && (← lookingAt "\x7b") then return .blank
    else orGive (operand self noBraces) .blank
  else
    require (!"=>".toList.isPrefixOf rest)
    match operators.find? fun op => op.toList.isPrefixOf rest with
    | none => failure
    | some op =>
      skip op.length
      operand self noBraces

/-- A chain of operands. -/
def expression (noBraces : Bool) : Parser Node := do
  let first ← operand self noBraces
  let others ← many (continuation self noBraces)
  return .group (first :: others)

/-- Statements up to a closing brace; a token that begins no statement is left out. -/
def statements : Parser (List Node) :=
  many (do
    space
    let rest ← peek
    require (!rest.isEmpty && rest.head? != some '\x7d')
    self .statement <|> (do token; return .blank))

/-- Statements in braces. -/
def block : Parser Node := do
  symbol "\x7b"
  let row ← Parser.row
  let nodes ← statements self
  symbol "\x7d"
  return .mk .block none row "" nodes

/-- The items of a module, trait or implementation, in braces. -/
def members : Parser Node := do
  symbol "\x7b"
  let row ← Parser.row
  let nodes ← statements self
  symbol "\x7d"
  return .mk .members none row "" nodes

/-- Skips a visibility mark. -/
def visibility : Parser Unit := do
  let w ← word
  require (w == "pub" || w == "crate")
  space
  require !(← lookingAt "::")
  if w == "pub" && (← lookingAt "(") then
    orGive (do
      let inside := (← peek).drop 1
      let inside := inside.drop (spaceLength 0 false inside)
      require (["crate", "self", "super", "in"].contains (nextWord inside))
      tokenTree) ()

/-- One of the parameters of a function. -/
def parameter : Parser Node := do
  attributes
  let before := (← peek).length
  pattern fun rest =>
    match rest with
    | ':' :: ':' :: _ => false
    | c :: _ => c == ':' || c == ','
    | [] => true
  require ((← peek).length < before)
  orGive (do symbol ":"; self .type <|> (do symbol "..."; return .blank)) .blank

/-- A function, with or without a body, that begins in the given row. -/
def functionItem (row : Nat) : Parser Node := do
  let _ ← many (do
    let w ← word
    require (["const", "async", "unsafe", "extern", "default", "safe", "gen"].contains w)
    if w == "extern" then
      space
      skip (stringLength 0 (← peek)))
  keyword "fn"
  space
  let nameRow ← Parser.row
  let name ← word
  orGive (do
    space
    require (← lookingAt "<")
    let _ ← many (do
      require (← lookingAt "<")
      angleBrackets ((← peek).length + 1) 0)
    pure ()) ()
  symbol "("
  let parameters ← listUntil (parameter self) ")"
  let result ← resultType self
  head
  (do symbol ";"; return Node.group [parameters, result]) <|> (do
    let body ← self .block
    return .mk .function none row ""
      [.mk .identifier (some .name) nameRow name [], parameters, result, body])
where
  /-- Skips type parameters in angle brackets. -/
  angleBrackets : Nat → Nat → Parser Unit
    | 0, _ => failure
    | fuel + 1, depth => do
      space
      let rest ← peek
      match rest with
      | [] => failure
      | c :: _ =>
        if "->".toList.isPrefixOf rest then skip 2; angleBrackets fuel depth
        else if c == '<' then skip 1; angleBrackets fuel (depth + 1)
        else if c == '>' then
          skip 1
          if depth ≤ 1 then pure () else angleBrackets fuel (depth - 1)
        else if opensBracket c then tokenTree; angleBrackets fuel depth
        else token; angleBrackets fuel depth

/-- A constant or static variable; its keyword comes next. -/
def constantItem : Parser Node := do
  let w ← word
  require (w == "const" || w == "static")
  let _ ← orGive (keyword "mut") ()
  let name ← word
  require (name != "fn" && name != "move")
  symbol ":"
  let type ← self .type
  let value ← orGive (do symbol "="; self (.expression false)) .blank
  symbol ";"
  return .group [type, value]

/-- The variants of an enumeration. -/
def variants : Parser Node := do
  symbol "\x7b"
  listUntil (do
    attributes
    orGive visibility ()
    let _ ← word
    orGive tokenTree ()
    orGive (do symbol "="; self (.expression false)) .blank) "\x7d"

/-- Skips everything up to a semicolon, with brackets. -/
def restOfItem : Parser Unit := do
  pattern fun rest => rest.head? == some ';'
  symbol ";"

/-- An item other than a function or constant. -/
def otherItem : Parser Node := do
  let row ← Parser.row
  let _ ← many (do
    let w ← word
    require (["unsafe", "default", "auto"].contains w)
    let next := (← peek).drop (spaceLength 0 false (← peek))
    require (["trait", "impl", "extern", "auto", "mod"].contains (nextWord next)))
  match ← word with
  | "struct" | "union" =>
    let _ ← word
    head
    (do symbol ";"; return .blank) <|> (do tokenTree; return .blank)
  | "enum" =>
    let _ ← word
    head
    variants self
  | "trait" =>
    let _ ← word
    head
    (do symbol ";"; return .blank) <|> (do
      return .mk .interface none row "" [← members self])
  | "impl" =>
    head
    return .mk .implementation none row "" [← members self]
  | "mod" =>
    let _ ← word
    (do symbol ";"; return .blank) <|> members self
  | "extern" =>
    (do keyword "crate"; restOfItem; return .blank) <|> (do
      space
      skip (stringLength 0 (← peek))
      members self)
  | "use" => restOfItem; return .blank
  | "type" =>
    let _ ← word
    restOfItem
    return .blank
  | "macro_rules" =>
    symbol "!"
    let _ ← word
    tokenTree
    let _ ← orGive (symbol ";") ()
    return .blank
  | _ => failure

/-- An item. -/
def item : Parser Node := do
  let row ← Parser.row
  orGive visibility ()
  functionItem self row <|> constantItem self <|> otherItem self

/-- A binding of variables. -/
def letStatement : Parser Node := do
  keyword "let"
  pattern fun rest =>
    match rest with
    | ':' :: ':' :: _ => false
    | c :: _ => c == ':' || c == '=' || c == ';'
    | [] => true
  let type ← orGive (do symbol ":"; self .type) .blank
  let value ← orGive (do symbol "="; self (.expression false)) .blank
  let otherwise ← orGive (do keyword "else"; self .block) .blank
  let _ ← orGive (symbol ";") ()
  return .group [type, value, otherwise]

/-- An expression used as a statement.  One that ends in braces ends the statement unless it is
used further. -/
def expressionStatement : Parser Node :=
  (do
    let value ← self .braced
    space
    match ← peek with
    | c :: _ => require (c != '.' && c != '?')
    | [] => pure ()
    let _ ← orGive (symbol ";") ()
    return value) <|> (do
    let value ← self (.expression false)
    let _ ← orGive (symbol ";") ()
    return value)

/-- A statement or item. -/
def statement : Parser Node := do
  attributes
  space
  (do symbol ";"; return .blank) <|> letStatement self <|> item self <|> expressionStatement self

/-- Every rule in terms of all of them. -/
def rules : Rules Rule Node → Rules Rule Node := fun self rule =>
  match rule with
  | .expression noBraces => expression self noBraces
  | .type => typeExpression self
  | .block => block self
  | .braced => bracedExpression self
  | .statement => statement self

/-- The tree of a program. -/
def parse (text : List Char) : Node :=
  let self := Rules.nested rules (8 * text.length + 16)
  let firstLine :=
    if "#!".toList.isPrefixOf text && !"#![".toList.isPrefixOf text then
      (text.takeWhile (· != '\n')).length
    else 0
  let all : Parser (List Node) := do
    skip firstLine
    let pieces ← many (do
      let nodes ← statements self
      space
      let _ ← orGive (symbol "\x7d") ()
      return nodes)
    return pieces.flatten
  match all (.start text) with
  | some (nodes, _) => .mk .module none 0 "" nodes
  | none => .mk .module none 0 "" []

end CallAtlas.Source.Items
