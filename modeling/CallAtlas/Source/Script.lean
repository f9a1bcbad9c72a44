import CallAtlas.Source.Node
import CallAtlas.Text.CharClass
import CallAtlas.Text.Parser

/-!
# Scripts

The grammar of scripts, plain or typed, with or without markup, as in JavaScript and TypeScript.
What a slash or a smaller sign means depends on whether an operand or an operator is expected, so
the text is cut into tokens while it is parsed.  An expression is a chain of operands; types are
only passed over, since they hold no calls.
-/

set_option autoImplicit false

namespace CallAtlas.Source.Script

open Text Parser

/-- The forms of scripts. -/
structure Dialect where
  /-- Whether there are type annotations. -/
  types : Bool
  /-- Whether there are markup elements. -/
  markup : Bool
  deriving Repr, DecidableEq

/-- The rules of the grammar that refer to each other. -/
inductive Rule where
  /-- An expression without commas. -/
  | value
  /-- Expressions joined by commas. -/
  | sequence
  /-- A statement. -/
  | statement
  /-- Statements in braces. -/
  | block
  /-- A type. -/
  | type
  /-- A markup element. -/
  | markup
  /-- An operand with what is applied to it. -/
  | applied
  /-- What `new` is applied to, with its arguments. -/
  | construction

/-- What a scan for blanks and comments is inside of. -/
inductive Trivia where
  | none
  | lineComment
  | blockComment

/-- The length of blanks and comments. -/
def spaceLength : Trivia → List Char → Nat
  | _, [] => 0
  | .blockComment, '*' :: '/' :: cs => 2 + spaceLength .none cs
  | .blockComment, _ :: cs => 1 + spaceLength .blockComment cs
  | .lineComment, c :: cs => 1 + spaceLength (if c == '\n' then .none else .lineComment) cs
  | .none, '/' :: '*' :: cs => 2 + spaceLength .blockComment cs
  | .none, '/' :: '/' :: cs => 2 + spaceLength .lineComment cs
  | .none, c :: cs =>
    if isBlank c || c.toNat == 0xFEFF || c.toNat == 0x2060 || c.toNat == 0x200B then
      1 + spaceLength .none cs
    else 0

/-- Skips blanks and comments. -/
def space : Parser Unit := do
  skip (spaceLength .none (← peek))

/-- Whether a line ends in the blanks and comments that come next. -/
def newlineAhead : Parser Bool := do
  let rest ← peek
  return (rest.take (spaceLength .none rest)).contains '\n'

/-- Whether the character may begin a name. -/
def startsName (c : Char) : Bool :=
  if c.toNat < 128 then c.isAlpha || c == '_' || c == '$'
  else !(isBlank c || c.toNat == 0xFEFF || c.toNat == 0x2060 || c.toNat == 0x200B)

/-- The length of the rest of a name. -/
def nameRest : List Char → Nat
  | [] => 0
  | '\\' :: 'u' :: cs => 2 + nameRest cs
  | c :: cs =>
    if startsName c || c.isDigit then 1 + nameRest cs
    else 0

/-- The length of the word that the text begins with. -/
def wordLength : List Char → Nat
  | '\\' :: 'u' :: cs => 2 + nameRest cs
  | c :: cs => if startsName c then 1 + nameRest cs else 0
  | [] => 0

/-- The word that the text begins with. -/
def nextWord (cs : List Char) : String := String.ofList (cs.take (wordLength cs))

/-- The text that follows the next blanks and comments. -/
def ahead : Parser (List Char) := do
  let rest ← peek
  return rest.drop (spaceLength .none rest)

/-- Reads a word after blanks. -/
def word : Parser String := do
  space
  let n := wordLength (← peek)
  require (n != 0)
  take n

/-- Reads the given word. -/
def keyword (w : String) : Parser Unit := do
  require ((← word) == w)

/-- Reads one of the given words. -/
def oneOf (ws : List String) : Parser Unit := do
  require (ws.contains (← word))

/-- Reads the given symbol after blanks. -/
def symbol (s : String) : Parser Unit := do
  space
  require (← lookingAt s)
  skip s.length

/-- Reads the given symbol if it comes next. -/
def optionalSymbol (s : String) : Parser Unit := orGive (symbol s) ()

/-- Whether the given symbol comes after the next blanks. -/
def symbolAhead (s : String) : Parser Bool := do
  return s.toList.isPrefixOf (← ahead)

/-- The character that begins and ends a template. -/
def tick : Char := Char.ofNat 96

/-- Whether the character begins a string. -/
def isQuote (c : Char) : Bool := c == '"' || c.toNat == 39

/-- The length of a text in quotes, from after the opening quote to after the closing one. -/
def quotedLength (quote : Char) : List Char → Nat
  | [] => 0
  | '\\' :: _ :: cs => 2 + quotedLength quote cs
  | c :: cs => if c == quote then 1 else 1 + quotedLength quote cs

/-- The length of the string that the text begins with. -/
def stringLength : List Char → Nat
  | c :: cs => if isQuote c then 1 + quotedLength c cs else 0
  | [] => 0

/-- The length of a regular expression after its first slash. -/
def regexLength : Bool → List Char → Nat
  | _, [] => 0
  | inClass, '\\' :: _ :: cs => 2 + regexLength inClass cs
  | inClass, c :: cs =>
    if c == '[' then 1 + regexLength true cs
    else if c == ']' then 1 + regexLength false cs
    else if c == '/' && !inClass then 1 + nameRest cs
    else 1 + regexLength inClass cs

/-- The length of the number that the text begins with. -/
def numberLength (cs : List Char) : Nat :=
  let digits (cs : List Char) := (cs.takeWhile fun c => c.isDigit || c == '_').length
  let startsNumber := match cs with
    | c :: d :: _ => c.isDigit || c == '.' && d.isDigit
    | [c] => c.isDigit
    | [] => false
  let radix := match cs with
    | '0' :: x :: _ => "xXoObB".toList.contains x
    | _ => false
  if !startsNumber then 0
  else if radix then (cs.takeWhile fun c => c.isAlphanum || c == '_').length
  else
    let whole := digits cs
    let fraction := match cs.drop whole with
      | '.' :: rest => 1 + digits rest
      | _ => 0
    let afterFraction := cs.drop (whole + fraction)
    let exponent := match afterFraction with
      | e :: s :: rest =>
        if e == 'e' || e == 'E' then
          if s.isDigit then 1 + digits (s :: rest)
          else if s == '+' || s == '-' then 2 + digits rest
          else 0
        else 0
      | _ => 0
    let suffix := if (afterFraction.drop exponent).head? == some 'n' then 1 else 0
    whole + fraction + exponent + suffix

/-- Skips one token of a part that is only passed over. -/
def token : Parser Unit := do
  let rest ← peek
  match rest with
  | [] => failure
  | c :: cs =>
    let string := stringLength rest
    let w := wordLength rest
    skip (
      if string != 0 then string
      else if c == tick then 1 + quotedLength tick cs
      else if w != 0 then w
      else 1)

/-- Skips tokens until the given number of open brackets are closed. -/
def closeBrackets : Nat → Nat → Parser Unit
  | _, 0 => pure ()
  | 0, _ + 1 => failure
  | fuel + 1, depth + 1 => do
    space
    match ← peek with
    | [] => failure
    | c :: _ =>
      if c == '(' || c == '[' || c == '\x7b' then skip 1; closeBrackets fuel (depth + 2)
      else if c == ')' || c == ']' || c == '\x7d' then skip 1; closeBrackets fuel depth
      else token; closeBrackets fuel (depth + 1)

/-- Skips brackets and what is between them. -/
def skipBrackets (openMark : String) : Parser Unit := do
  symbol openMark
  closeBrackets (← peek).length 1

/-- One node for several; a single node stays what it is. -/
def collect : List Node → Node
  | [node] => node
  | nodes => .group nodes

/-- The words that cannot be used as a value. -/
def reserved : List String :=
  ["break", "case", "catch", "class", "const", "continue", "debugger", "default", "delete", "do",
   "else", "enum", "export", "extends", "finally", "for", "function", "if", "import", "in",
   "instanceof", "new", "return", "switch", "throw", "try", "typeof", "var", "void", "while",
   "with"]

/-- The words that stand for a value without being an identifier. -/
def valueWords : List String := ["this", "super", "null", "true", "false", "undefined"]

variable (d : Dialect) (self : Rules Rule Node)

/-- Elements with separators after them, up to a closing mark. -/
def listUntil (item : Parser Node) (closeMark : String) : Parser Node := do
  let items ← many (do
    require !(← symbolAhead closeMark)
    (do symbol ","; return Node.blank) <|> (do symbol ";"; return .blank) <|> item)
  symbol closeMark
  return .group items

/-- Type parameters in angle brackets. -/
def typeParameters : Parser Node := do
  symbol "<"
  listUntil (do
    let _ ← many (do
      let w ← word
      require (["const", "in", "out"].contains w)
      require (wordLength (← ahead) != 0))
    let _ ← word
    let bound ← orGive (do keyword "extends"; self .type) Node.blank
    let default ← orGive (do symbol "="; self .type) Node.blank
    return .group [bound, default]) ">"

/-- Type arguments in angle brackets. -/
def typeArguments : Parser Node := do
  symbol "<"
  listUntil (self .type) ">"

/-- A type annotation, if there is one. -/
def annotation : Parser Node :=
  if d.types then orGive (do symbol ":"; self .type) .blank else pure .blank

/-- A template with its substitutions. -/
def template : Parser Node := do
  space
  require ((← peek).head? == some tick)
  skip 1
  let pieces ← many (do
    match ← peek with
    | '\\' :: _ => skip 2; return Node.blank
    | '$' :: '\x7b' :: _ =>
      skip 2
      let inner ← self .sequence
      symbol "\x7d"
      return inner
    | c :: _ =>
      require (c != tick)
      skip 1
      return .blank
    | [] => failure)
  require ((← peek).head? == some tick)
  skip 1
  return .group pieces

/-- The name of a property, with the nodes of a computed one. -/
def propertyName : Parser Node := do
  space
  let row ← Parser.row
  let rest ← peek
  let named (n : Nat) : Parser Node := do
    let text ← take n
    return .mk .other (some .name) row text []
  match rest with
  | [] => failure
  | c :: cs =>
    if stringLength rest != 0 then named (stringLength rest)
    else if numberLength rest != 0 then named (numberLength rest)
    else if wordLength rest != 0 then named (wordLength rest)
    else if c == '#' && wordLength cs != 0 then named (1 + wordLength cs)
    else if c == '[' then
      let inside ← fits (do skip 1; let _ ← self .value; symbol "]")
      require inside
      skip 1
      let inner ← self .value
      symbol "]"
      let text := String.ofList (rest.take (rest.length - (← peek).length))
      return .mk .other (some .name) row text [inner]
    else failure

/-- Whether the text begins with the name of a property. -/
def startsProperty (rest : List Char) : Bool :=
  match rest with
  | [] => false
  | c :: cs =>
    stringLength rest != 0 || numberLength rest != 0 || wordLength rest != 0 ||
      c == '#' && wordLength cs != 0 || c == '['

/-- The words that may stand before a member of a class or object. -/
def modifierWords : List String :=
  ["static", "async", "get", "set", "accessor"] ++
    if d.types then
      ["public", "private", "protected", "readonly", "override", "abstract", "declare"]
    else []

/-- Skips the modifiers of a member; a word is one only if the name of the member follows, and
`async` only if it does on the same line. -/
def modifiers : Parser Unit := do
  let _ ← many (do
    let w ← word
    require ((modifierWords d).contains w)
    require (w != "async" || !(← newlineAhead))
    let rest ← ahead
    require (startsProperty rest || rest.head? == some '*'))
  optionalSymbol "*"

/-- A decorator. -/
def decorator : Parser Node := do
  symbol "@"
  space
  let row ← Parser.row
  if (← lookingAt "(") then
    symbol "("
    let inner ← self .sequence
    symbol ")"
    return .group [inner]
  else
    let w ← word
    let members ← many (do symbol "."; word)
    let callee : Node := if members.isEmpty then .mk .identifier none row w [] else .blank
    (do
      let types ← if d.types then orGive (typeArguments self) .blank else pure Node.blank
      space
      require (← lookingAt "(")
      skip 1
      let arguments ← listUntil (self .value) ")"
      return .mk .call none row "" [callee.inField .callee, types, arguments]) <|> pure callee

/-- Decorators. -/
def decorators : Parser (List Node) := many (decorator d self)

/-- The elements of an array value or pattern. -/
def arrayValue : Parser Node := do
  symbol "["
  listUntil (self .value) "]"

/-- The parameters of a function, in parentheses; `pattern` reads one without a plain name. -/
def parametersOf (pattern : Parser Node) : Parser Node := do
  symbol "("
  listUntil (do
    let marks ← decorators d self
    if d.types then
      let _ ← many (do
        let w ← word
        require (["public", "private", "protected", "readonly", "override"].contains w)
        let rest ← ahead
        require (wordLength rest != 0 || rest.head? == some '\x7b' || rest.head? == some '['))
    optionalSymbol "..."
    let name ← (do
      let w ← word
      require (!reserved.contains w)
      return Node.blank) <|> pattern
    if d.types then optionalSymbol "?"
    let type ← annotation d self
    let default ← orGive (do
      require !(← symbolAhead "=>")
      symbol "="
      self .value) Node.blank
    return .group (marks ++ [name, type, default])) ")"

/-- A function's type parameters, if there are any. -/
def optionalTypeParameters : Parser Node :=
  if d.types then orGive (typeParameters self) .blank else pure .blank

/-- A method after its modifiers: its name, parameters and body, with the pattern reader for its
parameters. -/
def methodAfter (row : Nat) (marks : List Node) (pattern : Parser Node) : Parser Node := do
  let name ← propertyName self
  if d.types then optionalSymbol "?"
  let types ← optionalTypeParameters d self
  let parameters ← parametersOf d self pattern
  let result ← annotation d self
  let body ← self .block
  return .mk .method none row "" (marks ++ [name, types, parameters, result, body])

/-- An object value or pattern; `pattern` reads the parameter patterns of its methods. -/
def objectValueOf (pattern : Parser Node) : Parser Node := do
  symbol "\x7b"
  listUntil
    ((do symbol "..."; self .value) <|>
      (do
        space
        let row ← Parser.row
        modifiers d
        methodAfter d self row [] pattern) <|>
      (do
        let key ← propertyName self
        symbol ":"
        return .group [key, ← self .value]) <|>
      (do
        let _ ← word
        orGive (do
          require !(← symbolAhead "=>")
          symbol "="
          self .value) .blank)) "\x7d"

/-- A pattern other than a plain name.  The methods that an object value may have do not occur in
patterns, so the patterns of their parameters need not be read. -/
def pattern : Parser Node :=
  arrayValue self <|> objectValueOf d self failure

/-- An object value. -/
def objectValue : Parser Node := objectValueOf d self (pattern d self)

/-- The parameters of a function, in parentheses. -/
def parameters : Parser Node := parametersOf d self (pattern d self)

/-- The body of an arrow function. -/
def arrowBody : Parser Node := do
  if (← symbolAhead "\x7b") then self .block else self .value

/-- An arrow function. -/
def arrowFunction : Parser Node := do
  space
  let row ← Parser.row
  let isAsync ← fits (do
    keyword "async"
    require !(← newlineAhead)
    let rest ← ahead
    require (rest.head? == some '(' || rest.head? == some '<' ||
      wordLength rest != 0 && nextWord rest != "function"))
  if isAsync then keyword "async"
  let rest ← ahead
  if wordLength rest != 0 then
    let w ← word
    require (!reserved.contains w && !valueWords.contains w)
    symbol "=>"
    return .mk .arrow none row "" [← arrowBody self]
  else
    let types ← optionalTypeParameters d self
    let inputs ← parameters d self
    let result ← annotation d self
    symbol "=>"
    return .mk .arrow none row "" [types, inputs, result, ← arrowBody self]

/-- A member of a class. -/
def classMember : Parser Node := do
  space
  let startRow ← Parser.row
  let marks ← decorators d self
  space
  let row ← Parser.row
  let ownRow := if d.types then row else startRow
  let method : Parser Node := do
    modifiers d
    if d.types then
      let method ← methodAfter d self ownRow [] (pattern d self)
      return .group (marks ++ [method])
    else methodAfter d self ownRow marks (pattern d self)
  let staticBlock : Parser Node := do
    keyword "static"
    self .block
  let signature : Parser Node := do
    require d.types
    modifiers d
    let name ← propertyName self
    optionalSymbol "?"
    let types ← optionalTypeParameters d self
    let inputs ← parameters d self
    let result ← annotation d self
    return .group (marks ++ [name, types, inputs, result])
  let indexSignature : Parser Node := do
    require d.types
    modifiers d
    symbol "["
    let _ ← word
    symbol ":"
    let key ← self .type
    symbol "]"
    return .group [key, ← annotation d self]
  let field : Parser Node := do
    modifiers d
    let name ← propertyName self
    if d.types then
      optionalSymbol "?"
      optionalSymbol "!"
    let type ← annotation d self
    let value ← orGive (do symbol "="; self .value) Node.blank
    return .group (marks ++ [.group [name], type, value])
  let member ← staticBlock <|> method <|> signature <|> indexSignature <|> field
  optionalSymbol ";"
  return member

/-- A class from its keyword on. -/
def classFrom : Parser Node := do
  keyword "class"
  let rest ← ahead
  let w := nextWord rest
  if w != "" && w != "extends" && w != "implements" then
    let _ ← word
  let types ← optionalTypeParameters d self
  let base ← orGive (do
    keyword "extends"
    let base ← self .applied
    let types ← if d.types then orGive (typeArguments self) .blank else pure Node.blank
    return .group [base, types]) .blank
  if d.types then
    let _ ← orGive (do
      keyword "implements"
      let _ ← self .type
      let _ ← many (do symbol ","; self .type)) ()
  symbol "\x7b"
  let members ← listUntil (classMember d self) "\x7d"
  return .mk .classDef none 0 "" [types, base, members]

/-- A function from its keyword on, in the given row; `declared` says whether it is a
declaration. -/
def functionOf (declared : Bool) (row : Nat) : Parser Node := do
  keyword "function"
  let generator ← orGive (do symbol "*"; return true) false
  space
  let nameRow ← Parser.row
  let name ← orGive (do return some (← word)) none
  let types ← optionalTypeParameters d self
  let inputs ← parameters d self
  let result ← annotation d self
  let nameNode : List Node := match name with
    | some n => [.mk .identifier (some .name) nameRow n []]
    | none => []
  let kind : NodeKind :=
    if declared && name.isSome then (if generator then .generator else .function)
    else if generator then .other
    else .functionValue
  (do
    let body ← self .block
    return .mk kind none row "" (nameNode ++ [types, inputs, result, body])) <|> (do
    require d.types
    optionalSymbol ";"
    return .group [types, inputs, result])

/-- The name of a markup element or attribute. -/
def markupName : Parser Unit := do
  let _ ← word
  let _ ← many (do
    match ← peek with
    | c :: cs =>
      require (c == '-' || c == '.' || c == ':')
      skip (1 + nameRest cs)
    | [] => failure)

/-- An expression in the braces of a markup element. -/
def markupSlot : Parser Node := do
  symbol "\x7b"
  optionalSymbol "..."
  let inner ← orGive (self .sequence) .blank
  symbol "\x7d"
  return inner

/-- An attribute of a markup element. -/
def markupAttribute : Parser Node :=
  markupSlot self <|> (do
    markupName
    orGive (do
      symbol "="
      space
      match ← peek with
      | c :: cs =>
        if isQuote c then
          skip (2 + (cs.takeWhile (· != c)).length)
          return .blank
        else markupSlot self <|> self .markup
      | [] => failure) .blank)

/-- A markup element. -/
def markupElement : Parser Node := do
  symbol "<"
  let attributes ← orGive (do
    markupName
    if d.types then
      let _ ← orGive (typeArguments self) .blank
    many (markupAttribute self)) []
  (do symbol "/>"; return .group attributes) <|> (do
    symbol ">"
    let children ← many (do
      match ← peek with
      | '<' :: _ =>
        require !(← fits (do symbol "<"; symbol "/"))
        self .markup
      | '\x7b' :: _ => markupSlot self
      | _ :: _ => skip 1; return Node.blank
      | [] => failure)
    symbol "<"
    symbol "/"
    orGive markupName ()
    symbol ">"
    return .group (attributes ++ children))

/-- An operand before anything that is applied to it. -/
def primary : Parser Node := do
  space
  let row ← Parser.row
  let rest ← peek
  match rest with
  | [] => failure
  | c :: cs =>
    if c == '(' then
      skip 1
      let inner ← self .sequence
      symbol ")"
      return .group [inner]
    else if c == '[' then arrayValue self
    else if c == '\x7b' then objectValue d self
    else if c == tick then template self
    else if stringLength rest != 0 then skip (stringLength rest); return .blank
    else if numberLength rest != 0 then skip (numberLength rest); return .blank
    else if c == '/' then skip (1 + regexLength false cs); return .blank
    else if c == '#' then skip (1 + wordLength cs); return .blank
    else if c == '@' then
      let marks ← decorators d self
      return .group (marks ++ [← classFrom d self])
    else if c == '<' && d.markup then self .markup
    else if c == '<' && d.types then
      let type ← typeArguments self
      return .group [type, ← self .applied]
    else
      match nextWord rest with
      | "function" => functionOf d self false row
      | "class" => classFrom d self
      | "new" => self .construction
      | "import" => skip 6; return .blank
      | "async" =>
        (do
          keyword "async"
          require !(← newlineAhead)
          functionOf d self false row) <|> (do
          let w ← word
          return .mk .identifier none row w [])
      | w =>
        require (w != "" && !reserved.contains w)
        skip w.length
        if valueWords.contains w then return .blank
        else return .mk .identifier none row w []

/-- What is applied to an operand. -/
inductive Suffix where
  /-- Arguments of a call. -/
  | arguments (nodes : Node)
  /-- Anything else. -/
  | access (nodes : Node)

/-- Applies a suffix to an operand. -/
def Suffix.apply (base : Node) : Suffix → Node
  | arguments nodes => .mk .call none base.row "" [base.inField .callee, nodes]
  | access nodes => .group [base, nodes]

/-- The arguments of a call, in parentheses. -/
def callArguments : Parser Node := do
  symbol "("
  listUntil (self .value) ")"

/-- Type arguments that an expression is applied to, with the call they belong to. -/
def typedSuffix : Parser Suffix := do
  require d.types
  let types ← typeArguments self
  (do return .arguments (.group [types, ← callArguments self])) <|>
    (do return .arguments (.group [types, ← template self])) <|> (do
      match ← ahead with
      | [] => return .access types
      | c :: _ =>
        require (")],;:.?\x7d=".toList.contains c)
        return .access types)

/-- A member access. -/
def memberSuffix : Parser Suffix := do
  symbol "."
  space
  match ← peek with
  | '#' :: cs => skip (1 + wordLength cs); return .access .blank
  | cs =>
    require (wordLength cs != 0)
    skip (wordLength cs)
    return .access .blank

/-- An index in brackets. -/
def indexSuffix : Parser Suffix := do
  symbol "["
  let inner ← self .sequence
  symbol "]"
  return .access inner

/-- A suffix of an operand. -/
def suffix : Parser Suffix := do
  let onNewLine ← newlineAhead
  space
  let rest ← peek
  match rest with
  | [] => failure
  | c :: cs =>
    if c == '(' then return .arguments (← callArguments self)
    else if c == '[' then indexSuffix self
    else if c == tick then return .arguments (← template self)
    else if c == '<' then typedSuffix d self
    else if c == '!' && d.types then
      require (cs.head? != some '=' && !onNewLine)
      skip 1
      return .access .blank
    else if "++".toList.isPrefixOf rest || "--".toList.isPrefixOf rest then
      require !onNewLine
      skip 2
      return .access .blank
    else if c == '?' then
      require (match cs with
        | '.' :: e :: _ => !e.isDigit
        | _ => false)
      skip 2
      space
      match ← peek with
      | '(' :: _ => return .arguments (← callArguments self)
      | '[' :: _ => indexSuffix self
      | '<' :: _ => typedSuffix d self
      | e :: es =>
        if e == tick then return .arguments (← template self)
        else
          skip (if e == '#' then 1 + wordLength es else wordLength (e :: es))
          return .access .blank
      | [] => failure
    else memberSuffix

/-- An operand with what is applied to it. -/
def applied : Parser Node := do
  let base ← primary d self
  let suffixes ← many (suffix d self)
  return suffixes.foldl Suffix.apply base

/-- What `new` is applied to, with its arguments. -/
def construction : Parser Node := do
  keyword "new"
  (do symbol "."; keyword "target"; return .blank) <|> (do
    let base ← primary d self
    let members ← many (do
      match ← ahead with
      | '.' :: _ => memberSuffix
      | '[' :: _ => indexSuffix self
      | c :: _ =>
        require (c == tick)
        return .access (← template self)
      | [] => failure)
    let callee := members.foldl Suffix.apply base
    let types ← if d.types then orGive (typeArguments self) .blank else pure Node.blank
    let arguments ← orGive (callArguments self) .blank
    return .group [.group [callee], types, arguments])

/-- An operator, or a word that acts like one, before an operand; the flag says whether the
operand may be missing. -/
def prefixMark : Parser Bool := do
  space
  let rest ← peek
  match rest with
  | [] => failure
  | c :: _ =>
    if "...".toList.isPrefixOf rest then skip 3; return false
    else if "++".toList.isPrefixOf rest || "--".toList.isPrefixOf rest then skip 2; return false
    else if "!~+-".toList.contains c then skip 1; return false
    else
      match nextWord rest with
      | "typeof" | "void" | "delete" => skip (wordLength rest); return false
      | "await" =>
        skip 5
        match ← ahead with
        | c :: _ => require (!")],;:=.".toList.contains c)
        | [] => failure
        return false
      | "yield" =>
        skip 5
        optionalSymbol "*"
        return true
      | _ => failure

/-- An operand with what stands before it. -/
def operand : Parser Node := do
  let marks ← many prefixMark
  let rest ← ahead
  let mayBeArrow := match rest with
    | c :: _ => c == '(' || c == '<' && d.types || wordLength rest != 0
    | [] => false
  let value ← (do require mayBeArrow; arrowFunction d self) <|>
    applied d self <|> (do
      require (marks.getLast? == some true)
      return .blank)
  return if marks.isEmpty then value else .group [value]

/-- The operators between operands, no operator before a longer one that begins with it. -/
def operators : List String :=
  [">>>=", "===", "!==", "**=", "<<=", ">>=", ">>>", "&&=", "||=", "??=", "==", "!=", "<=", ">=",
   "&&", "||", "??", "**", "<<", ">>", "+=", "-=", "*=", "/=", "%=", "&=", "|=", "^=", "=", "+",
   "-", "*", "/", "%", "&", "|", "^", "<", ">"]

/-- What may follow an operand: an operator and an operand, a choice, or a cast. -/
def continuation : Parser Node := do
  space
  let rest ← peek
  match nextWord rest with
  | "in" | "instanceof" =>
    let _ ← word
    operand d self
  | "as" | "satisfies" =>
    require d.types
    let _ ← word
    self .type
  | _ =>
    require (!"=>".toList.isPrefixOf rest)
    match operators.find? fun op => op.toList.isPrefixOf rest with
    | some op =>
      skip op.length
      operand d self
    | none =>
      symbol "?"
      let first ← self .value
      symbol ":"
      return .group [first, ← self .value]

/-- An expression without commas. -/
def value : Parser Node := do
  let first ← operand d self
  let others ← many (continuation d self)
  return collect (first :: others)

/-- Expressions joined by commas. -/
def sequence : Parser Node := do
  let first ← self .value
  let others ← many (do symbol ","; self .value)
  return collect (first :: others)

/-- The words that are applied to a type. -/
def typeOperators : List String :=
  ["keyof", "unique", "readonly", "infer", "typeof", "asserts", "abstract"]

/-- A type without operators between types. -/
def typeOperand : Parser Unit := do
  let _ ← many (do
    let w ← word
    require (typeOperators.contains w)
    match ← ahead with
    | c :: cs => require (wordLength (c :: cs) != 0 || c == '(' || c == '[' || c == '\x7b')
    | [] => failure)
  space
  let rest ← peek
  match rest with
  | [] => failure
  | c :: cs =>
    if c == '(' || c == '<' then
      (do
        let _ ← optionalTypeParameters d self
        let _ ← parameters d self
        symbol "=>"
        let _ ← self .type) <|> (do
        symbol "("
        let _ ← self .type
        symbol ")")
    else if c == '\x7b' then skipBrackets "\x7b"
    else if c == '[' then skipBrackets "["
    else if stringLength rest != 0 then skip (stringLength rest)
    else if numberLength rest != 0 then skip (numberLength rest)
    else if c == '-' then
      skip 1
      skip (numberLength cs)
    else if c == tick then skip (1 + quotedLength tick cs)
    else
      let w ← word
      if w == "new" then
        let _ ← optionalTypeParameters d self
        let _ ← parameters d self
        symbol "=>"
        let _ ← self .type
      else
        if w == "import" then skipBrackets "("
        let _ ← many (do symbol "."; word)
        let _ ← orGive (typeArguments self) .blank
  let _ ← many (do
    require !(← newlineAhead)
    skipBrackets "[")

/-- A type. -/
def type : Parser Node := do
  optionalSymbol "|"
  optionalSymbol "&"
  typeOperand d self
  let _ ← many (do
    symbol "|" <|> symbol "&"
    typeOperand d self)
  let _ ← orGive (do
    require !(← newlineAhead)
    keyword "is"
    let _ ← self .type) ()
  let _ ← orGive (do
    keyword "extends"
    let _ ← self .type
    symbol "?"
    let _ ← self .type
    symbol ":"
    let _ ← self .type) ()
  return .blank

/-- Statements up to a closing brace; a token that begins no statement is left out. -/
def statements : Parser (List Node) :=
  many (do
    let rest ← ahead
    require (!rest.isEmpty && rest.head? != some '\x7d')
    self .statement <|> (do space; token; return .blank))

/-- Statements in braces. -/
def block : Parser Node := do
  symbol "\x7b"
  let row ← Parser.row
  let nodes ← statements self
  symbol "\x7d"
  return .mk .block none row "" nodes

/-- A binding of a variable. -/
def declarator : Parser Node := do
  space
  let row ← Parser.row
  let name ← (do
    let w ← word
    require (!reserved.contains w)
    return Node.mk .identifier (some .name) row w []) <|>
    (do return (← pattern d self).inField .name)
  if d.types then optionalSymbol "!"
  let type ← annotation d self
  let value ← orGive (do
    require !(← symbolAhead "=>")
    symbol "="
    self .value) .blank
  return .mk .declarator none row "" [name, type, value]

/-- Bindings of variables, from their keyword on. -/
def declaration : Parser Node := do
  oneOf ["var", "let", "const"]
  let first ← declarator d self
  let others ← many (do symbol ","; declarator d self)
  return .group (first :: others)

/-- An expression in parentheses. -/
def parenthesized : Parser Node := do
  symbol "("
  let inner ← self .sequence
  symbol ")"
  return inner

/-- The head of a loop, in parentheses. -/
def loopHead : Parser Node := do
  symbol "("
  let first ← orGive (declaration d self) .blank
  let others ← many (
    (do symbol ";"; return Node.blank) <|> (do oneOf ["of", "in"]; self .sequence) <|>
      self .sequence)
  symbol ")"
  return .group (first :: others)

/-- The members of an enumeration. -/
def enumeration : Parser Node := do
  keyword "enum"
  let _ ← word
  symbol "\x7b"
  listUntil (do
    let name ← propertyName self
    let value ← orGive (do symbol "="; self .value) .blank
    return .group [name, value]) "\x7d"

/-- Skips the rest of an import after its keyword. -/
def importRest : Parser Unit := do
  (do
    let _ ← many (do
      space
      let rest ← peek
      require (stringLength rest == 0 && !";=(".toList.contains (rest.head?.getD ';'))
      token)
    space
    let n := stringLength (← peek)
    require (n != 0)
    skip n
    orGive (do
      require !(← newlineAhead)
      oneOf ["with", "assert"]
      skipBrackets "\x7b") ()) <|> (do
    let _ ← many (do
      let w ← word
      require (w != "" && (wordLength (← ahead) != 0 || (← symbolAhead "="))))
    symbol "="
    let _ ← word
    let _ ← many (do symbol "."; word)
    orGive (skipBrackets "(") ())
  optionalSymbol ";"

/-- Whether the given word comes next with a further word on the same line. -/
def wordThenWord (w : String) : Parser Bool := fits do
  keyword w
  require !(← newlineAhead)
  require (wordLength (← ahead) != 0)

/-- A declaration that only typed scripts have. -/
def typedDeclaration : Parser Node := do
  require d.types
  match nextWord (← ahead) with
  | "interface" =>
    require (← wordThenWord "interface")
    keyword "interface"
    let _ ← word
    let _ ← optionalTypeParameters d self
    let _ ← orGive (do
      keyword "extends"
      let _ ← self .type
      let _ ← many (do symbol ","; self .type)) ()
    skipBrackets "\x7b"
    return .blank
  | "type" =>
    require (← wordThenWord "type")
    keyword "type"
    let _ ← word
    let _ ← optionalTypeParameters d self
    symbol "="
    let _ ← self .type
    optionalSymbol ";"
    return .blank
  | "enum" => enumeration self
  | "const" =>
    keyword "const"
    enumeration self
  | "namespace" | "module" =>
    let _ ← word
    require !(← newlineAhead)
    space
    let n := stringLength (← peek)
    if n != 0 then skip n
    else
      let _ ← word
      let _ ← many (do symbol "."; word)
    orGive (self .block) .blank
  | "global" =>
    keyword "global"
    self .block
  | "declare" =>
    keyword "declare"
    require !(← newlineAhead)
    require (wordLength (← ahead) != 0)
    self .statement
  | "abstract" =>
    keyword "abstract"
    require (nextWord (← ahead) == "class")
    self .statement
  | _ => failure

/-- A function declaration. -/
def functionDeclaration : Parser Node := do
  space
  let row ← Parser.row
  let _ ← orGive (do
    keyword "async"
    require !(← newlineAhead)
    require (nextWord (← ahead) == "function")) ()
  functionOf d self true row

/-- What follows `export`. -/
def exportRest : Parser Node :=
  (do
    keyword "default"
    functionDeclaration d self <|> (do
      let _ ← orGive (do
        keyword "abstract"
        require (nextWord (← ahead) == "class")) ()
      let marks ← decorators d self
      let value ← classFrom d self
      return .group (marks ++ [value])) <|>
    typedDeclaration d self <|> (do
      let value ← self .sequence
      optionalSymbol ";"
      return .group [value])) <|>
  (do
    let _ ← orGive (do keyword "type"; require ((← symbolAhead "\x7b") || (← symbolAhead "*"))) ()
    (do
      symbol "*"
      orGive (do
        keyword "as"
        (do let _ ← word) <|> (do space; skip (stringLength (← peek)))) ()) <|>
      skipBrackets "\x7b"
    orGive (do
      keyword "from"
      importRest) ()
    optionalSymbol ";"
    return .blank) <|>
  (do
    symbol "="
    let value ← self .sequence
    optionalSymbol ";"
    return value) <|>
  (do
    keyword "as"
    keyword "namespace"
    let _ ← word
    optionalSymbol ";"
    return .blank) <|>
  self .statement

/-- The cases of a switch, in braces. -/
def switchBody : Parser Node := do
  symbol "\x7b"
  let parts ← many (
    (do
      keyword "case"
      let test ← self .sequence
      symbol ":"
      return test) <|>
    (do
      keyword "default"
      symbol ":"
      return .blank) <|>
    (do
      let rest ← ahead
      require (!rest.isEmpty && rest.head? != some '\x7d')
      self .statement <|> (do space; token; return .blank)))
  symbol "\x7d"
  return .group parts

/-- An expression used as a statement, or a statement with a label. -/
def expressionStatement : Parser Node :=
  (do
    let w ← word
    require (!reserved.contains w)
    symbol ":"
    self .statement) <|>
  (do
    let value ← self .sequence
    optionalSymbol ";"
    return .group [value])

/-- A statement. -/
def statement : Parser Node := do
  let rest ← ahead
  match rest with
  | [] => failure
  | c :: _ =>
    if c == ';' then symbol ";"; return .blank
    else if c == '\x7b' then self .block
    else if c == '@' then
      let marks ← decorators d self
      return .group (marks ++ [← self .statement])
    else
      match nextWord rest with
      | "var" | "let" | "const" =>
        typedDeclaration d self <|> (do
          let bindings ← declaration d self
          optionalSymbol ";"
          return bindings) <|> expressionStatement self
      | "function" => functionDeclaration d self
      | "async" => functionDeclaration d self <|> expressionStatement self
      | "class" => classFrom d self
      | "if" =>
        keyword "if"
        let test ← parenthesized self
        let body ← self .statement
        let other ← orGive (do keyword "else"; self .statement) .blank
        return .group [test, body, other]
      | "for" =>
        keyword "for"
        let _ ← orGive (keyword "await") ()
        let head ← loopHead d self
        return .group [head, ← self .statement]
      | "while" | "with" =>
        let _ ← word
        let test ← parenthesized self
        return .group [test, ← self .statement]
      | "do" =>
        keyword "do"
        let body ← self .statement
        keyword "while"
        let test ← parenthesized self
        optionalSymbol ";"
        return .group [body, test]
      | "switch" =>
        keyword "switch"
        let subject ← parenthesized self
        return .group [subject, ← switchBody self]
      | "try" =>
        keyword "try"
        let body ← self .block
        let handler ← orGive (do
          keyword "catch"
          let parameter ← orGive (parameters d self) .blank
          return Node.group [parameter, ← self .block]) .blank
        let final ← orGive (do keyword "finally"; self .block) .blank
        return .group [body, handler, final]
      | "return" | "throw" =>
        let _ ← word
        let value ← if (← newlineAhead) then pure Node.blank else orGive (self .sequence) .blank
        optionalSymbol ";"
        return .group [value]
      | "break" | "continue" =>
        let _ ← word
        if !(← newlineAhead) then
          let _ ← orGive word ""
        optionalSymbol ";"
        return .blank
      | "debugger" =>
        let _ ← word
        optionalSymbol ";"
        return .blank
      | "import" =>
        (do
          keyword "import"
          match ← ahead with
          | c :: _ => require (c != '(' && c != '.')
          | [] => failure
          importRest
          return .blank) <|> expressionStatement self
      | "export" =>
        keyword "export"
        exportRest d self
      | _ => typedDeclaration d self <|> expressionStatement self

/-- Every rule in terms of all of them. -/
def rules : Rules Rule Node → Rules Rule Node := fun self rule =>
  match rule with
  | .value => value d self
  | .sequence => sequence self
  | .statement => statement d self
  | .block => block self
  | .type => type d self
  | .markup => markupElement d self
  | .applied => applied d self
  | .construction => construction d self

/-- The tree of a script. -/
def parse (text : List Char) : Node :=
  let self := Rules.nested (rules d) (8 * text.length + 16)
  let firstLine :=
    if "#!".toList.isPrefixOf text then (text.takeWhile (· != '\n')).length else 0
  let all : Parser (List Node) := do
    skip firstLine
    let pieces ← many (do
      let nodes ← statements self
      let _ ← orGive (symbol "\x7d") ()
      return nodes)
    return pieces.flatten
  match all (.start text) with
  | some (nodes, _) => .mk .module none 0 "" nodes
  | none => .mk .module none 0 "" []

end CallAtlas.Source.Script
