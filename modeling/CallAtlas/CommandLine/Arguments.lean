import CallAtlas.Diagram.Grammar

/-!
# Arguments

The commands of the program and how they are read from its arguments.  Arguments are read from left
to right, and the first fault or request for help decides.  An option may be given once; its value
is the rest of its argument, or else the argument after it, which must not look like an option.
-/

set_option autoImplicit false

namespace CallAtlas.CommandLine

/-- The form in which an analysis is printed. -/
inductive OutputFormat where
  /-- The diagram alone. -/
  | text
  /-- The diagram and the figures as JSON. -/
  | json
  deriving Repr, DecidableEq

/-- What both commands are told about the project. -/
structure ProjectOptions where
  /-- The folder of the project. -/
  root : String
  /-- The label of the language. -/
  language : Option String
  /-- The file with the settings. -/
  settingsFile : Option String
  /-- The folder of the project to which the command keeps. -/
  codeFolder : Option String
  /-- Whether scripts are parsed. -/
  preferStructured : Bool
  /-- The file to write to. -/
  output : Option String
  deriving Repr, DecidableEq

/-- A command with its options. -/
inductive Command where
  /-- Draws the diagram of a project. -/
  | analyze (project : ProjectOptions) (grammar : Option Grammar) (maxDepth : Option Nat)
      (format : OutputFormat)
  /-- Lists the definitions of a project. -/
  | functions (project : ProjectOptions)
  deriving Repr, DecidableEq

/-- What the arguments ask for. -/
inductive Request where
  /-- How the program is used. -/
  | help
  /-- The version of the program. -/
  | version
  /-- A command. -/
  | run (command : Command)
  deriving Repr, DecidableEq

/-- Why the reading of arguments ends early. -/
inductive Stop where
  /-- The arguments are not valid. -/
  | usage
  /-- They ask for help. -/
  | help
  /-- They ask for the version. -/
  | version
  deriving Repr, DecidableEq

/-- An option. -/
inductive Switch where
  | verbose
  | help
  | version
  | preferStructured
  | language
  | settingsFile
  | codeFolder
  | grammar
  | maxDepth
  | format
  | output
  deriving Repr, DecidableEq

namespace Switch

/-- The name of an option after two hyphens. -/
def word : Switch → String
  | verbose => "verbose"
  | help => "help"
  | version => "version"
  | preferStructured => "prefer-structured"
  | language => "language"
  | settingsFile => "config"
  | codeFolder => "code-folder"
  | grammar => "grammar"
  | maxDepth => "max-depth"
  | format => "format"
  | output => "output"

/-- The letter of an option after one hyphen. -/
def letter? : Switch → Option Char
  | verbose => some 'v'
  | help => some 'h'
  | version => some 'V'
  | language => some 'l'
  | settingsFile => some 'c'
  | grammar => some 'g'
  | format => some 'f'
  | output => some 'o'
  | _ => none

/-- Whether an option has a value. -/
def hasValue : Switch → Bool
  | verbose | help | version | preferStructured => false
  | _ => true

/-- The options before a command. -/
def general : List Switch := [verbose, help, version]

/-- The options of the command that lists definitions. -/
def forFunctions : List Switch :=
  [verbose, help, preferStructured, language, settingsFile, codeFolder, output]

/-- The options of the command that draws a diagram. -/
def forAnalyze : List Switch := forFunctions ++ [grammar, maxDepth, format]

end Switch

/-- A command that is being read. -/
structure Draft where
  /-- The folder of the project. -/
  root : Option String := none
  /-- The label of the language. -/
  language : Option String := none
  /-- The file with the settings. -/
  settingsFile : Option String := none
  /-- The folder of the project to which the command keeps. -/
  codeFolder : Option String := none
  /-- Whether scripts are parsed. -/
  preferStructured : Bool := false
  /-- The grammar of the diagram. -/
  grammar : Option Grammar := none
  /-- The most levels of a call tree. -/
  maxDepth : Option Nat := none
  /-- The form in which the analysis is printed. -/
  format : Option OutputFormat := none
  /-- The file to write to. -/
  output : Option String := none

/-- The value of an option that has none so far, or a fault. -/
def once {α : Type} (old : Option α) (new : Option α) : Except Stop (Option α) :=
  match old, new with
  | none, some a => .ok (some a)
  | _, _ => .error .usage

/-- A path that is not empty. -/
def path? (value : String) : Option String :=
  if value.isEmpty then none else some value

/-- A number of 64 bits. -/
def number? (value : String) : Option Nat :=
  let digits := match value.toList with
    | '+' :: rest => rest
    | cs => cs
  let n := digits.foldl (fun n c => n * 10 + (c.toNat - '0'.toNat)) 0
  if !digits.isEmpty && digits.all Char.isDigit && n ≤ 18446744073709551615 then some n else none

/-- The form of the given name. -/
def format? : String → Option OutputFormat
  | "text" => some .text
  | "json" => some .json
  | _ => none

namespace Draft

/-- The draft with an option set to a value. -/
def assign (draft : Draft) (value : String) : Switch → Except Stop Draft
  | .language => return { draft with language := ← once draft.language (some value) }
  | .settingsFile =>
    return { draft with settingsFile := ← once draft.settingsFile (path? value) }
  | .codeFolder => return { draft with codeFolder := ← once draft.codeFolder (some value) }
  | .grammar => return { draft with grammar := ← once draft.grammar (Grammar.ofHint value).toOption }
  | .maxDepth => return { draft with maxDepth := ← once draft.maxDepth (number? value) }
  | .format => return { draft with format := ← once draft.format (format? value) }
  | .output => return { draft with output := ← once draft.output (path? value) }
  | _ => .error .usage

/-- The draft with an option given that has no value. -/
def mark (draft : Draft) : Switch → Except Stop Draft
  | .verbose => .ok draft
  | .help => .error .help
  | .version => .error .version
  | .preferStructured =>
    if draft.preferStructured then .error .usage else .ok { draft with preferStructured := true }
  | _ => .error .usage

/-- The draft with its folder. -/
def place (draft : Draft) (value : String) : Except Stop Draft := do
  return { draft with root := ← once draft.root (path? value) }

/-- What the finished draft says about the project; its folder must be known. -/
def project (draft : Draft) : Except Stop ProjectOptions :=
  match draft.root with
  | some root =>
    .ok ⟨root, draft.language, draft.settingsFile, draft.codeFolder, draft.preferStructured,
      draft.output⟩
  | none => .error .usage

end Draft

/-- What has been read of a command, and the option that waits for its value. -/
abbrev Reading : Type := Draft × Option Switch

/-- Reads what stands behind the name of an option with a value: the value, perhaps after an equals
sign, or nothing if the value is the argument after it. -/
def readValue (draft : Draft) (switch : Switch) : List Char → Except Stop Reading
  | [] => .ok (draft, some switch)
  | '=' :: value => do return (← draft.assign (String.ofList value) switch, none)
  | value => do return (← draft.assign (String.ofList value) switch, none)

/-- Reads the letters of an argument with one hyphen; letters after that of an option with a value
are its value. -/
def readLetters (allowed : List Switch) (draft : Draft) : List Char → Except Stop Reading
  | [] => .ok (draft, none)
  | c :: cs =>
    match allowed.find? (·.letter? == some c) with
    | none => .error .usage
    | some switch =>
      if switch.hasValue then readValue draft switch cs
      else do readLetters allowed (← draft.mark switch) cs

/-- Reads an argument with two hyphens, of which these are left out. -/
def readWord (allowed : List Switch) (draft : Draft) (arg : List Char) : Except Stop Reading :=
  let word := String.ofList (arg.takeWhile (· != '='))
  let rest := arg.dropWhile (· != '=')
  match allowed.find? (·.word == word) with
  | none => .error .usage
  | some switch =>
    if switch.hasValue then readValue draft switch rest
    else if rest.isEmpty then do return (← draft.mark switch, none)
    else .error .usage

/-- The form of an argument. -/
inductive ArgumentForm where
  /-- Two hyphens alone. -/
  | separator
  /-- A word after two hyphens. -/
  | word (word : List Char)
  /-- Letters after one hyphen. -/
  | letters (letters : List Char)
  /-- Anything else. -/
  | plain

/-- The form of the given argument. -/
def argumentForm : List Char → ArgumentForm
  | ['-', '-'] => .separator
  | '-' :: '-' :: word => .word word
  | '-' :: c :: cs => .letters (c :: cs)
  | _ => .plain

/-- Reads one argument of a command; `literal` says whether two hyphens alone came before, after
which nothing is an option, and the result says so for the arguments that follow. -/
def readOption (allowed : List Switch) (literal : Bool) (reading : Reading) (arg : String) :
    Except Stop (Bool × Reading) :=
  let draft := reading.1
  match literal, reading.2, argumentForm arg.toList with
  | true, _, _ => do return (true, ← draft.place arg, none)
  | false, some switch, .plain => do return (false, ← draft.assign arg switch, none)
  | false, some _, _ => .error .usage
  | false, none, .separator => .ok (true, draft, none)
  | false, none, .word word => do return (false, ← readWord allowed draft word)
  | false, none, .letters letters => do return (false, ← readLetters allowed draft letters)
  | false, none, .plain => do return (false, ← draft.place arg, none)

/-- Reads the arguments of a command; at the end no option waits for its value. -/
def readOptions (allowed : List Switch) :
    Bool → Reading → List String → Except Stop Draft
  | _, (draft, none), [] => .ok draft
  | _, (_, some _), [] => .error .usage
  | literal, reading, arg :: args => do
    let (literal, reading) ← readOption allowed literal reading arg
    readOptions allowed literal reading args

/-- The names of the commands, of which the last explains the others. -/
def commandNames : List String := ["analyze", "functions", "help"]

/-- Reads a command by its name and its arguments. -/
def readCommand : String → List String → Except Stop Request
  | "analyze", args => do
    let draft ← readOptions Switch.forAnalyze false ({}, none) args
    return .run (.analyze (← draft.project) draft.grammar draft.maxDepth
      (draft.format.getD .text))
  | "functions", args => do
    let draft ← readOptions Switch.forFunctions false ({}, none) args
    return .run (.functions (← draft.project))
  | "help", [] => return .help
  | "help", [name] => if name ∈ commandNames then return .help else throw .usage
  | _, _ => throw .usage

/-- Reads the arguments of the program: general options and then a command. -/
def readArguments : List String → Except Stop Request
  | [] => .error .usage
  | arg :: args =>
    match argumentForm arg.toList with
    | .separator => .error .usage
    | .word word => do
      let _ ← readWord Switch.general {} word
      readArguments args
    | .letters letters => do
      let _ ← readLetters Switch.general {} letters
      readArguments args
    | .plain => readCommand arg args

/-- What the arguments ask for; nothing if they are not valid. -/
def request? (args : List String) : Option Request :=
  match readArguments args with
  | .ok request => some request
  | .error .help => some .help
  | .error .version => some .version
  | .error .usage => none

end CallAtlas.CommandLine
