/-!
# TOML tables

The values of a TOML document, and the growth of a table by headers and by entries.  A table
remembers how it came about, because that decides what may still be added to it.
-/

set_option autoImplicit false

namespace CallAtlas.Toml

/-- How a table came about. -/
inductive TableForm where
  /-- By a header of its own, or as the table of the whole document. -/
  | headed
  /-- By the header of a table below it. -/
  | implied
  /-- By a key with dots in it. -/
  | dotted
  /-- In braces, which close it for good. -/
  | inline
  deriving Repr, DecidableEq

/-- A value of a TOML document. -/
inductive Value where
  /-- A string. -/
  | text (s : String)
  /-- An integer. -/
  | integer (n : Int)
  /-- A number with a fraction or an exponent, or one of the special numbers, as it is written. -/
  | float (written : String)
  /-- A truth value. -/
  | boolean (b : Bool)
  /-- A date, a time or both, as it is written. -/
  | moment (written : String)
  /-- An array. -/
  | array (items : List Value)
  /-- A table with its entries in the order they were added. -/
  | table (form : TableForm) (entries : List (String × Value))
  /-- An array of tables that grows by headers; the newest table comes first. -/
  | tables (newest : List (String × Value)) (older : List (List (String × Value)))

namespace Value

/-- The string that a value is. -/
def text? : Value → Option String
  | text s => some s
  | _ => none

/-- The natural number that a value is. -/
def natural? : Value → Option Nat
  | integer n => if 0 ≤ n then some n.toNat else none
  | _ => none

/-- The truth value that a value is. -/
def boolean? : Value → Option Bool
  | boolean b => some b
  | _ => none

/-- The strings of an array of strings. -/
def texts? : Value → Option (List String)
  | array items => items.mapM text?
  | _ => none

/-- The entries of a value that is one table. -/
def entries? : Value → Option (List (String × Value))
  | table _ entries => some entries
  | _ => none

/-- Whether a value is an array or a table without items. -/
def isEmpty : Value → Bool
  | array items => items.isEmpty
  | table _ entries => entries.isEmpty
  | _ => false

end Value

/-- The entries of a table. -/
abbrev Entries : Type := List (String × Value)

namespace Entries

/-- The value of a key. -/
def get? (entries : Entries) (key : String) : Option Value :=
  (entries.find? (·.1 == key)).map (·.2)

/-- The entries with the value of a key replaced, or added at the end. -/
def put (entries : Entries) (key : String) (value : Value) : Entries :=
  match entries with
  | [] => [(key, value)]
  | e :: rest => if e.1 == key then (key, value) :: rest else e :: put rest key value

/-- Changes the table that a path leads to, and makes the tables on the way that do not exist.
The path is part of a dotted key or of a header; a dotted key does not lead into a table that has
a header of its own, and nothing leads into a table in braces. -/
def within (dotted : Bool) (change : TableForm → Entries → Option Entries) :
    List String → TableForm → Entries → Option Entries
  | [], form, entries => change form entries
  | key :: path, _, entries =>
    match get? entries key with
    | none =>
      let form := if dotted then TableForm.dotted else .implied
      (within dotted change path form []).map fun inner => put entries key (.table form inner)
    | some (.table form inner) =>
      if form == .inline || (dotted && form == .headed) then none
      else (within dotted change path form inner).map fun inner => put entries key (.table form inner)
    | some (.tables newest older) =>
      (within dotted change path .headed newest).map fun newest =>
        put entries key (.tables newest older)
    | some _ => none

/-- Adds an entry at the end of a dotted key's path.  A plain key does not reach a table made by
dotted keys, nor does a dotted key reach any other table. -/
def addLeaf (plain : Bool) (key : String) (value : Value) (form : TableForm) (entries : Entries) :
    Option Entries :=
  if (form == .dotted) == plain || (get? entries key).isSome then none
  else some (put entries key value)

/-- Adds the entry of a dotted key, given as its path and its last part. -/
def addEntry (path : List String) (key : String) (value : Value) (form : TableForm)
    (entries : Entries) : Option Entries :=
  within true (addLeaf path.isEmpty key value) path form entries

/-- Begins the table of a header at its last key: a table that is new or only implied so far. -/
def beginTable (key : String) (_ : TableForm) (entries : Entries) : Option Entries :=
  match get? entries key with
  | none => some (put entries key (.table .headed []))
  | some (.table .implied inner) => some (put entries key (.table .headed inner))
  | some _ => none

/-- Begins one more table of an array of tables. -/
def beginElement (key : String) (_ : TableForm) (entries : Entries) : Option Entries :=
  match get? entries key with
  | none => some (put entries key (.tables [] []))
  | some (.tables newest older) => some (put entries key (.tables [] (newest :: older)))
  | some _ => none

end Entries

end CallAtlas.Toml
