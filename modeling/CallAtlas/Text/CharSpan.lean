/-!
# Spans of code points

A property of characters is stored as a list of strided spans, and a case mapping as a list of
spans whose members all move by one offset.
-/

set_option autoImplicit false

namespace CallAtlas.Text

/-- The code points `first`, `first + step`, …, up to `last`. -/
structure CharSpan where
  /-- The least member. -/
  first : Nat
  /-- The greatest member. -/
  last : Nat
  /-- The distance between neighbours. -/
  step : Nat
  deriving Repr, DecidableEq

/-- A code point belongs to a span when it lies between the ends, a whole number of steps on. -/
def CharSpan.contains (s : CharSpan) (n : Nat) : Bool :=
  Nat.ble s.first n && Nat.ble n s.last && (n - s.first) % s.step == 0

/-- A code point belongs to a list of spans when it belongs to one of them. -/
def inSpans (spans : List CharSpan) (n : Nat) : Bool :=
  spans.any (·.contains n)

/-- A span whose members are all mapped by adding `offset`. -/
structure CharShift where
  /-- The code points that are mapped. -/
  span : CharSpan
  /-- What is added to each of them. -/
  offset : Int
  deriving Repr, DecidableEq

/-- A code point is moved by the first shift whose span holds it, and otherwise stays. -/
def shifted (shifts : List CharShift) (n : Nat) : Nat :=
  match shifts.find? (·.span.contains n) with
  | some s => (n + s.offset).toNat
  | none => n

end CallAtlas.Text
