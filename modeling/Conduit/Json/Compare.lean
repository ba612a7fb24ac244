import Conduit.Number.Reading
import Conduit.Text.Blank
import Conduit.Json.Basic

/-!
# Comparing values

Two values are ordered when both read as numbers, or when both are strings. Values that are not
ordered can still be equal.
-/

namespace Conduit

inductive Operator
  | eq | ne | gt | ge | lt | le
deriving DecidableEq, Repr

namespace Operator

def ofName? : String → Option Operator
  | "==" | "eq" => some .eq
  | "!=" | "ne" => some .ne
  | ">" | "gt" => some .gt
  | ">=" | "ge" => some .ge
  | "<" | "lt" => some .lt
  | "<=" | "le" => some .le
  | _ => none

/-- Whether an order of two things is one that the operator asks for. -/
def allows : Operator → Ordering → Bool
  | .eq, o => o == .eq
  | .ne, o => o != .eq
  | .gt, o => o == .gt
  | .ge, o => o != .lt
  | .lt, o => o == .lt
  | .le, o => o != .gt

end Operator

namespace Value

/-- The number that a value is or, with blank space around it, spells. -/
def asNumber? : Value → Option Double
  | .number n => some n.toDouble
  | .string s => Number.double? (Text.trim s)
  | _ => none

/-- How two values are ordered, if they are. Numbers come first: strings that both spell numbers
are ordered as those, all other strings by their characters. -/
def order? (a b : Value) : Option Ordering :=
  match a.asNumber?, b.asNumber? with
  | some x, some y => x.order y
  | _, _ =>
    match a, b with
    | .string s, .string t => some (compare s t)
    | _, _ => none

/-- Whether the operator holds between two values. -/
def compare (a : Value) (op : Operator) (b : Value) : Bool :=
  match a.order? b with
  | some o => op.allows o
  | none =>
    match op with
    | .eq => a.same b
    | .ne => !a.same b
    | _ => false

end Value

end Conduit
