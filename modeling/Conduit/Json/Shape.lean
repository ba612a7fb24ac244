import Conduit.Json.Fault

/-!
# Shapes of values

A shape takes the values of one form to what they mean, and says of every other value why it is not
of that form. A record is an object with a fixed set of fields.
-/

namespace Conduit.Json

abbrev Shape (α : Type) := Value → Except Mismatch α

namespace Shape

def anything : Shape Value := .ok

def text (expected : String) : Shape String
  | .string s => .ok s
  | v => .error (.type (.ofValue v) expected)

def string : Shape String := text "a string"

def path : Shape String := text "path string"

def flag : Shape Bool
  | .bool b => .ok b
  | v => .error (.type (.ofValue v) "a boolean")

/-- A whole number from zero up to but without `bound`. -/
def word (expected : String) (bound : Nat) : Shape Nat
  | .number (.whole n) =>
    if 0 ≤ n.val ∧ n.val < bound then .ok n.val.toNat
    else .error (.value (.number (.whole n)) expected)
  | v => .error (.type (.ofValue v) expected)

def size : Shape Nat := word "usize" 0x10000000000000000

def word64 : Shape Nat := word "u64" 0x10000000000000000

def word32 : Shape Nat := word "u32" 0x100000000

def members : Shape Members
  | .object ms => .ok ms
  | v => .error (.type (.ofValue v) "a map")

def items (item : Shape α) : List Value → Except Mismatch (List α)
  | [] => .ok []
  | v :: rest => do
    let a ← item v
    let as ← items item rest
    return a :: as

def list (item : Shape α) : Shape (List α)
  | .array vs => items item vs
  | v => .error (.type (.ofValue v) "a sequence")

/-- The value, or null for none. -/
def optional (shape : Shape α) : Shape (Option α)
  | .null => .ok none
  | v => (shape v).map some

def unit : Shape Unit
  | .null => .ok ()
  | v => .error (.type (.ofValue v) "unit")

/-- Nothing, written as null or as an empty object. -/
def unitOrEmpty : Shape Unit
  | .null | .object [] => .ok ()
  | v => .error (.type (.ofValue v) "unit")

/-- One of the named things. A name may also stand as the only key of an object, over a value that
says nothing. -/
def choice (nothing : Shape Unit) (options : List (String × α)) : Shape α
  | .string name => pick name
  | .object [(name, v)] => do
    let a ← pick name
    nothing v
    return a
  | .object _ => .error (.value .map "map with a single key")
  | v => .error (.type (.ofValue v) "string or map")
where
  pick (name : String) : Except Mismatch α :=
    match options.lookup name with
    | some a => .ok a
    | none => .error (.unknownVariant name (options.map Prod.fst))

/-- The shape as a check only. -/
def check (shape : Shape α) : Shape Unit := fun v => (shape v).map fun _ => ()

end Shape

/-! ## Records -/

/-- Checks the members of a record in their order: each must be a known field of its shape. -/
def checkFields (fields : List (String × Shape Unit)) : Members → Except Mismatch Unit
  | [] => .ok ()
  | (name, v) :: rest =>
    match fields.lookup name with
    | none => .error (.unknownField name (fields.map Prod.fst))
    | some check => do
      check v
      checkFields fields rest

def required (ms : Members) (name : String) (shape : Shape α) : Except Mismatch α :=
  match ms.get? name with
  | some v => shape v
  | none => .error (.missingField name)

def withDefault (ms : Members) (name : String) (shape : Shape α) (default : α) :
    Except Mismatch α :=
  match ms.get? name with
  | some v => shape v
  | none => .ok default

end Conduit.Json
