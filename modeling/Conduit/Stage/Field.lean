import Conduit.Error
import Conduit.Json.Shape

/-!
# Fields and parameters

What a stage says about the fields of its configuration: the name and the kind of each, whether it
must be there, and what it means when it is not. The parameters of a stage are the members of its
entry that are not those of every entry; they are read as a record.
-/

namespace Conduit.Stage

inductive FieldKind
  | string | integer | number | boolean | object | array | any
deriving DecidableEq, Repr

def FieldKind.name : FieldKind → String
  | .string => "string"
  | .integer => "integer"
  | .number => "number"
  | .boolean => "boolean"
  | .object => "object"
  | .array => "array"
  | .any => "any"

structure Field where
  name : String
  kind : FieldKind
  required : Bool
  /-- The default as a text, to be read according to the kind. -/
  default : Option String := none
  /-- The texts allowed, or none for no restriction. -/
  allowed : List String := []
deriving DecidableEq, Repr

namespace Field

def require (name : String) (kind : FieldKind) (allowed : List String := []) : Field :=
  { name, kind, required := true, allowed }

def mayHave (name : String) (kind : FieldKind) (default : Option String := none)
    (allowed : List String := []) : Field :=
  { name, kind, required := false, default, allowed }

end Field

/-! ## Parameters -/

open Json in
/-- Reads parameters: first every member is checked in its order, then the record is built. -/
def readParams (shapes : List (String × Shape Unit)) (ms : Members)
    (build : Members → Except Mismatch α) : Except PipelineError α :=
  (do checkFields shapes ms; build ms : Except Mismatch α).mapError fun m => .config m.message

end Conduit.Stage
