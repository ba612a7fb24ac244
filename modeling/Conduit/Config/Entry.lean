import Conduit.Json.Record
import Conduit.Stage.Routing

/-!
# Entries

An entry of a configuration is an object whose `type` says what it is an entry of. The members that
are not its own are the parameters of that type. An entry is read as a whole before its members are
looked at, so what is wrong with them is placed behind it.
-/

namespace Conduit.Config

open Json Stage

/-- The type of an entry and its other members, the latest first. -/
structure Tagged where
  type : Option String := none
  others : List (String × Value) := []

def Tagged.readMember (depth : Nat) (t : Tagged) (key : String) (s : Bytes) :
    Except Fault (Tagged × Bytes) := do
  if key = "type" then
    let (type, rest) ← readField key t.type (readScalar .string) s
    return ({ t with type }, rest)
  else
    let rest ← readColon s
    let (v, rest) ← readValue (2 * rest.length + 2) depth rest
    return ({ t with others := (key, v) :: t.others }, rest)

/-- Reads an entry: its type and all other members, of which `finish` makes the whole. -/
def readTagged (expected : String) (finish : String → List (String × Value) → Except Mismatch α)
    (depth : Nat) : Reader α :=
  readObject expected depth ({} : Tagged) Tagged.readMember fun t =>
    match t.type with
    | some type => finish type t.others.reverse
    | none => .error (.missingField "type")

structure StageEntry where
  type : String
  routing : Routing := {}
  params : Members := []
deriving DecidableEq

namespace StageEntry

/-- The entry of a type with the other members of an object. -/
def ofMembers (type : String) (ms : List (String × Value)) : Except Mismatch StageEntry := do
  let routing ← Routing.ofMembers ms
  return { type, routing, params := .ofList (ms.filter fun m => !Routing.isField m.1) }

def read (depth : Nat) : Reader StageEntry := readTagged "struct StageConfig" ofMembers depth

def toValue (e : StageEntry) : Value :=
  .object (("type", .string e.type) :: (e.routing.toMembers ++ e.params))

end StageEntry

structure ConnectorEntry where
  type : String
  params : Members := []
deriving DecidableEq

namespace ConnectorEntry

def read (depth : Nat) : Reader ConnectorEntry :=
  readTagged "struct ConnectorConfig" (fun type ms => return { type, params := .ofList ms }) depth

def toValue (e : ConnectorEntry) : Value := .object (("type", .string e.type) :: e.params)

end ConnectorEntry

/-- Reads a whole text with a reader that is told how deep it may go. -/
def readText (reader : (depth : Nat) → Reader α) (input : Bytes) : Except String α :=
  (runReader (reader maxDepth) input).mapError (·.message input)

end Conduit.Config
