import Conduit.Json.Shape
import Conduit.Message
import Conduit.Stage.Field

/-!
# Routing

What every stage is configured with besides its own parameters: a label, the representation it
expects, and where messages go from it. An empty target counts as none.
-/

namespace Conduit.Stage

open Json

structure Routing where
  /-- The label that other stages name as a target. -/
  name : Option String := none
  /-- The view that a message must have, if any. -/
  expect : Option Representation := none
  /-- Turns the decision of the stage around. -/
  negate : Bool := false
  /-- The fan-out queues that receive a copy on every visit. -/
  redirect : List String := []
  /-- Merged into the metadata of a message before the stage sees it. -/
  metadata : Members := []
  goto : Option String := none
  gotoPassed : Option String := none
  gotoRejected : Option String := none
deriving DecidableEq

/-- The target that names the end of the chain. -/
def outTarget : String := "out"

namespace Routing

def nonEmpty (target : Option String) : Option String := target.filter (· ≠ "")

def label (r : Routing) : Option String := nonEmpty r.name

def next (r : Routing) : Option String := nonEmpty r.goto

def passed (r : Routing) : Option String := nonEmpty r.gotoPassed

def rejected (r : Routing) : Option String := nonEmpty r.gotoRejected

def expectations : List (String × Option Representation) :=
  [("any", none), ("raw", some .raw), ("document", some .document),
    ("binary_map", some .binaryMap)]

/-- The fields as they describe themselves, the type of the stage among them. -/
def fields : List Field :=
  [.require "type" .string, .mayHave "name" .string,
    .mayHave "expect" .string (some "any") (expectations.map Prod.fst),
    .mayHave "not" .boolean (some "false"), .mayHave "redirect" .array,
    .mayHave "metadata" .object, .mayHave "goto" .string, .mayHave "goto_passed" .string,
    .mayHave "goto_rejected" .string]

/-! ## Reading and writing -/

def target : Shape (Option String) := .optional .string

def expectation : Shape (Option Representation) := .choice .unitOrEmpty expectations

def redirects : Shape (List String) := .list .string

/-- The fields as they are read. -/
def shapes : List (String × Shape Unit) :=
  [("name", target.check), ("expect", expectation.check), ("not", Shape.flag.check),
    ("redirect", redirects.check), ("metadata", Shape.members.check), ("goto", target.check),
    ("goto_passed", target.check), ("goto_rejected", target.check)]

/-- Whether a member of a stage entry belongs to its routing. -/
def isField (name : String) : Bool := (shapes.lookup name).isSome

/-- Checks routing fields in their order; none may come twice. -/
def checkOnce : (seen : List String) → List (String × Value) → Except Mismatch Unit
  | _, [] => .ok ()
  | seen, (name, v) :: rest =>
    match shapes.lookup name with
    | none => checkOnce seen rest
    | some check =>
      if seen.contains name then .error (.duplicateField name)
      else do
        check v
        checkOnce (name :: seen) rest

/-- The routing among the members of a stage entry. -/
def ofMembers (ms : List (String × Value)) : Except Mismatch Routing := do
  checkOnce [] ms
  return {
    name := ← withDefault ms "name" target none
    expect := ← withDefault ms "expect" expectation none
    negate := ← withDefault ms "not" .flag false
    redirect := ← withDefault ms "redirect" redirects []
    metadata := ← withDefault ms "metadata" .members []
    goto := ← withDefault ms "goto" target none
    gotoPassed := ← withDefault ms "goto_passed" target none
    gotoRejected := ← withDefault ms "goto_rejected" target none }

def textMember (name : String) : Option String → Members
  | some text => [(name, .string text)]
  | none => []

/-- The members of a stage entry that say something about its routing. -/
def toMembers (r : Routing) : Members :=
  textMember "name" r.name ++ textMember "expect" (r.expect.map Representation.name) ++
  (if r.negate then [("not", .bool true)] else []) ++
  (if r.redirect.isEmpty then [] else [("redirect", .array (r.redirect.map .string))]) ++
  (if r.metadata.isEmpty then [] else [("metadata", .object r.metadata)]) ++
  textMember "goto" r.goto ++ textMember "goto_passed" r.gotoPassed ++
  textMember "goto_rejected" r.gotoRejected

end Routing

end Conduit.Stage
