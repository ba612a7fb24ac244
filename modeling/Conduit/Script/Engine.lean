import Conduit.Script.Eval
import Conduit.Script.Parser
import Conduit.Dictionary
import Conduit.Error

/-!
# Scripts on messages

A script sees a message through the variables `payload`, `topic`, `metadata` and `accept`, and
changes it by giving them new values. Compiled scripts are kept by their source, so a source is
compiled once, and the name under which it was first compiled stays with it.
-/

namespace Conduit.Script

structure Compiled where
  name : String
  source : String
  program : Program

abbrev Cache := Dictionary Compiled

/-- Compiles a source, or takes it from the cache. -/
def Cache.compile (cache : Cache) (name source : String) : Except BridgeError Compiled × Cache :=
  match cache.get? source with
  | some script => (.ok script, cache)
  | none =>
    match Program.parse? source with
    | some program => (.ok ⟨name, source, program⟩, cache.insert source ⟨name, source, program⟩)
    | none => (.error (.script "Compilation error: the source is not a program"), cache)

def validate (source : String) : Except BridgeError Unit :=
  match Program.parse? source with
  | some _ => .ok ()
  | none => .error (.script "Validation error: the source is not a program")

/-! ## Running -/

/-- A message as a script sees it. -/
structure Input where
  payload : Datum
  topic : String
  metadata : Datum

structure Output where
  payload : Datum
  topic : String
  metadata : Datum
  accept : Bool

inductive Outcome
  | done (out : Output)
  | failed (e : BridgeError)
  /-- A function of the host broke down. -/
  | crashed

def Trouble.message : Trouble → String
  | .raised d => "Runtime error: " ++ d.display
  | .fault _ problem => problem
  | .exhausted => "Too many operations"

def Input.scope (input : Input) : List Binding :=
  [{ name := "accept", value := .bool true }, { name := "metadata", value := input.metadata },
    { name := "topic", value := .text input.topic }, { name := "payload", value := input.payload }]

def valueOf? (scope : List Binding) (name : String) : Option Datum :=
  (scope.find? (·.name == name)).map (·.value)

/-- What the variables say once the script has ended. Its result, if a truth value, overrides
`accept`. -/
def Output.ofScope (result : Datum) (scope : List Binding) : Except BridgeError Output := do
  let accept ← match result, valueOf? scope "accept" with
    | .bool b, _ => pure b
    | _, some (.bool b) => pure b
    | _, _ => .error (.script "`accept` must stay a boolean")
  let topic ← match valueOf? scope "topic" with
    | some (.text s) => pure s
    | _ => .error (.script "`topic` must stay a string")
  return {
    payload := (valueOf? scope "payload").getD .unit
    topic
    metadata := (valueOf? scope "metadata").getD .unit
    accept }

def Compiled.execute (script : Compiled) (input : Input) (setting : Library.Setting) : Outcome :=
  match script.program.run setting input.scope with
  | .error (.brokeDown _) => .crashed
  | .error (.trouble t) =>
    .failed (.withContext ("Execution error in '" ++ script.name ++ "'") (.script t.message))
  | .ok (result, scope) =>
    match Output.ofScope result scope with
    | .ok out => .done out
    | .error e => .failed e

/-- A value of a script as JSON. -/
def toJson (d : Datum) : Except BridgeError Value :=
  match d.toValue? with
  | some v => .ok v
  | none => .error (.script ("Conversion error: " ++ d.typeName ++ " is not JSON"))

/-! ## Ready-made scripts -/

namespace Ready

/-- Accept everything unchanged. -/
def pass : String := "true"

/-- Accept documents that carry a non-empty `id`. -/
def requireId : String :=
  "\ntype_of(payload) == \"map\" && \"id\" in payload && payload.id != \"\"\n"

/-- Record the order of arrival in the metadata. -/
def sequenceMetadata : String :=
  "\nmetadata.seq = count();\nmetadata.received_ms = now_ms();\n"

/-- Wrap any payload into a record of topic and data. -/
def envelope : String := "\npayload = #\x7b topic: topic, data: payload \x7d;\n"

def all : List (String × String) :=
  [("Pass", pass), ("Require id", requireId), ("Sequence metadata", sequenceMetadata),
    ("Envelope", envelope)]

end Ready

end Conduit.Script
