import Conduit.Script.Engine
import Conduit.Stage.Deciders

/-!
# Scripted stages

A scripted stage runs a program on every message. Documents become records and lists, text a
string, other bytes a blob and a binary map a record of blobs. On the way back a string or a blob
becomes a raw payload, the unit leaves the payload alone, and any other value becomes a document.
-/

namespace Conduit.Stage

open Json Script

structure Scripted where
  script : Compiled
  /-- When the stage was last started. -/
  started : Instant := 0
  /-- When the latest message came. -/
  latest : Option Instant := none
  /-- How many messages have come. -/
  count : Int := 0

namespace Scripted

def fields : List Field := [.require "script" .string]

def shapes : List (String × Shape Unit) := [("script", Shape.string.check)]

def scriptError (e : BridgeError) : PipelineError := .script e.message

def ofSource (source : String) : Except PipelineError Scripted := do
  let script ← ((Cache.compile .empty "stage" source).1).mapError scriptError
  return { script }

def ofParams (ms : Members) : Except PipelineError Scripted := do
  ofSource (← readParams shapes ms fun ms => required ms "script" .string)

def payloadDatum : Payload → Datum
  | .document v => .ofValue v
  | .binaryMap fields => .record (fields.entries.map fun f => (f.1, .blob f.2))
  | .raw bytes =>
    match Utf8.decode bytes with
    | .ok text => .text text
    | .error _ => .blob bytes

/-- The message with the payload that a script leaves. -/
def withPayload (m : Message) : Datum → Except PipelineError Message
  | .unit => .ok m
  | .text s => .ok (m.withRaw (Utf8.encode s))
  | .blob bytes => .ok (m.withRaw bytes)
  | d => ((toJson d).map m.withDocument).mapError scriptError

/-- The metadata that a script leaves; the unit leaves them alone. -/
def newMetadata (old : Value) : Datum → Except PipelineError Value
  | .unit => .ok old
  | d =>
    match toJson d with
    | .error e => .error (scriptError e)
    | .ok (.object ms) => .ok (.object ms)
    | .ok _ => .error (.script "`metadata` must stay a map")

/-- The wrapper with all that a script leaves. -/
def leave (w : Wrapper) (out : Script.Output) : Except PipelineError Wrapper := do
  let working ← withPayload w.working out.payload
  let metadata ← newMetadata w.metadata out.metadata
  return { w with working := working.withTopic out.topic, metadata, accepted := out.accept }

/-- Seconds between two times. -/
def seconds (start now : Instant) : Double := Double.ofRatio false (now - start) 1000000

def setting (s : Scripted) (now : Instant) : Library.Setting where
  time := seconds s.started now
  elapsed := match s.latest with
    | some before => seconds before now
    | none => Double.ofInt 0
  count := s.count
  nowMs := 1700000000000 + now / 1000

/-- A message as it is shown to the script. -/
def input (w : Wrapper) : Script.Input where
  payload := payloadDatum w.working.payload
  topic := w.working.topic
  metadata := .ofValue w.metadata

def process (moment : Moment) (s : Scripted) (w : Wrapper) : Response Scripted :=
  let next := { s with latest := some moment.now, count := min (s.count + 1) (0x8000000000000000 - 1) }
  { state := next
    outcome := match s.script.execute (input w) (s.setting moment.now) with
      | .crashed => .crashed
      | .failed e => .failed (scriptError e)
      | .done out =>
        match leave w out with
        | .ok w => .done w
        | .error e => .failed e }

def start (now : Instant) (s : Scripted) : Scripted := { s with started := now, latest := none }

end Scripted

end Conduit.Stage
