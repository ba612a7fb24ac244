import Conduit.Config.Entry
import Conduit.Config.Settings
import Conduit.Connector.Session

/-!
# Building connectors

A connector is built from its entry for one direction. A queue connector makes its fan-out queue at
once, whether it is ever connected or not.
-/

namespace Conduit.Connector

open Json Config

def readParams (e : ConnectorEntry) (shapes : List (String × Shape Unit))
    (build : Members → Except Mismatch α) : Except PipelineError α :=
  (do checkFields shapes e.params; build e.params : Except Mismatch α).mapError fun m =>
    .config ("connector '" ++ e.type ++ "': " ++ m.message)

def unsupported (e : ConnectorEntry) (d : Direction) : PipelineError :=
  .config ("connector '" ++ e.type ++ "' cannot be used as " ++ d.name)

def capacityShape : Shape (Option Nat) := .optional .size

def buildQueue (e : ConnectorEntry) (d : Direction) (sizing : Sizing) :
    Except PipelineError Connector := do
  let (name, capacity) ←
    readParams e [("name", Shape.string.check), ("capacity", capacityShape.check)] fun ms => do
      let name ← required ms "name" .string
      return (name, ← withDefault ms "capacity" capacityShape none)
  if name = "" then throw (.config "queue name must not be empty")
  return .queue d name (capacity.getD sizing.fanout) none

def buildNull (e : ConnectorEntry) : Except PipelineError Connector :=
  readParams e [] fun _ => return .null false

def buildLog (e : ConnectorEntry) : Except PipelineError Connector :=
  readParams e [("prefix", Shape.string.check)] fun ms =>
    return .log (← withDefault ms "prefix" .string "")

def topicShape : Shape (Option String) := .optional .string

/-- The path, the topic if one is given, and whether lines are JSON. -/
def fileParams (e : ConnectorEntry) : Except PipelineError (String × Option String × Bool) :=
  readParams e [("path", Shape.path.check), ("topic", topicShape.check), ("json", Shape.flag.check)]
    fun ms => do
      let path ← required ms "path" .path
      let topic ← withDefault ms "topic" topicShape none
      return (path, topic, ← withDefault ms "json" .flag false)

def buildSource (e : ConnectorEntry) : Except PipelineError Connector := do
  let (path, topic, json) ← fileParams e
  return .source path (topic.getD path) json none false

def buildSink (e : ConnectorEntry) : Except PipelineError Connector := do
  let (path, _, _) ← fileParams e
  return .sink path false

/-- A text is sent as it is, any other value as a document. -/
def intervalMessage (topic : String) : Value → Message
  | .string text => .ofRaw topic (Utf8.encode text)
  | v => .ofDocument topic v

def buildInterval (e : ConnectorEntry) : Except PipelineError Connector := do
  let (payload, period, topic) ←
    readParams e [("payload", Shape.anything.check), ("period_ms", Shape.word64.check),
      ("topic", Shape.string.check)] fun ms => do
        let payload ← required ms "payload" .anything
        let period ← withDefault ms "period_ms" .word64 1000
        return (payload, period, ← withDefault ms "topic" .string "interval")
  if period = 0 then throw (.config "interval period_ms must be positive")
  return .interval (intervalMessage topic payload) (1000 * period) false

/-- Builds a connector for one side of a pipeline. -/
def build (e : ConnectorEntry) (d : Direction) (sizing : Sizing) :
    Except PipelineError Connector :=
  match e.type, d with
  | "queue", d => buildQueue e d sizing
  | "null", _ => buildNull e
  | "log", .outbound => buildLog e
  | "file", .inbound => buildSource e
  | "file", .outbound => buildSink e
  | "interval", .inbound => buildInterval e
  | "log", d | "interval", d => .error (unsupported e d)
  | type, _ => .error (.unknownConnectorType type)

/-- Enters a connector that was built: the fan-out queue of a queue connector is made. -/
def enter (c : Connector) (d : Directory) : Directory :=
  match c with
  | .queue _ name _ _ => d.create name
  | _ => d

end Conduit.Connector
