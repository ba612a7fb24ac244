import Conduit.Chain.Alarm
import Conduit.Config.Settings
import Conduit.Pipeline.Board

/-!
# The machine of a pipeline

A running pipeline has three workers, joined by queues: one receives messages, one sends them
through the chain, one sends on what the chain delivers. A controller takes the requests of the
host, starts runs and tears them down. This file says where each of them can be; the steps are in
`Conduit.Pipeline.Step`.
-/

namespace Conduit

inductive Worker
  | receive
  | process
  | send
deriving DecidableEq, Repr

def Worker.name : Worker → String
  | .receive => "receive"
  | .process => "process"
  | .send => "send"

/-- A worker on its way out. A broken worker does not give back what it was lent. -/
inductive Exit
  | failing (text : String) (broken : Bool)
  | reporting (broken : Bool)
  | gone (broken : Bool)
deriving DecidableEq, Repr

namespace Exit

def quiet : Exit := .gone false

/-- The way out of a worker that breaks down. -/
def broken (w : Worker) : Exit := .failing (w.name ++ " thread panicked") true

end Exit

inductive Receiver
  /-- Looks whether it is to go on. -/
  | testing
  /-- Is in the inbound connector. -/
  | receiving
  /-- Puts a message into the queue. -/
  | queueing (m : Message)
  /-- Wakes the processor up. -/
  | waking
  /-- Has got an error from the connector. -/
  | refused (e : ConnectorError)
  | leaving (exit : Exit)
deriving DecidableEq

/-- What the processor goes on with after it has passed on an output. -/
inductive Errand
  /-- More alarms that went off. -/
  | alarms (rest : List Alarm)
  /-- More messages. -/
  | messages
deriving DecidableEq

inductive Processor
  /-- Waits for the signal. -/
  | waiting
  /-- Looks whether it is to go on. -/
  | woken
  /-- Takes all alarms that went off. -/
  | gathering
  | handling (alarms : List Alarm)
  /-- Takes a message. -/
  | taking
  /-- Is in the chain with a message. -/
  | running (m : Message)
  | counting (o : Output) (next : Errand)
  | queueing (ws : List Wrapper) (next : Errand)
  /-- Looks, after a message, whether it is to go on. -/
  | testing
  | leaving (exit : Exit)
deriving DecidableEq

inductive Sender
  /-- Waits for a wrapper. -/
  | waiting
  /-- Is in the outbound connector. -/
  | sending (w : Wrapper)
  | refused (e : ConnectorError)
  | leaving (exit : Exit)
deriving DecidableEq

/-- What belongs to one run. -/
structure Run where
  raw : Queue Message
  /-- Alarms that went off. -/
  alarms : Queue Alarm
  outbound : Queue Wrapper
  signal : Latch := {}
  /-- Alarms that are set. -/
  timers : List Alarm := []
  /-- How many alarms went off and have not given the signal. -/
  ringing : Nat := 0
  receiver : Receiver := .testing
  processor : Processor := .waiting
  sender : Sender := .waiting
deriving DecidableEq

inductive Request
  | start
  | stop
  | restart
  | terminate
deriving DecidableEq, Repr

/-- Why a run is torn down. -/
inductive Reason
  | request (r : Request)
  | failure
deriving DecidableEq, Repr

/-- How far a run is torn down. -/
inductive Phase
  /-- Tells the workers not to go on. -/
  | deactivating
  /-- Looks at the state. -/
  | looking
  /-- Writes the state. -/
  | marking (failed : Bool)
  /-- Stops the session of the inbound connector. -/
  | stopping
  | closing
  | joining (w : Worker)
  | waking
  /-- Ends the run when no worker is left. -/
  | clearing
deriving DecidableEq, Repr

inductive Control
  /-- Waits for a request or a failure. -/
  | idle
  | tearing (reason : Reason) (phase : Phase)
  /-- Opens the connectors and begins a run. -/
  | starting
  /-- Takes no more requests. -/
  | ended
deriving DecidableEq, Repr

/-- A pipeline but for its connectors, which it only knows by name. -/
structure Machine (σ : Type) where
  sizing : Config.Sizing := {}
  inboundType : String
  outboundType : String
  board : Board := {}
  /-- The chain, unless it was lost with a worker. -/
  chain : Option (Chain σ)
  hasInbound : Bool := true
  hasOutbound : Bool := true
  run : Option Run := none
  /-- Whether a failure is reported and not noticed. -/
  failure : Bool := false
  control : Control := .idle
  requests : List Request := []
  /-- The answers given, the first one first. -/
  replies : List (Except PipelineError Lifecycle) := []

namespace Machine

variable {σ : Type}

def isLive (m : Machine σ) : Bool := m.run.isSome

/-- Whether the chain and both connectors are at hand. -/
def isWhole (m : Machine σ) : Bool := m.chain.isSome && m.hasInbound && m.hasOutbound

/-- A machine that never runs. -/
def malformed (reason : String) : Machine σ where
  inboundType := ""
  outboundType := ""
  board := { state := .malformed, lastError := some reason }
  chain := none
  hasInbound := false
  hasOutbound := false
  control := .ended

/-- Posts a request. -/
def post (m : Machine σ) (r : Request) : Machine σ := { m with requests := m.requests ++ [r] }

end Machine

end Conduit
