import Conduit.Chain.Basic
import Conduit.Text.Quoted

/-!
# The board of a pipeline

A board shows what the workers, the controller and the host of a pipeline share: the state of the
pipeline, its last errors, and how many messages went where. The first failure of a run wins: a
board that shows one refuses the next.
-/

namespace Conduit

inductive Lifecycle
  | stopped
  | running
  | stopping
  | failed
  /-- It could not be built and never ran. -/
  | malformed
  | terminated
deriving DecidableEq, Repr

namespace Lifecycle

def name : Lifecycle → String
  | .stopped => "stopped"
  | .running => "running"
  | .stopping => "stopping"
  | .failed => "failed"
  | .malformed => "malformed"
  | .terminated => "terminated"

def describe : Lifecycle → String
  | .stopped => "Stopped"
  | .running => "Running"
  | .stopping => "Stopping"
  | .failed => "Failed"
  | .malformed => "Malformed"
  | .terminated => "Terminated"

/-- Whether no request leads out of the state. -/
def isTerminal : Lifecycle → Bool
  | .malformed | .terminated => true
  | _ => false

end Lifecycle

structure Board where
  state : Lifecycle := .stopped
  lastError : Option String := none
  /-- The latest error that cost a message its way through the chain. -/
  lastStageError : Option String := none
  /-- Whether the workers are to go on. -/
  active : Bool := false
  /-- Messages from the inbound connector. -/
  received : Nat := 0
  /-- Messages that the outbound connector took. -/
  sent : Nat := 0
  /-- Messages run through the chain. -/
  processed : Nat := 0
  /-- Messages rejected by the chain, refused by a full queue or left over. -/
  dropped : Nat := 0
  stageErrors : Nat := 0
deriving DecidableEq, Repr

namespace Board

/-- Shows a failure, unless one is shown. -/
def fail (b : Board) (text : String) : Board :=
  if b.state = .failed ∧ b.lastError.isSome then b
  else { b with state := .failed, lastError := some text }

def drop (b : Board) (n : Nat) : Board := { b with dropped := b.dropped + n }

/-- Counts what became of messages that went through the chain. -/
def count (b : Board) (o : Output) : Board :=
  let b := b.drop o.dropped
  match o.errors.getLast? with
  | none => b
  | some e =>
    { b with
      stageErrors := b.stageErrors + o.errors.length
      lastStageError := some e.message }

/-- A new run begins without errors. -/
def clearErrors (b : Board) : Board := { b with lastError := none, lastStageError := none }

/-! ## The report -/

def countValue (n : Nat) : Value := .ofNat64 (UInt64.ofNat n)

/-- How many messages passed a connector, and whether there was any. -/
def passedValue (n : Nat) : Value := .object [("count", countValue n), ("last", .bool (0 < n))]

def errorValue : Option String → Value
  | some text => .string text
  | none => .null

/-- What a board shows of the pipeline with an id. -/
def report (id : String) (b : Board) : Value :=
  .object [("id", .string id), ("state", .string b.state.name),
    ("last_error", errorValue b.lastError), ("last_stage_error", errorValue b.lastStageError),
    ("inbound", passedValue b.received), ("outbound", passedValue b.sent),
    ("processed", countValue b.processed), ("dropped", countValue b.dropped),
    ("stage_errors", countValue b.stageErrors)]

end Board

end Conduit
