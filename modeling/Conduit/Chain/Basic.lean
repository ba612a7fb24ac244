import Conduit.Chain.Route
import Conduit.Queue.FanOut
import Conduit.Stage.Basic

/-!
# Chains

A chain is a row of stages with their routes. It keeps the pieces that its stages have made of a
message and that have still to go through it: the latest family of pieces is on top, and the chain
goes back to an earlier one when the later ones are used up.
-/

namespace Conduit

open Stage

/-- The pieces of a message that have still to go through the chain, and where they enter it. -/
structure Generation where
  continuation : Nat
  pieces : List Message
deriving DecidableEq

structure Chain (σ : Type) where
  id : String
  slots : List (Slot σ)
  plan : RoutePlan
  /-- How many stages one message may visit; zero counts as one. -/
  maxHops : Nat := 1024
  /-- The families of pieces that are not used up, the latest first. -/
  pending : List Generation := []

/-- A copy for a fan-out queue. -/
structure Publication where
  queue : String
  copy : Wrapper
deriving DecidableEq

/-- Hands out copies in turn. -/
def Directory.publishAll (d : Directory) (copies : List Publication) : Directory :=
  copies.foldl (fun d p => (d.publish p.queue p.copy).2) d

/-- How a walk ends. -/
inductive Ending
  | delivered (w : Wrapper)
  | dropped
  | held
  | generated (g : Generation)
  | failed (e : PipelineError)
  /-- A stage broke down. -/
  | crashed
deriving DecidableEq

/-- What follows a visit. -/
inductive Next
  | go (i : Nat) (w : Wrapper)
  | done (e : Ending)
deriving DecidableEq

/-- The record of one visit of a message to a stage. -/
structure Visit where
  stage : Nat
  /-- The wrapper as the stage was shown it. -/
  entered : Wrapper
  next : Next
  published : List Publication := []
  timers : List Timer := []
deriving DecidableEq

/-- What became of the messages that went through a chain. -/
structure Output where
  /-- The messages that reached the end. -/
  delivered : List Wrapper := []
  /-- How many were rejected with nowhere to go. -/
  dropped : Nat := 0
  /-- How many a stage kept for later. -/
  held : Nat := 0
  /-- Each error ended the way of one message. -/
  errors : List PipelineError := []
deriving DecidableEq

namespace Output

def append (a b : Output) : Output where
  delivered := a.delivered ++ b.delivered
  dropped := a.dropped + b.dropped
  held := a.held + b.held
  errors := a.errors ++ b.errors

instance : Append Output := ⟨append⟩

end Output

namespace Chain

variable {σ : Type} [Behaviour σ]

def ofSlots (id : String) (slots : List (Slot σ)) (maxHops : Nat := 1024) :
    Except PipelineError (Chain σ) := do
  return { id, slots, plan := ← RoutePlan.compile (slots.map (·.routing)), maxHops }

def size (c : Chain σ) : Nat := c.slots.length

def isGenerating (c : Chain σ) : Bool := !c.pending.isEmpty

def stageNames (c : Chain σ) : List String := c.slots.map Slot.displayName

/-- Applies a function to every stage. -/
def mapStages (f : σ → σ) (c : Chain σ) : Chain σ :=
  { c with slots := c.slots.map fun s => { s with stage := f s.stage } }

/-- Tells the stages that a run begins. -/
def start (now : Instant) (c : Chain σ) : Chain σ := c.mapStages (Behaviour.start now)

/-- Tells the stages that the run is over, and forgets all pieces. -/
def stop (c : Chain σ) : Chain σ := { c.mapStages Behaviour.stop with pending := [] }

def route (c : Chain σ) (i : Nat) : Route := (c.plan.routes[i]?).getD {}

def setStage (c : Chain σ) (i : Nat) (s : σ) : Chain σ :=
  { c with slots := c.slots.modify i fun slot => { slot with stage := s } }

def hopLimit (c : Chain σ) : Nat := max c.maxHops 1

def describe (c : Chain σ) : String :=
  "StageChain \x7b pipeline_id: " ++ Text.quoted c.id ++ ", stages: " ++
    Text.quotedList c.stageNames ++ s!", max_hops: {c.hopLimit}, generating: {c.pending.length} \x7d"

end Chain

end Conduit
