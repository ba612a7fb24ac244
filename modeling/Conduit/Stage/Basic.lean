import Conduit.Stage.Routing

/-!
# Stages

A stage is a machine with a state. It is shown one message after the other and decides about each;
it may change a message, cut it into pieces, or keep it until a timer goes off. What it needs from
outside, the time and new names for families of pieces, it is told with the message. What it wants
done outside, it says in its answer.
-/

namespace Conduit.Stage

/-- Microseconds on a clock that never goes back. -/
abbrev Instant := Nat

/-- A wish to be called after a delay, with a token to know it by. -/
structure Timer where
  delay : Nat
  token : UInt64
deriving DecidableEq, Repr

/-- What a clock shows, reading by reading. Nobody knows how long a stage takes, so each visit to a
stage takes a reading of its own. -/
structure Clock where
  reading : Nat → Instant

namespace Clock

/-- A clock that stands still. -/
def still (t : Instant) : Clock := ⟨fun _ => t⟩

instance : Coe Instant Clock := ⟨still⟩

instance (n : Nat) : OfNat Clock n := ⟨still n⟩

/-- What the clock shows now. -/
def now (k : Clock) : Instant := k.reading 0

/-- The clock when it has been read a number of times more. -/
def later (k : Clock) (taken : Nat) : Clock := ⟨fun n => k.reading (taken + n)⟩

end Clock

/-- When a stage is called, and how many names have been handed out before. -/
structure Moment where
  clock : Clock
  fresh : Nat := 0

namespace Moment

def now (m : Moment) : Instant := m.clock.now

@[simp]
theorem now_mk (clock : Clock) (fresh : Nat) : now ⟨clock, fresh⟩ = clock.now := rfl

/-- The moment of the next visit, when a visit has used some names. -/
def next (m : Moment) (named : Nat) : Moment := ⟨m.clock.later 1, m.fresh + named⟩

end Moment

inductive Outcome
  /-- The stage decided, and may have changed the message. -/
  | done (w : Wrapper)
  /-- The message is emitted in pieces and goes no further itself. -/
  | generate (w : Wrapper) (pieces : List Message)
  /-- The stage keeps the message and will let it go when a timer goes off. -/
  | hold (w : Wrapper)
  | failed (e : PipelineError)
  /-- The stage broke down. -/
  | crashed
deriving DecidableEq

structure Response (σ : Type) where
  state : σ
  outcome : Outcome
  timers : List Timer := []
  /-- How many names the stage has used. -/
  named : Nat := 0

/-- What a stage does when one of its timers goes off. -/
structure Release (σ : Type) where
  state : σ
  result : Except PipelineError (Option Message)
  timers : List Timer := []

class Behaviour (σ : Type) where
  typeName : σ → String
  process : Moment → σ → Wrapper → Response σ
  expire : Instant → σ → UInt64 → Release σ := fun _ s _ => { state := s, result := .ok none }
  start : Instant → σ → σ := fun _ s => s
  stop : σ → σ := id

/-- A stage in its place in a chain. -/
structure Slot (σ : Type) where
  routing : Routing
  stage : σ

/-- The label of a stage, or the name of its type. -/
def Slot.displayName [Behaviour σ] (s : Slot σ) : String :=
  s.routing.label.getD (Behaviour.typeName s.stage)

end Conduit.Stage
