import Conduit.Stage.Deciders

/-!
# The throttle

Passes at most `rate` messages in a window of time. A window opens with a message and stays open
for a period. What comes too early is rejected or, in delay mode, held until the window is over;
only the latest held message is kept.
-/

namespace Conduit.Stage

open Json

inductive ThrottleMode
  | drop
  | delay
deriving DecidableEq, Repr

structure Throttle where
  rate : Nat
  /-- Length of a window in microseconds. -/
  period : Nat
  mode : ThrottleMode := .drop
  /-- When the window opened. -/
  opened : Option Instant := none
  /-- How many messages the window has let through. -/
  count : Nat := 0
  held : Option Message := none
  /-- The token of the latest timer. -/
  token : UInt64 := 0
  /-- Whether that timer has still to go off. -/
  pending : Bool := false
deriving DecidableEq

namespace Throttle

def modes : List (String × ThrottleMode) := [("drop", .drop), ("delay", .delay)]

def fields : List Field :=
  [.require "rate" .integer, .mayHave "period_ms" .integer (some "1000"),
    .mayHave "mode" .string (some "drop") (modes.map Prod.fst)]

def modeShape : Shape ThrottleMode := .choice .unit modes

def shapes : List (String × Shape Unit) :=
  [("rate", Shape.word32.check), ("period_ms", Shape.word64.check), ("mode", modeShape.check)]

def ofParams (ms : Members) : Except PipelineError Throttle := do
  let (rate, period, mode) ← readParams shapes ms fun ms => do
    let rate ← required ms "rate" .word32
    let period ← withDefault ms "period_ms" .word64 1000
    return (rate, period, ← withDefault ms "mode" modeShape .drop)
  if rate = 0 then throw (.config "rate must be positive")
  if period = 0 then throw (.config "period_ms must be positive")
  return { rate, period := 1000 * period, mode }

/-- Whether the window is open at a time. -/
def isOpen (s : Throttle) (now : Instant) : Bool :=
  match s.opened with
  | some start => decide (now - start < s.period)
  | none => false

/-- Opens a new window unless one is open. -/
def roll (s : Throttle) (now : Instant) : Throttle :=
  if s.isOpen now then s else { s with opened := some now, count := 0 }

/-- How long the window stays open. -/
def remaining (s : Throttle) (now : Instant) : Nat :=
  match s.opened with
  | some start => s.period - (now - start)
  | none => 0

def process (moment : Moment) (s : Throttle) (w : Wrapper) : Response Throttle :=
  let s := s.roll moment.now
  if s.count < s.rate then
    { state := { s with count := s.count + 1 }, outcome := .done w.accept }
  else
    let w := w.decide false
    match s.mode with
    | .drop => { state := s, outcome := .done w }
    | .delay =>
      let s := { s with held := some w.working }
      if s.pending then { state := s, outcome := .hold w }
      else
        let token := s.token + 1
        { state := { s with token, pending := true }, outcome := .hold w,
          timers := [⟨s.remaining moment.now, token⟩] }

/-- Lets the held message go if the timer is the latest one. -/
def expire (now : Instant) (s : Throttle) (token : UInt64) : Release Throttle :=
  if token ≠ s.token then { state := s, result := .ok none }
  else
    let s := { s with pending := false }
    match s.held with
    | none => { state := s, result := .ok none }
    | some m =>
      let s := { s with held := none }.roll now
      { state := { s with count := min (s.count + 1) (0x100000000 - 1) }, result := .ok (some m) }

def stop (s : Throttle) : Throttle :=
  { s with held := none, pending := false, opened := none, count := 0 }

end Throttle

end Conduit.Stage
