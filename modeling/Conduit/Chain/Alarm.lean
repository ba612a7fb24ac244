import Conduit.Chain.Process

/-!
# Alarms

A timer of a stage becomes an alarm at a fixed time. Alarms are kept in the order in which they go
off; of two at the same time, the one set first goes off first.
-/

namespace Conduit

open Stage

structure Alarm where
  due : Instant
  stage : Nat
  token : UInt64
deriving DecidableEq, Repr

namespace Alarm

/-- Puts an alarm in its place. -/
def insert (a : Alarm) : List Alarm → List Alarm
  | [] => [a]
  | b :: rest => if a.due < b.due then a :: b :: rest else b :: insert a rest

def insertAll (alarms : List Alarm) (new : List Alarm) : List Alarm :=
  new.foldl (fun alarms a => insert a alarms) alarms

/-- The alarms that the visits of a call set, each counting from its visit. -/
def ofVisits (clock : Clock) (visits : List Visit) : List Alarm :=
  visits.zipIdx.flatMap fun (v, k) =>
    v.timers.map fun t => ⟨clock.reading (k + 1) + t.delay, v.stage, t.token⟩

end Alarm

end Conduit
