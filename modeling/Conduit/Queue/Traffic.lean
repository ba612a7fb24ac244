import Conduit.Queue.FanOut

/-!
# Traffic on fan-out queues

Publishers and subscribers use a directory at the same time. Whoever subscribes or unsubscribes has
the queue to himself. Publishers share it: a publish goes to the subscribers that there are when it
begins, one buffer after the other, and the pushes of several publishes may alternate. What is in a
buffer can be taken at any time.

A move names who does the next step; one that cannot be made now gives nothing.
-/

namespace Conduit

namespace Broadcast

/-- The numbers of those who are subscribed, in order. -/
def current (b : Broadcast) : List Nat :=
  (List.range b.length).filter fun id => (b[id]?).any (·.live)

/-- Pushes a copy into one buffer, which takes it or not. -/
def offer (w : Wrapper) (id : Nat) (b : Broadcast) : Bool × Broadcast :=
  match b[id]? with
  | none => (false, b)
  | some s =>
    let (answer, buffer) := s.buffer.push w
    (answer.isOk, b.set id { s with buffer })

end Broadcast

def Delivery.count (d : Delivery) (taken : Bool) : Delivery :=
  if taken then { d with delivered := d.delivered + 1 } else { d with failed := d.failed + 1 }

/-- A publish under way. -/
structure Publishing where
  queue : String
  wrapper : Wrapper
  /-- The subscribers whose buffers are still to come, in order. -/
  left : List Nat
  report : Delivery := {}

structure Traffic where
  directory : Directory := .empty
  /-- The publishes under way, by publisher. -/
  publishing : Dictionary Publishing := .empty

namespace Traffic

inductive Move
  | create (queue : String)
  | subscribe (queue : String) (capacity : Nat)
  | unsubscribe (queue : String) (id : Nat)
  | pop (queue : String) (id : Nat)
  /-- A publisher that is not publishing begins to. -/
  | begin (publisher queue : String) (w : Wrapper)
  /-- A publisher goes on to the next buffer. -/
  | push (publisher : String)
  /-- A publisher that has been to all buffers reports. -/
  | finish (publisher : String)

/-- What a move tells those who make it. -/
inductive Event
  | subscribed (queue : String) (id capacity : Nat)
  | exhausted (queue : String)
  | unsubscribed (queue : String) (id : Nat)
  | popped (queue : String) (id : Nat) (w : Wrapper)
  | began (publisher queue : String) (w : Wrapper)
  | pushed (publisher queue : String) (id : Nat) (w : Wrapper) (taken : Bool)
  | reported (publisher queue : String) (report : Delivery)
deriving DecidableEq

/-- Whether somebody publishes to the queue. -/
def busy (s : Traffic) (queue : String) : Bool :=
  s.publishing.entries.any fun e => e.2.queue == queue

/-- Whether the queue is there for nobody else. -/
def isFree (s : Traffic) (queue : String) : Bool := s.directory.contains queue && !s.busy queue

def step (s : Traffic) : Move → Option (Traffic × Option Event)
  | .create queue => some ({ s with directory := s.directory.create queue }, none)
  | .subscribe queue capacity =>
    if !s.isFree queue then none
    else if (s.directory.queue queue).exhausted then some (s, some (.exhausted queue))
    else
      let (id, directory) := s.directory.subscribe queue capacity
      some ({ s with directory }, some (.subscribed queue id capacity))
  | .unsubscribe queue id =>
    if !s.isFree queue then none
    else
      some ({ s with directory := s.directory.unsubscribe queue id },
        some (.unsubscribed queue id))
  | .pop queue id =>
    match s.directory.pop queue id with
    | (some w, directory) => some ({ s with directory }, some (.popped queue id w))
    | (none, _) => none
  | .begin publisher queue w =>
    if !s.directory.contains queue || s.publishing.contains publisher then none
    else
      let left := (s.directory.queue queue).current
      let publishing := s.publishing.insert publisher { queue, wrapper := w, left }
      some ({ s with publishing }, some (.began publisher queue w))
  | .push publisher =>
    match s.publishing.get? publisher with
    | some ⟨queue, w, id :: left, report⟩ =>
      let (taken, b) := (s.directory.queue queue).offer w id
      some ({
        directory := s.directory.insert queue b
        publishing := s.publishing.insert publisher ⟨queue, w, left, report.count taken⟩ },
        some (.pushed publisher queue id w taken))
    | _ => none
  | .finish publisher =>
    match s.publishing.get? publisher with
    | some ⟨queue, _, [], report⟩ =>
      some ({ s with publishing := s.publishing.erase publisher },
        some (.reported publisher queue report))
    | _ => none

/-- Moves one after the other, with the events, the latest first. -/
def run (s : Traffic) : List Move → Option (Traffic × List Event)
  | [] => some (s, [])
  | m :: moves => do
    let (s, event) ← s.step m
    let (s, log) ← s.run moves
    return (s, log ++ event.toList)

end Traffic

end Conduit
