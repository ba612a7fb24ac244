import Conduit.Message
import Conduit.Queue.Basic
import Conduit.Text.Quoted

/-!
# Fan-out

A fan-out queue has a name and a buffer for each of its subscribers. What is published goes into
every buffer there is at that time; a full buffer costs only its own subscriber the copy. A
subscriber keeps its place for good, so its number is never given to another one; a buffer that is
no longer subscribed is closed but can still be emptied.
-/

namespace Conduit

structure Subscriber where
  buffer : Queue Wrapper
  live : Bool := true
deriving DecidableEq

/-- The subscribers that a fan-out queue ever had, by number. -/
abbrev Broadcast := List Subscriber

/-- How many buffers took a copy and how many refused it. -/
structure Delivery where
  delivered : Nat := 0
  failed : Nat := 0
deriving DecidableEq, Repr

namespace Broadcast

def liveCount (b : Broadcast) : Nat := b.countP (·.live)

def publish (w : Wrapper) : Broadcast → Delivery × Broadcast
  | [] => ({}, [])
  | s :: rest =>
    let (d, rest) := publish w rest
    if s.live then
      match s.buffer.push w with
      | (.ok (), buffer) => ({ d with delivered := d.delivered + 1 }, { s with buffer } :: rest)
      | (.error _, buffer) => ({ d with failed := d.failed + 1 }, { s with buffer } :: rest)
    else (d, s :: rest)

/-- The numbers of a queue are words of 64 bits, the greatest of which is never given out. -/
def exhausted (b : Broadcast) : Bool := 0xffffffffffffffff ≤ b.length

/-- Adds a subscriber; its number is the count of those before it. -/
def subscribe (b : Broadcast) (capacity : Nat) : Broadcast := b ++ [{ buffer := { capacity } }]

def retire (s : Subscriber) : Subscriber :=
  if s.live then { s with buffer := s.buffer.close, live := false } else s

/-- Ends a subscription. An unknown number changes nothing. -/
def unsubscribe (b : Broadcast) (id : Nat) : Broadcast := b.modify id retire

end Broadcast

/-- All fan-out queues by name. -/
abbrev Directory := Dictionary Broadcast

namespace Directory

def queue (d : Directory) (name : String) : Broadcast := (d.get? name).getD []

/-- Makes the queue of a name if there is none. -/
def create (d : Directory) (name : String) : Directory :=
  if d.contains name then d else d.insert name []

def subscribe (d : Directory) (name : String) (capacity : Nat) : Nat × Directory :=
  let b := d.queue name
  (b.length, d.insert name (b.subscribe capacity))

def unsubscribe (d : Directory) (name : String) (id : Nat) : Directory :=
  d.insert name ((d.queue name).unsubscribe id)

def publish (d : Directory) (name : String) (w : Wrapper) : Delivery × Directory :=
  let (report, b) := Broadcast.publish w (d.queue name)
  (report, d.insert name b)

/-- The buffer of a subscriber, subscribed or not. -/
def buffer? (d : Directory) (name : String) (id : Nat) : Option (Queue Wrapper) :=
  ((d.queue name)[id]?).map (·.buffer)

/-- Changes the buffer of a subscriber. -/
def setBuffer (d : Directory) (name : String) (id : Nat) (buffer : Queue Wrapper) : Directory :=
  d.insert name ((d.queue name).modify id fun s => { s with buffer })

/-- Takes the first wrapper out of a buffer. -/
def pop (d : Directory) (name : String) (id : Nat) : Option Wrapper × Directory :=
  match d.buffer? name id with
  | none => (none, d)
  | some q =>
    let (w, q) := q.pop
    (w, d.setBuffer name id q)

/-- Empties a buffer. -/
def drain (d : Directory) (name : String) (id : Nat) : List Wrapper × Directory :=
  match d.buffer? name id with
  | none => ([], d)
  | some q =>
    let (ws, q) := q.drain
    (ws, d.setBuffer name id q)

def describe (d : Directory) : String :=
  "FanoutRegistry \x7b queues: " ++ Text.quotedList d.names ++ " \x7d"

def describeQueue (d : Directory) (name : String) : String :=
  "QueueHandle \x7b name: " ++ Text.quoted name ++
    s!", subscribers: {(d.queue name).liveCount} \x7d"

end Directory

end Conduit
