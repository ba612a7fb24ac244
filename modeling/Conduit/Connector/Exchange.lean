import Conduit.Connector.Build
import Conduit.Connector.Session
import Conduit.Queue.Traffic

/-!
# Exchanges

Queue connectors share a directory. They are made, and opened, stopped and closed in any order;
messages are sent and received through them; and others publish to the same queues and subscribe to
them directly. A log tells when sessions were opened and closed, what was published, which buffers
were too full for it, and what was received.
-/

namespace Conduit

/-- The numbers of the subscribers that have no room for another copy. -/
def Broadcast.full (b : Broadcast) : List Nat :=
  b.current.filter fun id => (b[id]?).any (·.buffer.isFull)

/-- What a buffer holds. -/
def Directory.items (d : Directory) (name : String) (id : Nat) : List Wrapper :=
  ((d.buffer? name id).map (·.items)).getD []

/-- The queue that a connector sends to. -/
def Connector.queue? : Connector → Option String
  | .queue _ name _ _ => some name
  | _ => none

/-- Whether a connector has an open session on the queue and receives from it. -/
def Connector.listens (name : String) : Connector → Bool
  | .queue .inbound n _ (some _) => n = name
  | _ => false

structure Exchange where
  around : Surroundings := {}
  /-- The connectors by number. -/
  connectors : List Connector := []
  /-- The subscriptions that were made directly and have not ended. -/
  direct : List (String × Nat) := []

namespace Exchange

inductive Act
  /-- A connector is made; its number is the count of those before it. -/
  | make (direction : Direction) (name : String) (capacity : Nat)
  | connect (k : Nat)
  | disconnect (k : Nat)
  | stop (k : Nat)
  | receive (k : Nat)
  | send (k : Nat) (w : Wrapper)
  /-- Somebody publishes to a queue by its name. -/
  | redirect (name : String) (w : Wrapper)
  | subscribe (name : String) (capacity : Nat)
  | unsubscribe (name : String) (id : Nat)
  /-- A direct subscriber takes from its buffer. -/
  | take (name : String) (id : Nat)
  /-- Somebody closes a buffer, for instance by the stop handle of a session that is over. -/
  | close (name : String) (id : Nat)

inductive Event
  | opened (k : Nat) (name : String) (id : Nat)
  | closed (k : Nat)
  | received (k : Nat) (m : Message)
  /-- A copy was offered to all buffers of a queue, and did not fit into some. -/
  | published (name : String) (w : Wrapper) (full : List Nat)
deriving DecidableEq

def directory (x : Exchange) : Directory := x.around.directory

def setDirectory (x : Exchange) (directory : Directory) : Exchange :=
  { x with around := { x.around with directory } }

/-- Has a connector do something, and puts it back as it is then. -/
def operate (x : Exchange) (k : Nat)
    (f : Connector → Connector × Surroundings × Option Event) : Exchange × Option Event :=
  match x.connectors[k]? with
  | none => (x, none)
  | some c =>
    let (c, around, event) := f c
    ({ x with connectors := x.connectors.set k c, around }, event)

/-- What is told of a publish, before it takes place. -/
def publication (x : Exchange) (name : String) (w : Wrapper) : Event :=
  .published name w (x.directory.queue name).full

def act (x : Exchange) : Act → Exchange × Option Event
  | .make direction name capacity =>
    let c := Connector.queue direction name capacity none
    ({ x.setDirectory (c.enter x.directory) with connectors := x.connectors ++ [c] }, none)
  | .connect k => x.operate k fun c =>
    let (_, c', around) := c.connect x.around
    (c', around, if c'.session? = c.session? then none else
      c'.session?.map fun place => .opened k place.1 place.2)
  | .disconnect k => x.operate k fun c =>
    let (c', around) := c.disconnect x.around
    (c', around, c.session?.map fun _ => .closed k)
  | .stop k => x.operate k fun c =>
    let (c, around) := c.stop x.around
    (c, around, none)
  | .receive k => x.operate k fun c =>
    match c.receive x.around with
    | .ready ((.ok m, c, around) :: _) => (c, around, some (.received k m))
    | .ready ((.error _, c, around) :: _) => (c, around, none)
    | _ => (c, x.around, none)
  | .send k w => x.operate k fun c =>
    match c.send? x.around w with
    | some (_, c, around) => (c, around, c.queue?.map fun name => x.publication name w)
    | none => (c, x.around, none)
  | .redirect name w =>
    (x.setDirectory (x.directory.publish name w).2, some (x.publication name w))
  | .subscribe name capacity =>
    if (x.directory.queue name).exhausted then (x, none)
    else
      let (id, directory) := x.directory.subscribe name capacity
      ({ x.setDirectory directory with direct := (name, id) :: x.direct }, none)
  | .unsubscribe name id =>
    if (name, id) ∈ x.direct then
      ({ x.setDirectory (x.directory.unsubscribe name id) with
        direct := x.direct.erase (name, id) }, none)
    else (x, none)
  | .take name id =>
    if (name, id) ∈ x.direct then
      match x.directory.pop name id with
      | (some _, directory) => (x.setDirectory directory, none)
      | (none, _) => (x, none)
    else (x, none)
  | .close name id =>
    match x.directory.buffer? name id with
    | some q => (x.setDirectory (x.directory.setBuffer name id q.close), none)
    | none => (x, none)

/-- An act after others: the exchange, and the log. -/
def next (s : Exchange × List Event) (a : Act) : Exchange × List Event :=
  let (x, event) := s.1.act a
  (x, s.2 ++ event.toList)

/-- What becomes of an empty exchange. -/
def after (acts : List Act) : Exchange × List Event := acts.foldl next ({}, [])

/-! ## What a log tells -/

/-- The messages that a connector received, in order. -/
def received (k : Nat) (log : List Event) : List Message :=
  log.filterMap fun
    | .received j m => if j = k then some m else none
    | _ => none

/-- What was published to a queue and fitted into a buffer, in order. -/
def taken (name : String) (id : Nat) (log : List Event) : List Wrapper :=
  log.filterMap fun
    | .published n w full => if n = name ∧ id ∉ full then some w else none
    | _ => none

/-- The open session of a connector. -/
def session? (x : Exchange) (k : Nat) : Option (String × Nat) :=
  (x.connectors[k]?).bind Connector.session?

end Exchange

end Conduit
