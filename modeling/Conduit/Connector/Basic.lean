import Conduit.Connector.Lines
import Conduit.Message
import Conduit.Queue.FanOut

/-!
# Connectors

A connector brings messages into a pipeline or takes them out of it. It is opened and closed in
sessions. Each kind of connector has a fixed part, made from its configuration, and a part that a
session changes.
-/

namespace Conduit

inductive Direction
  | inbound
  | outbound
deriving DecidableEq, Repr

def Direction.name : Direction → String
  | .inbound => "inbound"
  | .outbound => "outbound"

/-- A line of things between a connector and its host, in either direction. -/
structure Pipe (α : Type) where
  /-- How many things fit; zero for no bound. -/
  capacity : Nat := 0
  items : List α := []
  /-- Whether the host's end is still there. -/
  host : Bool := true
deriving DecidableEq

namespace Pipe

variable {α : Type}

def isFull (p : Pipe α) : Bool := 0 < p.capacity && p.capacity ≤ p.items.length

def add (p : Pipe α) (a : α) : Pipe α := { p with items := p.items ++ [a] }

end Pipe

inductive Connector
  /-- A fan-out queue; a session is the number of a subscriber. -/
  | queue (direction : Direction) (name : String) (capacity : Nat) (session : Option Nat)
  /-- Gives nothing and takes everything. -/
  | null (stopped : Bool)
  /-- Writes messages to the log. -/
  | log (lead : String)
  /-- The lines of a file. -/
  | source (path topic : String) (json : Bool) (session : Option LineReader) (stopped : Bool)
  /-- Adds lines to a file. -/
  | sink (path : String) (isOpen : Bool)
  /-- The same message again and again, a period in microseconds apart. -/
  | interval (template : Message) (period : Nat) (stopped : Bool)
  /-- Messages from the host; a session is open or stopped. -/
  | feed (pipe : Pipe Message) (session : Option Bool)
  /-- Messages to the host. -/
  | tap (pipe : Pipe Wrapper) (connected : Bool)
deriving DecidableEq

namespace Connector

def typeName : Connector → String
  | .queue .. => "queue"
  | .null _ => "null"
  | .log _ => "log"
  | .source .. | .sink .. => "file"
  | .interval .. => "interval"
  | .feed .. | .tap .. => "channel"

end Connector

/-- What connectors share: the fan-out queues and the files. -/
structure Surroundings where
  directory : Directory := .empty
  files : Files := .empty

end Conduit
