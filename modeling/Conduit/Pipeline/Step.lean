import Conduit.Chain.Process
import Conduit.Pipeline.Machine

/-!
# Steps of a machine

A move names who does the next step and, where the step depends on a connector, what the connector
answered. The step that a move makes is a function; a move that cannot be made now gives nothing.
The workers, the alarms and the controller may take turns in any order.
-/

namespace Conduit

open Stage

inductive Move
  /-- The inbound connector answers the receiver. -/
  | receive (answer : Except ConnectorError Message)
  /-- The outbound connector answers the sender. -/
  | send (answer : Except ConnectorError Unit)
  /-- The receiver or the sender breaks down in its connector. -/
  | breakdown (w : Worker)
  /-- A worker does its next step outside the connectors. -/
  | work (w : Worker)
  /-- The alarm at a place goes off. -/
  | ring (i : Nat)
  /-- An alarm that went off gives the signal. -/
  | signal
  /-- The controller takes the next request. -/
  | accept
  /-- The controller notices a failure. -/
  | notice
  /-- The controller goes on with tearing a run down. -/
  | tear
  /-- The controller opens the connectors, which answer, and begins a run. -/
  | launch (inbound outbound : Except ConnectorError Unit)

/-- What a move leads to. -/
structure Moved (σ : Type) where
  machine : Machine σ
  /-- How many names have been handed out. -/
  fresh : Nat
  /-- Copies for fan-out queues. -/
  published : List Publication := []

/-- Where the processor goes when it has passed an output on. -/
def Errand.resume : Errand → Processor
  | .alarms rest => .handling rest
  | .messages => .testing

namespace Machine

variable {σ : Type}

def setRun (m : Machine σ) (r : Run) : Machine σ := { m with run := some r }

/-! ## Workers -/

/-- A step of a worker on its way out: it shows its failure, and reports it. -/
def leave (m : Machine σ) : Exit → Option (Machine σ × Exit)
  | .failing text broken => some ({ m with board := m.board.fail text }, .reporting broken)
  | .reporting broken => some ({ m with failure := true }, .gone broken)
  | .gone _ => none

/-- The way out of a worker whose connector gave an error: only a run that is to go on fails. -/
def refusal (m : Machine σ) (side type : String) (e : ConnectorError) : Exit :=
  if m.board.active then .failing (side ++ " " ++ type ++ " connector: " ++ e.message) false
  else .quiet

def received (m : Machine σ) (r : Run) (answer : Except ConnectorError Message) :
    Option (Machine σ) :=
  match r.receiver, answer with
  | .receiving, .ok message =>
    some { m with
      board := { m.board with received := m.board.received + 1 }
      run := some { r with receiver := .queueing message } }
  | .receiving, .error .noData => some (m.setRun { r with receiver := .testing })
  | .receiving, .error e => some (m.setRun { r with receiver := .refused e })
  | _, _ => none

def workReceiver (m : Machine σ) (r : Run) : Option (Machine σ) :=
  match r.receiver with
  | .testing =>
    some (m.setRun { r with receiver := if m.board.active then .receiving else .leaving .quiet })
  | .receiving => none
  | .queueing message =>
    let (taken, raw) := r.raw.push message
    some { m with
      board := if taken.isOk then m.board else m.board.drop 1
      run := some { r with raw, receiver := .waking } }
  | .waking => some (m.setRun { r with signal := r.signal.notify, receiver := .testing })
  | .refused e =>
    some (m.setRun { r with receiver := .leaving (m.refusal "inbound" m.inboundType e) })
  | .leaving exit =>
    (m.leave exit).map fun (m, exit) => m.setRun { r with receiver := .leaving exit }

def sent (m : Machine σ) (r : Run) (answer : Except ConnectorError Unit) : Option (Machine σ) :=
  match r.sender, answer with
  | .sending _, .ok () =>
    some { m with
      board := { m.board with sent := m.board.sent + 1 }
      run := some { r with sender := .waiting } }
  | .sending _, .error e => some (m.setRun { r with sender := .refused e })
  | _, _ => none

def workSender (m : Machine σ) (r : Run) : Option (Machine σ) :=
  match r.sender with
  | .waiting =>
    if r.outbound.blocks then none
    else
      let (w, outbound) := r.outbound.pop
      some (m.setRun { r with
        outbound
        sender := match w with
          | some w => .sending w
          | none => .leaving .quiet })
  | .sending _ => none
  | .refused e =>
    some (m.setRun { r with sender := .leaving (m.refusal "outbound" m.outboundType e) })
  | .leaving exit => (m.leave exit).map fun (m, exit) => m.setRun { r with sender := .leaving exit }

def breakdown (m : Machine σ) (r : Run) : Worker → Option (Machine σ)
  | .receive =>
    if r.receiver = .receiving then
      some (m.setRun { r with receiver := .leaving (.broken .receive) })
    else none
  | .send =>
    match r.sender with
    | .sending _ => some (m.setRun { r with sender := .leaving (.broken .send) })
    | _ => none
  | .process => none

section

variable [Behaviour σ]

/-- What a call to the chain leaves: the processor counts its output, or breaks down with the
chain. Alarms are set and copies published either way. -/
def called (moment : Moment) (m : Machine σ) (r : Run) (next : Errand) (call : Call σ) :
    Option (Moved σ) :=
  let timers := Alarm.insertAll r.timers (Alarm.ofVisits moment.clock call.visits)
  match call.progress with
  | .unfinished => none
  | .crashed =>
    some {
      machine := { m with
        chain := some call.chain
        run := some { r with timers, processor := .leaving (.broken .process) } }
      fresh := call.fresh
      published := call.published }
  | .returned =>
    let processed := if next = .messages then m.board.processed + 1 else m.board.processed
    some {
      machine := { m with
        chain := some call.chain
        board := { m.board with processed }
        run := some { r with timers, processor := .counting call.output next } }
      fresh := call.fresh
      published := call.published }

def workProcessor (patience : Nat) (moment : Moment) (m : Machine σ) (r : Run) :
    Option (Moved σ) :=
  let go : Processor → Option (Moved σ) := fun p =>
    some { machine := m.setRun { r with processor := p }, fresh := moment.fresh }
  match r.processor with
  | .waiting =>
    let (set, signal) := r.signal.wait
    if set then
      some { machine := m.setRun { r with signal, processor := .woken }, fresh := moment.fresh }
    else none
  | .woken => go (if m.board.active then .gathering else .leaving .quiet)
  | .gathering =>
    let (due, alarms) := r.alarms.drain
    some { machine := m.setRun { r with alarms, processor := .handling due },
           fresh := moment.fresh }
  | .handling [] => go .taking
  | .handling (a :: rest) =>
    m.chain.bind fun c => called moment m r (.alarms rest) (c.expire patience moment a.stage a.token)
  | .taking =>
    match r.raw.pop with
    | (none, _) => go .waiting
    | (some message, raw) =>
      some { machine := m.setRun { r with raw, processor := .running message },
             fresh := moment.fresh }
  | .running message =>
    m.chain.bind fun c => called moment m r .messages (c.process patience moment message)
  | .counting o next =>
    some {
      machine := { m with
        board := m.board.count o
        run := some { r with processor := .queueing o.delivered next } }
      fresh := moment.fresh }
  | .queueing [] next => go next.resume
  | .queueing (w :: ws) next =>
    let (taken, outbound) := r.outbound.push w
    some {
      machine := { m with
        board := if taken.isOk then m.board else m.board.drop 1
        run := some { r with outbound, processor := .queueing ws next } }
      fresh := moment.fresh }
  | .testing => go (if m.board.active then .taking else .waiting)
  | .leaving exit =>
    (m.leave exit).map fun (m, exit) =>
      { machine := m.setRun { r with processor := .leaving exit }, fresh := moment.fresh }

/-! ## Alarms -/

/-- The alarm at a place goes off if it is due; a full queue loses it. -/
def ring (now : Instant) (m : Machine σ) (r : Run) (i : Nat) : Option (Machine σ) :=
  r.timers[i]?.bind fun a =>
    if a.due ≤ now then
      let (taken, alarms) := r.alarms.push a
      some (m.setRun { r with
        alarms
        timers := r.timers.eraseIdx i
        ringing := if taken.isOk then r.ringing + 1 else r.ringing })
    else none

def giveSignal (m : Machine σ) (r : Run) : Option (Machine σ) :=
  if r.ringing = 0 then none
  else some (m.setRun { r with signal := r.signal.notify, ringing := r.ringing - 1 })

/-! ## The controller -/

def reply (m : Machine σ) (answer : Except PipelineError Lifecycle) : Machine σ :=
  { m with control := .idle, replies := m.replies ++ [answer] }

/-- What the controller does for its reason when no run is left. -/
def afterwards (m : Machine σ) (reason : Reason) : Machine σ :=
  let settled : Machine σ :=
    if m.board.state = .failed then { m with board := { m.board with state := .stopped } } else m
  match reason with
  | .failure => { m with control := .idle }
  | .request .start => { m with control := .starting }
  | .request .stop => settled.reply (.ok settled.board.state)
  | .request .restart => { settled with control := .starting }
  | .request .terminate =>
    { m with
      board := { m.board with state := .terminated }
      chain := none
      hasInbound := false
      hasOutbound := false
      control := .ended
      replies := m.replies ++ [.ok .terminated] }

/-- Tears the run down if there is one. -/
def tearDown (m : Machine σ) (reason : Reason) : Machine σ :=
  if m.isLive then { m with control := .tearing reason .deactivating } else m.afterwards reason

/-- Takes up a request. -/
def take (m : Machine σ) (r : Request) : Machine σ :=
  match r, m.board.state with
  | .start, .running => m.reply (.ok .running)
  | .start, .terminated | .start, .malformed => m.reply (.error .terminated)
  | .stop, .running | .stop, .failed => m.tearDown (.request .stop)
  | .stop, state => m.reply (.ok state)
  | .restart, .running | .restart, .failed => m.tearDown (.request .restart)
  | .restart, _ => m.tearDown (.request .start)
  | r, _ => m.tearDown (.request r)

def accept (m : Machine σ) : Option (Machine σ) :=
  match m.control, m.requests with
  | .idle, r :: rest => some ({ m with requests := rest }.take r)
  | _, _ => none

/-- A failure that is noticed ends the run that failed, not one that began since. -/
def notice (m : Machine σ) : Option (Machine σ) :=
  if m.control = .idle ∧ m.failure then
    let m := { m with failure := false }
    if m.isLive ∧ m.board.state = .failed then some (m.tearDown .failure) else some m
  else none

/-- Begins a run. A connector that does not open makes the pipeline fail. -/
def launch (now : Instant) (m : Machine σ) (inbound outbound : Except ConnectorError Unit) :
    Option (Machine σ) :=
  if m.control ≠ .starting then none
  else
    let m := { m with board := m.board.clearErrors }
    let fail := fun text => some ({ m with board := m.board.fail text }.reply (.error (.transport text)))
    match m.isWhole, inbound, outbound with
    | false, _, _ => fail "a worker thread lost its resources"
    | true, .error e, _ => fail ("inbound connect failed: " ++ e.message)
    | true, .ok (), .error e => fail ("outbound connect failed: " ++ e.message)
    | true, .ok (), .ok () =>
      some ({ m with
        board := { m.board with state := .running, active := true }
        chain := m.chain.map (Chain.start now)
        run := some {
          raw := { capacity := m.sizing.inbound }
          alarms := { capacity := m.sizing.events }
          outbound := { capacity := m.sizing.outbound } } }.reply (.ok .running))

/-- The exit of a worker that is gone. -/
def gone? (r : Run) : Worker → Option Bool
  | .receive => match r.receiver with
    | .leaving (.gone broken) => some broken
    | _ => none
  | .process => match r.processor with
    | .leaving (.gone broken) => some broken
    | _ => none
  | .send => match r.sender with
    | .leaving (.gone broken) => some broken
    | _ => none

/-- Takes back what a worker that is gone was lent; a broken worker has lost it. -/
def join (m : Machine σ) (w : Worker) (broken : Bool) : Machine σ :=
  if broken then
    let m := { m with board := m.board.fail (w.name ++ " thread panicked") }
    match w with
    | .receive => { m with hasInbound := false }
    | .process => { m with chain := none }
    | .send => { m with hasOutbound := false }
  else m

/-- Ends a run without workers: what is left in its queues is dropped. -/
def clear (m : Machine σ) (r : Run) : Machine σ :=
  let board := m.board.drop (r.raw.size + r.outbound.size)
  { m with
    chain := m.chain.map Chain.stop
    run := none
    board := if board.state = .failed then board else { board with state := .stopped } }

def tear (m : Machine σ) : Option (Machine σ) :=
  match m.control, m.run with
  | .tearing reason phase, some r =>
    let next := fun (m : Machine σ) phase => some { m with control := .tearing reason phase }
    match phase with
    | .deactivating => next { m with board := { m.board with active := false } } .looking
    | .looking => next m (.marking (m.board.state = .failed))
    | .marking failed =>
      next (if failed then m else { m with board := { m.board with state := .stopping } }) .stopping
    | .stopping => next m .closing
    | .closing => next (m.setRun { r with outbound := r.outbound.close }) (.joining .receive)
    | .joining .receive => (gone? r .receive).bind fun broken => next (m.join .receive broken) .waking
    | .waking => next (m.setRun { r with signal := r.signal.notify }) (.joining .process)
    | .joining .process =>
      (gone? r .process).bind fun broken => next (m.join .process broken) (.joining .send)
    | .joining .send => (gone? r .send).bind fun broken => next (m.join .send broken) .clearing
    | .clearing => some ((m.clear r).afterwards reason)
  | _, _ => none

/-! ## All together -/

def step (patience : Nat) (moment : Moment) (m : Machine σ) (move : Move) : Option (Moved σ) :=
  let plain := fun (m : Option (Machine σ)) =>
    m.map fun m => ({ machine := m, fresh := moment.fresh } : Moved σ)
  match move with
  | .receive answer => plain (m.run.bind fun r => m.received r answer)
  | .send answer => plain (m.run.bind fun r => m.sent r answer)
  | .breakdown w => plain (m.run.bind fun r => m.breakdown r w)
  | .work .receive => plain (m.run.bind m.workReceiver)
  | .work .process => m.run.bind (m.workProcessor patience moment)
  | .work .send => plain (m.run.bind m.workSender)
  | .ring i => plain (m.run.bind fun r => m.ring moment.now r i)
  | .signal => plain (m.run.bind m.giveSignal)
  | .accept => plain m.accept
  | .notice => plain m.notice
  | .tear => plain m.tear
  | .launch inbound outbound => plain (m.launch moment.now inbound outbound)

end

end Machine

end Conduit
