import Conduit.Config.Pipeline
import Conduit.Connector.Build
import Conduit.Pipeline.Step
import Conduit.Stage.Build

/-!
# Pipelines

A pipeline is a machine with its two connectors. Here the connectors answer the moves of the
machine, and a pipeline takes turns with everything around it until there is nothing left to do
before time passes.
-/

namespace Conduit

open Stage

/-- What pipelines share. -/
structure Context where
  sizing : Config.Sizing := {}
  around : Surroundings := {}
  clock : Instant := 0
  /-- How many names have been handed out. -/
  fresh : Nat := 0

structure Pipeline where
  /-- What the pipeline goes by. -/
  id : String := ""
  machine : Machine Builtin
  inbound : Connector
  outbound : Connector
  /-- When the receiver went into its connector. -/
  since : Instant := 0
  /-- What the pipeline was built from, if it was built from a definition. -/
  definition : Option Config.Pipeline := none

namespace Pipeline

/-- A pipeline of ready parts, which goes by the id of its chain unless it is given another. -/
def ofParts (sizing : Config.Sizing) (chain : Chain Builtin) (inbound outbound : Connector)
    (id : String := chain.id) : Pipeline where
  id
  machine := {
    sizing
    inboundType := inbound.typeName
    outboundType := outbound.typeName
    chain := some chain }
  inbound
  outbound

def malformed (reason : String) (id : String := "") : Pipeline where
  id
  machine := .malformed reason
  inbound := .null true
  outbound := .null true

/-! ## Building -/

/-- The chain of a definition. What is wrong with a stage is found before what is wrong with a
label. -/
def buildChain (id : String) (d : Config.Pipeline) (sizing : Config.Sizing) :
    Except PipelineError (Chain Builtin) := do
  Chain.ofSlots id (← Stage.buildAll d.stages) sizing.maxHops

/-- The connector of one side, which is entered at once. -/
def buildConnector (e : Config.ConnectorEntry) (side : Direction) (ctx : Context) :
    Except PipelineError Connector × Context :=
  match Connector.build e side ctx.sizing with
  | .error e => (.error e, ctx)
  | .ok c =>
    (.ok c, { ctx with around := { ctx.around with directory := c.enter ctx.around.directory } })

/-- Builds what a pipeline consists of. The first part that is wrong decides: the chain, the inbound
and then the outbound connector. What was built before stays entered. -/
def buildParts (id : String) (d : Config.Pipeline) (ctx : Context) :
    Except PipelineError (Chain Builtin × Connector × Connector) × Context :=
  match buildChain id d ctx.sizing with
  | .error e => (.error e, ctx)
  | .ok chain =>
    match buildConnector d.inbound .inbound ctx with
    | (.error e, ctx) => (.error e, ctx)
    | (.ok inbound, ctx) =>
      match buildConnector d.outbound .outbound ctx with
      | (.error e, ctx) => (.error e, ctx)
      | (.ok outbound, ctx) => (.ok (chain, inbound, outbound), ctx)

/-- Builds a pipeline. A definition that is wrong gives a malformed pipeline. -/
def build (id : String) (d : Config.Pipeline) (ctx : Context) : Pipeline × Context :=
  match buildParts id d ctx with
  | (.ok (chain, inbound, outbound), ctx) =>
    ({ ofParts ctx.sizing chain inbound outbound id with definition := some d }, ctx)
  | (.error e, ctx) => ({ malformed e.message id with definition := some d }, ctx)

/-- Checks a definition. Its parts are built in turn and thrown away, but connectors stay entered. -/
def validate (d : Config.Pipeline) (ctx : Context) : Except PipelineError Unit × Context :=
  match buildChain "validate" d ctx.sizing with
  | .error e => (.error e, ctx)
  | .ok _ =>
    match buildConnector d.inbound .inbound ctx with
    | (.error e, ctx) => (.error e, ctx)
    | (.ok _, ctx) =>
      let (outbound, ctx) := buildConnector d.outbound .outbound ctx
      (outbound.map fun _ => (), ctx)

/-! ## Turns -/

/-- How long a message may keep a chain busy. -/
def patience : Nat := 1000000000

/-- A pipeline and what is around it after a turn. -/
abbrev Turn := Option (Pipeline × Context)

/-- Makes a move; copies are published at once. -/
def make (move : Move) (p : Pipeline) (ctx : Context) : Turn :=
  (p.machine.step patience ⟨ctx.clock, ctx.fresh⟩ move).map fun out =>
    ({ p with machine := out.machine },
      { ctx with
        fresh := out.fresh
        around := { ctx.around with
          directory := ctx.around.directory.publishAll out.published } })

/-- The receiver looks whether it is to go on, or works outside its connector. -/
def workReceiver (p : Pipeline) (ctx : Context) : Turn :=
  make (.work .receive) { p with since := ctx.clock } ctx

def receive (p : Pipeline) (ctx : Context) : Turn :=
  p.machine.run.bind fun r =>
    if r.receiver ≠ .receiving then none
    else
      match p.inbound.receive ctx.around with
      | .ready [] => none
      | .ready ((answer, inbound, around) :: _) =>
        make (.receive answer) { p with inbound } { ctx with around }
      | .after delay m =>
        if p.since + delay ≤ ctx.clock then make (.receive (.ok m)) p ctx else none
      | .blocked inbound =>
        if inbound = p.inbound then none else some ({ p with inbound }, ctx)

def send (p : Pipeline) (ctx : Context) : Turn :=
  p.machine.run.bind fun r =>
    match r.sender with
    | .sending w =>
      (p.outbound.send? ctx.around w).bind fun (answer, outbound, around) =>
        make (.send answer) { p with outbound } { ctx with around }
    | _ => none

/-- Opens both connectors. When the second does not open, the first is closed again. -/
def launch (p : Pipeline) (ctx : Context) : Turn :=
  if !p.machine.isWhole then make (.launch (.ok ()) (.ok ())) p ctx
  else
    match p.inbound.connect ctx.around with
    | (.error e, inbound, around) =>
      make (.launch (.error e) (.ok ())) { p with inbound } { ctx with around }
    | (.ok (), inbound, around) =>
      match p.outbound.connect around with
      | (.ok (), outbound, around) =>
        make (.launch (.ok ()) (.ok ())) { p with inbound, outbound } { ctx with around }
      | (.error e, outbound, around) =>
        let (inbound, around) := inbound.disconnect around
        make (.launch (.ok ()) (.error e)) { p with inbound, outbound } { ctx with around }

/-- Closes the connectors that have not been lost. -/
def closeAll (p : Pipeline) (ctx : Context) : Pipeline × Context :=
  let (inbound, around) :=
    if p.machine.hasInbound then p.inbound.disconnect ctx.around else (p.inbound, ctx.around)
  let (outbound, around) :=
    if p.machine.hasOutbound then p.outbound.disconnect around else (p.outbound, around)
  ({ p with inbound, outbound }, { ctx with around })

def tear (p : Pipeline) (ctx : Context) : Turn :=
  match p.machine.control with
  | .tearing _ .stopping =>
    let (inbound, around) := p.inbound.stop ctx.around
    make .tear { p with inbound } { ctx with around }
  | .tearing _ .clearing =>
    let (p, ctx) := p.closeAll ctx
    make .tear p ctx
  | _ => make .tear p ctx

/-- The next turn: the controller first, then the workers, then what is due. -/
def turn (p : Pipeline) (ctx : Context) : Turn :=
  [tear, launch, make .notice, make .accept, receive, workReceiver, make (.work .process), send,
    make (.work .send), make (.ring 0), make .signal].findSome? fun move => move p ctx

/-- When the pipeline goes on by itself, if it only waits for time to pass. -/
def due (p : Pipeline) (ctx : Context) : Option Instant :=
  p.machine.run.bind fun r =>
    let alarm := r.timers.head?.map (·.due)
    let message := match r.receiver, p.inbound.receive ctx.around with
      | .receiving, .after delay _ => some (p.since + delay)
      | _, _ => none
    match alarm, message with
    | some a, some m => some (min a m)
    | a, m => a <|> m

/-! ## Requests -/

/-- Takes turns until a request is answered. -/
def answer : (fuel : Nat) → Pipeline → Context →
    Except PipelineError Lifecycle × Pipeline × Context
  | 0, p, ctx => (.error .terminated, p, ctx)
  | fuel + 1, p, ctx =>
    match p.machine.replies with
    | reply :: rest => (reply, { p with machine := { p.machine with replies := rest } }, ctx)
    | [] =>
      match p.turn ctx with
      | some (p, ctx) => answer fuel p ctx
      | none => (.error .terminated, p, ctx)

/-- How many turns a request may take. -/
def turnLimit : Nat := 1000000

/-- The answer of a pipeline without a controller. -/
def refuse (p : Pipeline) (r : Request) : Except PipelineError Lifecycle :=
  match r, p.machine.board.state with
  | .stop, .malformed => .ok .malformed
  | _, .malformed => .error (.malformed (p.machine.board.lastError.getD ""))
  | _, _ => .error .terminated

/-- Has a request carried out. -/
def request (r : Request) (p : Pipeline) (ctx : Context) :
    Except PipelineError Lifecycle × Pipeline × Context :=
  if p.machine.control = .ended then (p.refuse r, p, ctx)
  else answer turnLimit { p with machine := p.machine.post r } ctx

/-- Ends a pipeline for good; a pipeline that has ended stays so. -/
def terminate (p : Pipeline) (ctx : Context) : Pipeline × Context :=
  let (_, p, ctx) := p.request .terminate ctx
  ({ p with machine := { p.machine with
      board := { p.machine.board with state := .terminated } } }, ctx)

def state (p : Pipeline) : Lifecycle := p.machine.board.state

/-- What the pipeline shows of itself. -/
def report (p : Pipeline) : Value := p.machine.board.report p.id

def describe (id : String) (p : Pipeline) : String :=
  "PipelineRuntime \x7b id: " ++ Text.quoted id ++ ", state: " ++ p.state.describe ++ " \x7d"

end Pipeline

end Conduit
