import Conduit.Config.Pipeline
import Conduit.Pipeline.Basic

/-!
# The registry of pipelines

A registry holds pipelines under their ids, and beside them the ids in the order in which they were
added. It has the pipelines take turns, and lets time pass when all of them wait.
-/

namespace Conduit

open Stage

structure Registry where
  context : Context := {}
  registered : Dictionary Pipeline := .empty
  /-- The ids in the order in which they were added. -/
  order : List String := []

namespace Registry

def ids (r : Registry) : List String := r.order

def size (r : Registry) : Nat := r.registered.size

def contains (r : Registry) (id : String) : Bool := r.registered.contains id

/-- The pipelines by id, in the order in which they were added. -/
def pipelines (r : Registry) : List (String × Pipeline) :=
  r.order.filterMap fun id => (r.registered.get? id).map (id, ·)

def find (r : Registry) (id : String) : Except PipelineError Pipeline :=
  match r.registered.get? id with
  | some p => .ok p
  | none => .error (.notFound id)

def status (r : Registry) (id : String) : Except PipelineError Value :=
  (r.find id).map Pipeline.report

/-- What all pipelines show of themselves, in order. -/
def statuses (r : Registry) : List Value := r.pipelines.map fun e => e.2.report

/-- Puts a pipeline under an id, in the place of the one that is there. -/
def put (r : Registry) (id : String) (p : Pipeline) : Registry :=
  { r with registered := r.registered.insert id p }

/-- Adds a pipeline at the end. -/
def insert (r : Registry) (id : String) (p : Pipeline) : Registry :=
  { r.put id p with order := r.order ++ [id] }

/-! ## Adding and removing -/

/-- Adds a ready pipeline under the id that it goes by. -/
def addReady (r : Registry) (p : Pipeline) : Except PipelineError Unit × Registry :=
  if r.contains p.id then (.error (.duplicateId p.id), r) else (.ok (), r.insert p.id p)

/-- Adds a ready pipeline, which goes by the given id from then on. -/
def addPipeline (r : Registry) (id : String) (p : Pipeline) : Except PipelineError Unit × Registry :=
  r.addReady { p with id }

/-- Builds a pipeline and adds it. A definition that is wrong is added as malformed. -/
def add (r : Registry) (id : String) (d : Config.Pipeline) :
    Except PipelineError Lifecycle × Registry :=
  if r.contains id then (.error (.duplicateId id), r)
  else
    let (p, context) := Pipeline.build id d r.context
    (.ok p.state, { r with context }.insert id p)

def validate (r : Registry) (d : Config.Pipeline) : Except PipelineError Unit × Registry :=
  let (answer, context) := Pipeline.validate d r.context
  (answer, { r with context })

/-- Takes a pipeline out. -/
def drop (r : Registry) (id : String) : Registry :=
  { r with registered := r.registered.erase id, order := r.order.filter (· != id) }

/-- Takes a pipeline out, stops it and ends it. -/
def remove (r : Registry) (id : String) : Except PipelineError Unit × Registry :=
  match r.find id with
  | .error e => (.error e, r)
  | .ok p =>
    let (_, p, context) := p.request .stop r.context
    let (_, context) := p.terminate context
    (.ok (), { r.drop id with context })

/-- Adds what a document defines. What could not be added is reported. -/
def load (r : Registry) (d : Config.Document) : List (String × PipelineError) × Registry :=
  d.entries.foldl (fun (failures, r) (id, p) =>
    match r.add id p with
    | (.ok _, r) => (failures, r)
    | (.error e, r) => (failures ++ [(id, e)], r)) ([], r)

/-- The definitions of the pipelines that have one. -/
def snapshot (r : Registry) : Config.Document :=
  r.pipelines.foldl (fun d (id, p) =>
    match p.definition with
    | some definition => d.insert id definition
    | none => d) {}

/-! ## Requests -/

def request (r : Registry) (id : String) (what : Request) :
    Except PipelineError Lifecycle × Registry :=
  match r.find id with
  | .error e => (.error e, r)
  | .ok p =>
    let (answer, p, context) := p.request what r.context
    (answer, { r with context }.put id p)

/-- Ends a pipeline but keeps it. -/
def terminate (r : Registry) (id : String) : Except PipelineError Lifecycle × Registry :=
  match r.find id with
  | .error e => (.error e, r)
  | .ok p =>
    let (p, context) := p.terminate r.context
    (.ok p.state, { r with context }.put id p)

/-- Starts every pipeline that can run; gives those that did not start. -/
def startAll (r : Registry) : List (String × PipelineError) × Registry :=
  r.order.foldl (fun (failures, r) id =>
    match r.registered.get? id with
    | none => (failures, r)
    | some p =>
      if p.state.isTerminal then (failures, r)
      else
        match r.request id .start with
        | (.ok _, r) => (failures, r)
        | (.error e, r) => (failures ++ [(id, e)], r)) ([], r)

/-- Ends all pipelines, the last one first. -/
def terminateAll (r : Registry) : Registry :=
  r.order.reverse.foldl (fun r id => (r.terminate id).2) r

/-- Replaces a pipeline by one with another definition, which goes on if the old one was running. The
new one has to wait until the old one has ended. -/
def update (r : Registry) (id : String) (d : Config.Pipeline) :
    Except PipelineError Lifecycle × Registry :=
  match r.find id with
  | .error e => (.error e, r)
  | .ok old =>
    let (new, context) := Pipeline.build id d r.context
    let (gone, context) := old.terminate context
    let r := { r with context }.put id new
    if gone.machine.control ≠ .ended then (.error .terminated, r)
    else if old.state = .running ∧ !new.state.isTerminal then r.request id .start
    else (.ok new.state, r)

/-! ## Turns and time -/

/-- The pipelines with the given ids take turns, if they can; nothing if none can. -/
def turns : List String → Registry → Option Registry
  | [], _ => none
  | id :: rest, r =>
    match (r.registered.get? id).bind (·.turn r.context) with
    | none => turns rest r
    | some (p, context) =>
      let r := { r with context }.put id p
      some ((turns rest r).getD r)

def settleWithin : (fuel : Nat) → Registry → Registry
  | 0, r => r
  | fuel + 1, r =>
    match turns r.order r with
    | none => r
    | some r => settleWithin fuel r

/-- Has all pipelines take turns until they wait. -/
def settle (r : Registry) : Registry := r.settleWithin Pipeline.turnLimit

def clock (r : Registry) : Instant := r.context.clock

def setClock (r : Registry) (clock : Instant) : Registry :=
  { r with context := { r.context with clock := max r.clock clock } }

/-- When the first of the pipelines goes on by itself. -/
def due (r : Registry) : Option Instant := (r.pipelines.filterMap fun e => e.2.due r.context).min?

/-- Lets time pass until a condition holds and nothing is due for a while, but not beyond a
deadline. -/
def waitWithin (holds : Registry → Bool) (quiet deadline : Nat) :
    (fuel : Nat) → Registry → Bool × Registry
  | 0, r => (false, r)
  | fuel + 1, r =>
    let r := r.settle
    let next := r.due.getD (deadline + quiet + 1)
    if holds r ∧ r.clock + quiet < next then (true, r.setClock (r.clock + quiet))
    else if next ≤ deadline then waitWithin holds quiet deadline fuel (r.setClock next)
    else (false, r.setClock deadline)

/-- Waits for a condition for at most two seconds. Whether it came about, and the registry
afterwards. -/
def wait (r : Registry) (holds : Registry → Bool) (quiet : Nat := 0) : Bool × Registry :=
  r.waitWithin holds quiet (r.clock + 2000000) 100000

def describe (r : Registry) : String :=
  "PipelineRegistry \x7b pipelines: " ++ Text.quotedList r.ids ++ " \x7d"

end Registry

end Conduit
