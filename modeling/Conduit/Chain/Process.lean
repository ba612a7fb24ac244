import Conduit.Chain.Walk

/-!
# Calls to a chain

A call sends a message through the chain and then all pieces that were made on the way, the latest
family first, before it returns. Pieces that an earlier call left behind go first.

The clock is read when a call is made and then once at each visit.

A chain can make pieces for ever, so a call is given a patience, the number of steps after which it
is given up. A call that has returned returns the same with more patience.
-/

namespace Conduit

open Stage

inductive Progress
  | returned
  /-- A stage broke down; what was going on is lost, pending pieces stay. -/
  | crashed
  /-- Out of patience. -/
  | unfinished
deriving DecidableEq, Repr

/-- A call as far as it has come. -/
structure Call (σ : Type) where
  chain : Chain σ
  /-- How many names have been handed out. -/
  fresh : Nat := 0
  output : Output := {}
  /-- All visits so far, in order. -/
  visits : List Visit := []
  progress : Progress := .returned

namespace Call

variable {σ : Type}

/-- The copies for fan-out queues, in order. -/
def published (c : Call σ) : List Publication := c.visits.flatMap (·.published)

/-- The output of one walk. -/
def outputOf : Ending → Output
  | .delivered w => { delivered := [w] }
  | .dropped => { dropped := 1 }
  | .held => { held := 1 }
  | .failed e => { errors := [e] }
  | .generated _ | .crashed => {}

/-- Puts a family of pieces on top of those of the chain. -/
def pendingOf : Ending → List Generation
  | .generated g => [g]
  | _ => []

/-- The call after a walk. -/
def absorb (c : Call σ) (w : Chain.Walk σ) : Call σ where
  chain := { w.chain with pending := pendingOf w.ending ++ w.chain.pending }
  fresh := c.fresh + w.named
  output := c.output ++ outputOf w.ending
  visits := c.visits ++ w.visits
  progress := if w.ending = .crashed then .crashed else .returned

/-- The moment of the next visit, given the clock as the call found it. -/
def moment (clock : Clock) (c : Call σ) : Moment := ⟨clock.later (c.visits.length + 1), c.fresh⟩

variable [Behaviour σ]

/-- Sends a fresh wrapper through the chain from a place. -/
def send (clock : Clock) (c : Call σ) (i : Nat) (w : Wrapper) : Call σ :=
  c.absorb (c.chain.walk (c.moment clock) i w)

/-- Sends pieces through the chain until none is left. -/
def drain (clock : Clock) : (patience : Nat) → Call σ → Call σ
  | 0, c => if c.chain.isGenerating then { c with progress := .unfinished } else c
  | patience + 1, c =>
    match c.chain.pending with
    | [] => c
    | ⟨_, []⟩ :: rest => drain clock patience { c with chain := { c.chain with pending := rest } }
    | ⟨i, m :: more⟩ :: rest =>
      let c := { c with chain := { c.chain with pending := ⟨i, more⟩ :: rest } }
      let c := c.send clock i (.ofMessage m)
      match c.progress with
      | .returned => drain clock patience c
      | _ => c

/-- Goes on unless the call has come to an end. -/
def andThen (c : Call σ) (f : Call σ → Call σ) : Call σ :=
  match c.progress with
  | .returned => f c
  | _ => c

end Call

namespace Chain

variable {σ : Type} [Behaviour σ]

/-- Sends one message through the chain. -/
def process (patience : Nat) (moment : Moment) (c : Chain σ) (m : Message) : Call σ :=
  let call : Call σ := { chain := c, fresh := moment.fresh }
  (call.drain moment.clock patience).andThen fun call =>
    (call.send moment.clock 0 (.ofMessage m)).andThen (Call.drain moment.clock patience)

/-- Sends several messages through the chain, one after the other. -/
def processAll (patience : Nat) (moment : Moment) (c : Chain σ) : List Message → Call σ
  | [] => { chain := c, fresh := moment.fresh }
  | m :: rest =>
    (c.process patience moment m).andThen fun first =>
      let next := ⟨moment.clock.later first.visits.length, first.fresh⟩
      let others := processAll patience next first.chain rest
      { others with
        output := first.output ++ others.output
        visits := first.visits ++ others.visits }

/-- Tells a stage that one of its timers went off. A message that the stage lets go walks on as
accepted from there. -/
def expire (patience : Nat) (moment : Moment) (c : Chain σ) (i : Nat) (token : UInt64) : Call σ :=
  match c.slots[i]? with
  | none => { chain := c, fresh := moment.fresh }
  | some slot =>
    let r := Behaviour.expire moment.now slot.stage token
    let call : Call σ := { chain := c.setStage i r.state, fresh := moment.fresh }
    let call := match r.result with
      | .ok none => call
      | .ok (some m) =>
        call.send moment.clock ((c.route i).onward i)
          ((Wrapper.ofMessage m).mergeMetadata slot.routing.metadata)
      | .error e => { call with output := { errors := [.stage slot.displayName e.message] } }
    call.andThen (Call.drain moment.clock patience)

end Chain

end Conduit
