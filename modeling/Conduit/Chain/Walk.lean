import Conduit.Chain.Basic

/-!
# The way of a message

A message walks from stage to stage. At each it is given the metadata of the stage, checked for the
view that the stage expects, and shown to the stage. Copies then go to the fan-out queues of the
stage, whatever was decided. An accepted message goes on, a rejected one goes to the target for
rejected messages, where it counts as accepted again, or is dropped.
-/

namespace Conduit

open Stage

namespace Route

/-- Where an accepted message goes from place `i`. -/
def onward (r : Route) (i : Nat) : Nat := (r.passed.orElse fun _ => r.next).getD (i + 1)

/-- Where pieces made at place `i` go. -/
def continuation (r : Route) (i : Nat) : Nat := r.next.getD (i + 1)

/-- Where a message goes by the decision of the stage at place `i`. -/
def branch (r : Route) (i : Nat) (w : Wrapper) : Next :=
  if w.accepted then .go (r.onward i) w
  else match r.rejected with
    | some target => .go target { w with accepted := true }
    | none => .done .dropped

end Route

/-- Copies for the queues in turn; each copy names the queues up to its own. -/
def publications (w : Wrapper) : List String → List Publication × Wrapper
  | [] => ([], w)
  | name :: rest =>
    let w := { w with redirects := w.redirects.add name }
    let (copies, w') := publications w rest
    (⟨name, w⟩ :: copies, w')

/-- A step of a chain: the chain afterwards, the record of the visit, and how many names were
used. -/
structure Step (σ : Type) where
  chain : Chain σ
  visit : Visit
  named : Nat := 0

namespace Chain

variable {σ : Type} [Behaviour σ]

/-- The error of the stage in a slot. -/
def stageError (slot : Slot σ) (problem : PipelineError) : Next :=
  .done (.failed (.stage slot.displayName problem.message))

/-- Whether the working message has the view that a stage expects. -/
def meets (expect : Option Representation) (m : Message) : Except PipelineError Unit :=
  match expect with
  | none => .ok ()
  | some kind => (m.ensure kind).mapError Unviewable.toError

/-- What a stage's outcome leads to, and the copies it publishes. -/
def follow (slot : Slot σ) (r : Route) (i : Nat) : Outcome → Next × List Publication
  | .done w =>
    let w := if slot.routing.negate then { w with accepted := !w.accepted } else w
    let (copies, w) := publications w slot.routing.redirect
    (r.branch i w, copies)
  | .generate w pieces =>
    (.done (.generated ⟨r.continuation i, pieces⟩), (publications w slot.routing.redirect).1)
  | .hold w => (.done .held, (publications w slot.routing.redirect).1)
  | .failed e => (stageError slot e, [])
  | .crashed => (.done .crashed, [])

/-- Shows a message to the stage in a slot. -/
def visit (moment : Moment) (c : Chain σ) (i : Nat) (slot : Slot σ) (w : Wrapper) : Step σ :=
  let w := w.mergeMetadata slot.routing.metadata
  match meets slot.routing.expect w.working with
  | .error e => { chain := c, visit := { stage := i, entered := w, next := stageError slot e } }
  | .ok () =>
    let r := Behaviour.process moment slot.stage w
    let (next, published) := follow slot (c.route i) i r.outcome
    { chain := c.setStage i r.state, visit := ⟨i, w, next, published, r.timers⟩, named := r.named }

/-- What a walk leaves: its end, the chain, the visits in order, and how many names were used. -/
structure Walk (σ : Type) where
  ending : Ending
  chain : Chain σ
  visits : List Visit := []
  named : Nat := 0

/-- Walks on from a place with a number of visits left. Each visit reads the clock. -/
def walkFrom (moment : Moment) : (hops : Nat) → Chain σ → Nat → Wrapper → Walk σ
  | hops, c, i, w =>
    match c.slots[i]? with
    | none => { ending := if w.accepted then .delivered w else .dropped, chain := c }
    | some slot =>
      match hops with
      | 0 => { ending := .failed (.hopLimit c.hopLimit), chain := c }
      | hops + 1 =>
        let s := visit moment c i slot w
        match s.visit.next with
        | .done ending => { ending, chain := s.chain, visits := [s.visit], named := s.named }
        | .go j w =>
          let rest := walkFrom (moment.next s.named) hops s.chain j w
          { rest with visits := s.visit :: rest.visits, named := s.named + rest.named }

/-- Walks from a place with all visits that the chain allows. -/
def walk (moment : Moment) (c : Chain σ) (i : Nat) (w : Wrapper) : Walk σ :=
  walkFrom moment c.hopLimit c i w

end Chain

end Conduit
