import Conduit.Proofs.Chain.Patience
import Conduit.Proofs.Pipeline.Phases

/-!
# A run can always be torn down further

While a run is torn down, someone can go on in every state (`Machine.goesOn_of_tearing`). The
controller only ever waits for a worker, and that worker is not stuck: a receiver is in its
connector, whose session is stopped, or has only to look at the board; a processor that waits has
the signal, since the controller gave it when there was no receiver left, and alarms can only give
it again; a sender that waits finds the queue closed. The order of the phases is what makes this
true, and it is all that is used (`Machine.Torn`). That this does not go on for ever is shown in
`Conduit.Proofs.Pipeline.Completion`.

Whether a call to the chain returns is another question. A processor in a call that does not return
is not stuck either: it makes one visit after another (`Chain.exists_visits_respond`).
-/

namespace Conduit

open Stage

variable {σ : Type} [Behaviour σ]

/-- A call that never comes to an end makes more and more visits, whatever the input. -/
theorem Chain.exists_visits_respond {c : Chain σ} {p : Processor} {moment : Moment}
    (h : ∀ patience, ∃ x, p.input? patience moment = some x ∧
      (c.respond x).progress = .unfinished) (n : Nat) :
    ∃ patience x, p.input? patience moment = some x ∧ n ≤ (c.respond x).visits.length := by
  cases p with
  | running m =>
    have hcall (patience : Nat) : (c.process patience moment m).progress = .unfinished := by
      obtain ⟨_, ⟨⟩, hx⟩ := h patience
      exact hx
    exact (exists_visits_process hcall n).imp fun _ hv ↦ ⟨_, rfl, hv⟩
  | handling alarms =>
    cases alarms with
    | nil =>
      obtain ⟨_, hx, -⟩ := h 0
      cases hx
    | cons a rest =>
      have hcall (patience : Nat) :
          (c.expire patience moment a.stage a.token).progress = .unfinished := by
        obtain ⟨_, ⟨⟩, hx⟩ := h patience
        exact hx
      exact (exists_visits_expire hcall n).imp fun _ hv ↦ ⟨_, rfl, hv⟩
  | _ =>
    obtain ⟨_, hx, -⟩ := h 0
    cases hx

namespace Machine

/-- The move can be made, with enough patience. -/
def Can (m : Machine σ) (moment : Moment) (move : Move) : Prop :=
  ∃ patience, (m.step patience moment move).isSome = true

/-- The machine can go on, if connectors answer and the inbound connector does so only when its
session is stopped. -/
inductive GoesOn (m : Machine σ) (moment : Moment) : Prop
  | tear (h : m.Can moment .tear)
  | work (w : Worker) (h : m.Can moment (.work w))
  /-- The sender goes on however its connector answers. -/
  | send (h : ∀ answer, m.Can moment (.send answer))
  /-- The receiver goes on however its connector answers, and its session is stopped. -/
  | receive {reason : Reason} {phase : Phase} (hc : m.control = .tearing reason phase)
      (hp : Phase.stopping.rank < phase.rank) (h : ∀ answer, m.Can moment (.receive answer))
  /-- The processor is in a call to the chain that has not returned, however long it takes, and
  makes one visit to a stage after another. -/
  | visit {r : Run} {c : Chain σ} (hr : m.run = some r) (hc : m.chain = some c)
      (h : ∀ patience, ∃ x, r.processor.input? patience moment = some x ∧
        (c.respond x).progress = .unfinished)
      (hv : ∀ n, ∃ patience x, r.processor.input? patience moment = some x ∧
        n ≤ (c.respond x).visits.length)

variable {m : Machine σ} {r : Run} {moment : Moment}

/-! ## The controller -/

theorem can_tear (h : m.tear.isSome = true) : m.Can moment .tear :=
  ⟨0, by simpa [step] using h⟩

/-! ## Workers -/

omit [Behaviour σ] in
theorem isSome_leave {exit : Exit} (h : ∀ broken, exit ≠ .gone broken) :
    (m.leave exit).isSome = true := by
  cases exit with
  | failing => rfl
  | reporting => rfl
  | gone broken => exact absurd rfl (h broken)

/-- A receiver that is not gone works, or is in its connector. -/
theorem receiver_goes_on (moment : Moment) (hr : m.run = some r)
    (hg : ∀ broken, r.receiver ≠ .leaving (.gone broken)) :
    m.Can moment (.work .receive) ∨ ∀ answer, m.Can moment (.receive answer) := by
  have hwork (h : (m.workReceiver r).isSome = true) : m.Can moment (.work .receive) :=
    ⟨0, by simpa [step, hr] using h⟩
  cases hpos : r.receiver with
  | testing => exact .inl (hwork (by simp [workReceiver, hpos]))
  | receiving =>
    refine .inr fun answer ↦ ⟨0, ?_⟩
    rcases answer with e | message
    · cases e <;> simp [step, hr, received, hpos]
    · simp [step, hr, received, hpos]
  | queueing message => exact .inl (hwork (by simp [workReceiver, hpos]))
  | waking => exact .inl (hwork (by simp [workReceiver, hpos]))
  | refused e => exact .inl (hwork (by simp [workReceiver, hpos]))
  | leaving exit =>
    refine .inl (hwork ?_)
    have hl : (m.leave exit).isSome = true :=
      isSome_leave fun broken he ↦ hg broken (hpos.trans (he ▸ rfl))
    simpa [workReceiver, hpos] using hl

/-- A sender that is not gone works, or is in its connector, if the queue is closed. -/
theorem sender_goes_on (moment : Moment) (hr : m.run = some r) (hclosed : r.outbound.closed = true)
    (hg : ∀ broken, r.sender ≠ .leaving (.gone broken)) :
    m.Can moment (.work .send) ∨ ∀ answer, m.Can moment (.send answer) := by
  have hwork (h : (m.workSender r).isSome = true) : m.Can moment (.work .send) :=
    ⟨0, by simpa [step, hr] using h⟩
  cases hpos : r.sender with
  | waiting => exact .inl (hwork (by simp [workSender, hpos, Queue.blocks, hclosed]))
  | sending w =>
    refine .inr fun answer ↦ ⟨0, ?_⟩
    cases answer <;> simp [step, hr, sent, hpos]
  | refused e => exact .inl (hwork (by simp [workSender, hpos]))
  | leaving exit =>
    refine .inl (hwork ?_)
    have hl : (m.leave exit).isSome = true :=
      isSome_leave fun broken he ↦ hg broken (hpos.trans (he ▸ rfl))
    simpa [workSender, hpos] using hl

/-- A call to the chain comes back at some time, or goes on for ever. -/
theorem call_goes_on {c : Chain σ} (hr : m.run = some r) (hc : m.chain = some c)
    (hx : ∀ patience, ∃ x next, r.processor.input? patience moment = some x ∧
      m.workProcessor patience moment r = called moment m r next (c.respond x)) :
    m.GoesOn moment := by
  by_cases h : ∀ patience, ∃ x, r.processor.input? patience moment = some x ∧
      (c.respond x).progress = .unfinished
  · exact .visit hr hc h (Chain.exists_visits_respond h)
  · obtain ⟨patience, h⟩ := Classical.not_forall.1 h
    obtain ⟨x, next, hin, hwork⟩ := hx patience
    have hp : (c.respond x).progress ≠ .unfinished := fun hp ↦ h ⟨x, hin, hp⟩
    refine .work .process ⟨patience, ?_⟩
    rw [step, hr, Option.bind_some, hwork]
    unfold called
    cases hq : (c.respond x).progress with
    | unfinished => exact absurd hq hp
    | crashed => rfl
    | returned => rfl

/-- A processor that is not gone goes on, if it has the chain and does not wait in vain. -/
theorem processor_goes_on (hr : m.run = some r)
    (hlent : r.processor.Has m.chain) (hk : r.processor.Knows r.signal)
    (hg : ∀ broken, r.processor ≠ .leaving (.gone broken)) :
    m.GoesOn moment := by
  have hwork (h : (m.workProcessor 0 moment r).isSome = true) : m.GoesOn moment :=
    .work .process ⟨0, by simpa [step, hr] using h⟩
  have hchain (h : ∀ exit, r.processor ≠ .leaving exit) : ∃ c, m.chain = some c :=
    Option.isSome_iff_exists.1 (hlent.resolve_right fun ⟨exit, he⟩ ↦ h exit he)
  cases hpos : r.processor with
  | waiting =>
    have hs : r.signal.isSet = true := by
      rcases hk with hs | he | ⟨exit, he⟩
      · exact hs
      · rw [hpos] at he
        cases he
      · rw [hpos] at he
        cases he
    exact hwork (by simp [workProcessor, hpos, Latch.wait, hs])
  | handling alarms =>
    cases alarms with
    | nil => exact hwork (by simp [workProcessor, hpos])
    | cons a rest =>
      obtain ⟨c, hc⟩ := hchain (by simp [hpos])
      refine call_goes_on hr hc fun patience ↦ ⟨.alarm patience moment a, .alarms rest, ?_, ?_⟩
      · rw [hpos]
        rfl
      · simp only [workProcessor, hpos, hc, Option.bind_some]
        rfl
  | running message =>
    obtain ⟨c, hc⟩ := hchain (by simp [hpos])
    refine call_goes_on hr hc fun patience ↦ ⟨.message patience moment message, .messages, ?_, ?_⟩
    · rw [hpos]
      rfl
    · simp only [workProcessor, hpos, hc, Option.bind_some]
      rfl
  | taking =>
    cases hi : r.raw.items with
    | nil => exact hwork (by simp [workProcessor, hpos, Queue.pop_of_nil hi])
    | cons message rest => exact hwork (by simp [workProcessor, hpos, Queue.pop_of_cons hi])
  | queueing ws next =>
    cases ws with
    | nil => exact hwork (by simp [workProcessor, hpos])
    | cons w ws => exact hwork (by simp [workProcessor, hpos])
  | leaving exit =>
    have hl : (m.leave exit).isSome = true :=
      isSome_leave fun broken he ↦ hg broken (hpos.trans (he ▸ rfl))
    exact hwork (by simpa [workProcessor, hpos] using hl)
  | woken => exact hwork (by simp [workProcessor, hpos])
  | gathering => exact hwork (by simp [workProcessor, hpos])
  | counting o next => exact hwork (by simp [workProcessor, hpos])
  | testing => exact hwork (by simp [workProcessor, hpos])

/-! ## All together -/

/-- A run that is cleared is over, and the pipeline has stopped or failed. -/
theorem state_clear (m : Machine σ) (r : Run) :
    (m.clear r).board.state = .stopped ∨ (m.clear r).board.state = .failed := by
  unfold clear
  dsimp only
  split
  · rename_i h
    exact .inr h
  · exact .inl rfl

/-- In a machine that is in order, a run that is torn down can always be torn down further. -/
theorem Orderly.goesOn (h : m.Orderly) {reason : Reason} {phase : Phase}
    (hc : m.control = .tearing reason phase) (moment : Moment) : m.GoesOn moment := by
  obtain ⟨r, hr, ht⟩ := h.torn reason phase hc
  have htear (h : m.tear.isSome = true) : m.GoesOn moment := .tear (can_tear h)
  cases phase with
  | joining w =>
    cases w with
    | receive =>
      by_cases hg : ∃ broken, r.receiver = .leaving (.gone broken)
      · obtain ⟨broken, hg⟩ := hg
        exact htear (by simp [tear, hc, hr, gone?, hg])
      · rcases receiver_goes_on moment hr (not_exists.1 hg) with hw | hw
        · exact .work .receive hw
        · exact .receive hc (by decide) hw
    | process =>
      by_cases hg : ∃ broken, r.processor = .leaving (.gone broken)
      · obtain ⟨broken, hg⟩ := hg
        exact htear (by simp [tear, hc, hr, gone?, hg])
      · exact processor_goes_on hr (h.lent r hr) (ht.woken (by decide)) (not_exists.1 hg)
    | send =>
      by_cases hg : ∃ broken, r.sender = .leaving (.gone broken)
      · obtain ⟨broken, hg⟩ := hg
        exact htear (by simp [tear, hc, hr, gone?, hg])
      · rcases sender_goes_on moment hr (ht.closed (by decide)) (not_exists.1 hg)
          with hw | hw
        · exact .work .send hw
        · exact .send hw
  | _ => exact htear (by simp [tear, hc, hr])

/-- While a run is torn down, in whatever order everybody has made moves, someone can go on. The
teardown ends only when all workers are gone: then no run is live, and the pipeline has stopped or
failed. -/
theorem goesOn_of_tearing (sizing : Config.Sizing) (inboundType outboundType : String)
    (c : Chain σ) (acts : List Act) {reason : Reason} {phase : Phase}
    (hc : ((ready sizing inboundType outboundType c).history.after acts).machine.control =
      .tearing reason phase) (moment : Moment) :
    let m := ((ready sizing inboundType outboundType c).history.after acts).machine
    m.GoesOn moment ∧
      ∀ patience move out, m.step patience moment move = some out →
        (∃ phase', out.machine.control = .tearing reason phase') ∨
          ∃ r, m.run = some r ∧
            (∃ broken, r.receiver = .leaving (.gone broken)) ∧
            (∃ broken, r.processor = .leaving (.gone broken)) ∧
            (∃ broken, r.sender = .leaving (.gone broken)) ∧
            out.machine = (m.clear r).afterwards reason ∧ (m.clear r).run = none ∧
            ((m.clear r).board.state = .stopped ∨ (m.clear r).board.state = .failed) := by
  intro m
  have h : m.Orderly := History.orderly (orderly_ready sizing inboundType outboundType c) acts
  refine ⟨h.goesOn hc moment, fun patience move out hs ↦ ?_⟩
  refine (tearing_or_cleared hc (does_of_step hs)).imp (Exists.imp fun _ ↦ And.left) ?_
  rintro ⟨rfl, r, hr, hout⟩
  obtain ⟨r', hr', ht⟩ := h.torn reason .clearing hc
  obtain rfl : r = r' := Option.some.inj (hr.symm.trans hr')
  exact ⟨r, hr, ht.receiver (by decide), ht.processor (by decide), ht.sender (by decide), hout, rfl,
    state_clear m r⟩

end Machine

/-- A chain without stages. -/
def Chain.bare : Chain Builtin where
  id := "bare"
  slots := []
  plan := { routes := [] }

/-- A pipeline without stages is started and stopped. The receiver has just gone into its connector,
and the controller waits for it. -/
theorem Machine.goesOn_of_tearing_bare :
    let move (m : Move) : Act := .move 0 ⟨0, 0⟩ m
    let acts : List Act := [.post .start, move .accept, move (.launch (.ok ()) (.ok ())),
      move (.work .receive), .post .stop, move .accept, move .tear, move .tear, move .tear,
      move .tear, move .tear]
    let m := ((ready {} "null" "null" .bare).history.after acts).machine
    m.control = .tearing (.request .stop) (.joining .receive) ∧ m.tear.isNone = true ∧
      m.GoesOn ⟨0, 0⟩ :=
  ⟨rfl, rfl, (goesOn_of_tearing {} "null" "null" .bare _ rfl ⟨0, 0⟩).1⟩

end Conduit
