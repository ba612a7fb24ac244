import Conduit.Proofs.Pipeline.Moves
import Conduit.Proofs.Queue.Use

/-!
# Steps as moves

Every step of a machine is one of the moves of the actor that makes it, with the deed that the move
has (`does_of_step`).
-/

namespace Conduit.Machine

open Stage

variable {σ : Type} [Behaviour σ] {m m' : Machine σ} {r : Run} {patience : Nat} {moment : Moment}

/-! ## Workers -/

omit [Behaviour σ] in
theorem exit_does_of_leave {exit exit' : Exit} (h : m.leave exit = some (m', exit')) :
    exit.Does m.board m.failure m'.board m'.failure exit' ∧
      m' = { m with board := m'.board, failure := m'.failure } := by
  cases exit with
  | failing text broken =>
    cases h
    exact ⟨.fail text broken, rfl⟩
  | reporting broken =>
    cases h
    exact ⟨.report broken, rfl⟩
  | gone broken => cases h

theorem does_of_received {answer : Except ConnectorError Message} (hr : m.run = some r)
    (h : m.received r answer = some m') :
    m.DoesBy (.receive answer) (m.deed patience moment (.receive answer)) m' := by
  have hw : (Move.receive answer).worker? = some .receive := rfl
  unfold received at h
  split at h
  · rename_i message hpos
    cases h
    exact (DoesBy.receiver hw hr (.receive message hpos) :)
  · rename_i hpos
    cases h
    exact (DoesBy.receiver hw hr (.retry hpos) :)
  · rename_i e _ hpos
    cases h
    exact (DoesBy.receiver hw hr (.refuse e hpos) :)
  · cases h

theorem does_of_workReceiver (hr : m.run = some r) (h : m.workReceiver r = some m') :
    m.DoesBy (.work .receive) none m' := by
  have hw : (Move.work .receive).worker? = some .receive := rfl
  unfold workReceiver at h
  split at h
  · rename_i hpos
    cases h
    cases ha : m.board.active with
    | true => exact (DoesBy.receiver hw hr (.goOn hpos ha) :)
    | false => exact (DoesBy.receiver hw hr (.quit hpos ha) :)
  · cases h
  · rename_i message hpos
    cases hf : r.raw.isFull with
    | false =>
      rw [Queue.push_of_room hf] at h
      cases h
      exact (DoesBy.receiver hw hr (.queue message hpos hf) :)
    | true =>
      rw [Queue.push_of_full hf] at h
      cases h
      exact (DoesBy.receiver hw hr (.overflow message hpos hf) :)
  · rename_i hpos
    cases h
    exact (DoesBy.receiver hw hr (.wake hpos) :)
  · rename_i e hpos
    cases h
    unfold refusal
    cases ha : m.board.active with
    | true => exact (DoesBy.receiver hw hr (.fail e hpos ha) :)
    | false => exact (DoesBy.receiver hw hr (.giveUp e hpos ha) :)
  · rename_i exit hpos
    obtain ⟨⟨m₁, exit'⟩, hl, rfl⟩ := Option.map_eq_some_iff.1 h
    obtain ⟨he, hm⟩ := exit_does_of_leave hl
    rw [hm]
    exact (DoesBy.receiver hw hr (.leave hpos he) :)

theorem does_of_sent {answer : Except ConnectorError Unit} (hr : m.run = some r)
    (h : m.sent r answer = some m') :
    m.DoesBy (.send answer) (m.deed patience moment (.send answer)) m' := by
  have hw : (Move.send answer).worker? = some .send := rfl
  unfold sent at h
  split at h
  · rename_i w hpos
    cases h
    exact (DoesBy.sender hw hr (.send w hpos) :)
  · rename_i w e hpos
    cases h
    exact (DoesBy.sender hw hr (.refuse w e hpos) :)
  · cases h

theorem does_of_workSender (hr : m.run = some r) (h : m.workSender r = some m') :
    m.DoesBy (.work .send) r.handing? m' := by
  have hw : (Move.work .send).worker? = some .send := rfl
  unfold workSender at h
  unfold Run.handing?
  split at h
  · rename_i hpos
    rw [hpos]
    split at h
    · cases h
    · rename_i hb
      cases hi : r.outbound.items with
      | nil =>
        rw [Queue.pop_of_nil hi] at h
        cases h
        have hc : r.outbound.closed = true := by simpa [Queue.blocks, hi] using hb
        exact (DoesBy.sender hw hr (.quit hpos hi hc) :)
      | cons w rest =>
        rw [Queue.pop_of_cons hi] at h
        cases h
        exact (DoesBy.sender hw hr (.take w rest hpos hi) :)
  · cases h
  · rename_i e hpos
    rw [hpos]
    cases h
    unfold refusal
    cases ha : m.board.active with
    | true => exact (DoesBy.sender hw hr (.fail e hpos ha) :)
    | false => exact (DoesBy.sender hw hr (.giveUp e hpos ha) :)
  · rename_i exit hpos
    rw [hpos]
    obtain ⟨⟨m₁, exit'⟩, hl, rfl⟩ := Option.map_eq_some_iff.1 h
    obtain ⟨he, hm⟩ := exit_does_of_leave hl
    rw [hm]
    exact (DoesBy.sender hw hr (.leave hpos he) :)

theorem does_of_breakdown {w : Worker} (hr : m.run = some r) (h : m.breakdown r w = some m') :
    m.DoesBy (.breakdown w) (some (.broke w)) m' := by
  have hw : (Move.breakdown w).worker? = some w := rfl
  cases w with
  | process => cases h
  | receive =>
    simp only [breakdown] at h
    split at h
    · rename_i hpos
      cases h
      exact (DoesBy.receiver hw hr (.breakDown hpos) :)
    · cases h
  | send =>
    simp only [breakdown] at h
    split at h
    · rename_i w hpos
      cases h
      exact (DoesBy.sender hw hr (.breakDown w hpos) :)
    · cases h

theorem does_of_called {c : Chain σ} {x : Input} {next : Errand} {out : Moved σ}
    (hr : m.run = some r) (hc : m.chain = some c) (hx : r.processor.input? patience moment = some x)
    (hnext : next = .messages ∧ (∃ message, r.processor = .running message) ∨
      ∃ a rest, next = .alarms rest ∧ r.processor = .handling (a :: rest))
    (h : called moment m r next (c.respond x) = some out) :
    m.DoesBy (.work .process) (m.answer? patience moment r) out.machine := by
  rw [answer?, hc, Option.bind_some, hx, Option.map_some]
  have hw : (Move.work .process).worker? = some .process := rfl
  unfold called at h
  split at h
  · cases h
  · rename_i hp
    cases h
    rw [if_pos hp]
    exact (DoesBy.processor hw hr (.breakDown patience moment hx hc hp) :)
  · rename_i hp
    cases h
    rw [if_neg (by rw [hp]; decide)]
    rcases hnext with ⟨rfl, message, hpos⟩ | ⟨a, rest, rfl, hpos⟩
    · rw [hpos] at hx
      cases hx
      exact (DoesBy.processor hw hr (.answerMessage patience moment hpos hc hp) :)
    · rw [hpos] at hx
      cases hx
      exact (DoesBy.processor hw hr (.answerAlarm patience moment hpos hc hp) :)

/-- What is not about to be shown to the chain is no deed. -/
theorem answer?_of_input?_eq_none (h : r.processor.input? patience moment = none) :
    m.answer? patience moment r = none := by
  rw [answer?, h]
  cases m.chain <;> rfl

theorem does_of_workProcessor {out : Moved σ} (hr : m.run = some r)
    (h : m.workProcessor patience moment r = some out) :
    m.DoesBy (.work .process) (m.answer? patience moment r) out.machine := by
  have hquiet (hi : r.processor.input? patience moment = none)
      (hd : m.DoesBy (.work .process) none out.machine) :
      m.DoesBy (.work .process) (m.answer? patience moment r) out.machine := by
    rwa [answer?_of_input?_eq_none hi]
  have hw : (Move.work .process).worker? = some .process := rfl
  unfold workProcessor at h
  split at h
  · rename_i hpos
    refine hquiet (by rw [hpos]; rfl) ?_
    cases hs : r.signal.isSet with
    | false =>
      simp only [Latch.wait, hs] at h
      cases h
    | true =>
      simp only [Latch.wait, hs] at h
      cases h
      exact (DoesBy.processor hw hr (.wake hpos hs) :)
  · rename_i hpos
    cases h
    refine hquiet (by rw [hpos]; rfl) ?_
    cases ha : m.board.active with
    | true => exact (DoesBy.processor hw hr (.goOn hpos ha) :)
    | false => exact (DoesBy.processor hw hr (.quit hpos ha) :)
  · rename_i hpos
    cases h
    exact hquiet (by rw [hpos]; rfl) (DoesBy.processor hw hr (.gather hpos) :)
  · rename_i hpos
    cases h
    exact hquiet (by rw [hpos]; rfl) (DoesBy.processor hw hr (.attend hpos) :)
  · rename_i a rest hpos
    obtain ⟨c, hc, h⟩ := Option.bind_eq_some_iff.1 h
    exact does_of_called (x := .alarm patience moment a) hr hc (by rw [hpos]; rfl)
      (.inr ⟨a, rest, rfl, hpos⟩) h
  · rename_i hpos
    refine hquiet (by rw [hpos]; rfl) ?_
    cases hi : r.raw.items with
    | nil =>
      rw [Queue.pop_of_nil hi] at h
      cases h
      exact (DoesBy.processor hw hr (.rest hpos hi) :)
    | cons message rest =>
      rw [Queue.pop_of_cons hi] at h
      cases h
      exact (DoesBy.processor hw hr (.take hpos hi) :)
  · rename_i message hpos
    obtain ⟨c, hc, h⟩ := Option.bind_eq_some_iff.1 h
    exact does_of_called (x := .message patience moment message) hr hc (by rw [hpos]; rfl)
      (.inl ⟨rfl, message, hpos⟩) h
  · rename_i o next hpos
    cases h
    exact hquiet (by rw [hpos]; rfl) (DoesBy.processor hw hr (.count hpos) :)
  · rename_i next hpos
    cases h
    exact hquiet (by rw [hpos]; rfl) (DoesBy.processor hw hr (.resume hpos) :)
  · rename_i w ws next hpos
    refine hquiet (by rw [hpos]; rfl) ?_
    cases hf : r.outbound.isFull with
    | false =>
      rw [Queue.push_of_room hf] at h
      cases h
      exact (DoesBy.processor hw hr (.queue hpos hf) :)
    | true =>
      rw [Queue.push_of_full hf] at h
      cases h
      exact (DoesBy.processor hw hr (.overflow hpos hf) :)
  · rename_i hpos
    cases h
    exact hquiet (by rw [hpos]; rfl) (DoesBy.processor hw hr (.look hpos) :)
  · rename_i exit hpos
    obtain ⟨⟨m₁, exit'⟩, hl, rfl⟩ := Option.map_eq_some_iff.1 h
    obtain ⟨he, hm⟩ := exit_does_of_leave hl
    refine hquiet (by rw [hpos]; rfl) ?_
    rw [hm]
    exact (DoesBy.processor hw hr (.leave hpos he) :)

/-! ## Alarms and the controller -/

theorem does_of_ring {i : Nat} (hr : m.run = some r) (h : m.ring moment.now r i = some m') :
    m.DoesBy (.ring i) none m' := by
  obtain ⟨a, ha, h⟩ := Option.bind_eq_some_iff.1 h
  split at h
  · cases hf : r.alarms.isFull with
    | false =>
      rw [Queue.push_of_room hf] at h
      cases h
      exact (DoesBy.ring hr ha hf :)
    | true =>
      rw [Queue.push_of_full hf] at h
      cases h
      exact (DoesBy.lose hr ha hf :)
  · cases h

theorem does_of_giveSignal (hr : m.run = some r) (h : m.giveSignal r = some m') :
    m.DoesBy .signal none m' := by
  unfold giveSignal at h
  split at h
  · cases h
  · rename_i hn
    cases h
    exact .signal hr hn

theorem does_of_accept (h : m.accept = some m') : m.DoesBy .accept none m' := by
  unfold accept at h
  split at h
  · rename_i request rest hi hq
    cases h
    exact .controller (by rw [hi]; trivial) (.accept hi hq)
  · cases h

theorem does_of_notice (h : m.notice = some m') : m.DoesBy .notice none m' := by
  unfold notice at h
  split at h
  · rename_i hi
    dsimp only at h
    split at h
    · rename_i hl
      cases h
      exact .controller (by rw [hi.1]; trivial) (.notice hi.1 hi.2 hl.1 hl.2)
    · rename_i hl
      cases h
      exact .controller (by rw [hi.1]; trivial) (.ignore hi.1 hi.2 hl)
  · cases h

theorem deed_launch_of_not_whole (h : m.isWhole = false)
    (inbound outbound : Except ConnectorError Unit) :
    m.deed patience moment (.launch inbound outbound) = none := by
  rcases inbound with _ | ⟨⟩ <;> rcases outbound with _ | ⟨⟩
  · rfl
  · rfl
  · rfl
  · rw [deed, h]
    rfl

theorem does_of_launch {inbound outbound : Except ConnectorError Unit}
    (h : m.launch moment.now inbound outbound = some m') :
    m.DoesBy (.launch inbound outbound) (m.deed patience moment (.launch inbound outbound)) m' := by
  unfold launch at h
  split at h
  · cases h
  · rename_i hs
    have hs : m.control = .starting := Decidable.not_not.1 hs
    refine .controller (by rw [hs]; trivial) ?_
    have hwhole : ({ m with board := m.board.clearErrors } : Machine σ).isWhole = m.isWhole := rfl
    dsimp only at h
    rw [hwhole] at h
    split at h
    · rename_i hw
      cases h
      rw [deed_launch_of_not_whole hw]
      exact .giveUp _ hs
    · cases h
      exact .giveUp _ hs
    · cases h
      exact .giveUp _ hs
    · rename_i hw
      cases h
      have hsome : m.chain.isSome = true := by
        simp only [isWhole, Bool.and_eq_true] at hw
        exact hw.1.1
      obtain ⟨c, hc⟩ := Option.isSome_iff_exists.1 hsome
      simp only [deed, hw, if_true, hc, Option.map_some]
      exact .begin moment.now hs hw hc

theorem does_of_tear (h : m.tear = some m') : m.DoesBy .tear none m' := by
  unfold tear at h
  split at h
  · rename_i reason phase r hc hr
    refine .controller (by rw [hc]; trivial) ?_
    dsimp only at h
    split at h
    · cases h
      exact .tear hc hr .deactivate
    · cases h
      exact .tear hc hr .look
    · rename_i failed
      cases h
      exact .tear hc hr (.mark failed)
    · cases h
      exact .tear hc hr .stop
    · cases h
      exact .tear hc hr .close
    · obtain ⟨broken, hg, h⟩ := Option.bind_eq_some_iff.1 h
      cases h
      exact .tear hc hr (.joinReceiver hg)
    · cases h
      exact .tear hc hr .wake
    · obtain ⟨broken, hg, h⟩ := Option.bind_eq_some_iff.1 h
      cases h
      exact .tear hc hr (.joinProcessor hg)
    · obtain ⟨broken, hg, h⟩ := Option.bind_eq_some_iff.1 h
      cases h
      exact .tear hc hr (.joinSender hg)
    · cases h
      exact .clear hc hr
  · cases h

/-! ## The machine -/

/-- A step is something that the machine can do, and the move says who does it. -/
theorem doesBy_of_step {move : Move} {out : Moved σ} (h : m.step patience moment move = some out) :
    m.DoesBy move (m.deed patience moment move) out.machine := by
  unfold step at h
  cases move with
  | receive answer =>
    obtain ⟨m', hm, rfl⟩ := Option.map_eq_some_iff.1 h
    obtain ⟨r, hr, hm⟩ := Option.bind_eq_some_iff.1 hm
    exact does_of_received hr hm
  | send answer =>
    obtain ⟨m', hm, rfl⟩ := Option.map_eq_some_iff.1 h
    obtain ⟨r, hr, hm⟩ := Option.bind_eq_some_iff.1 hm
    exact does_of_sent hr hm
  | breakdown w =>
    obtain ⟨m', hm, rfl⟩ := Option.map_eq_some_iff.1 h
    obtain ⟨r, hr, hm⟩ := Option.bind_eq_some_iff.1 hm
    exact does_of_breakdown hr hm
  | work w =>
    cases w with
    | receive =>
      obtain ⟨m', hm, rfl⟩ := Option.map_eq_some_iff.1 h
      obtain ⟨r, hr, hm⟩ := Option.bind_eq_some_iff.1 hm
      exact does_of_workReceiver hr hm
    | process =>
      obtain ⟨r, hr, hm⟩ := Option.bind_eq_some_iff.1 h
      rw [deed, hr]
      exact does_of_workProcessor hr hm
    | send =>
      obtain ⟨m', hm, rfl⟩ := Option.map_eq_some_iff.1 h
      obtain ⟨r, hr, hm⟩ := Option.bind_eq_some_iff.1 hm
      rw [deed, hr]
      exact does_of_workSender hr hm
  | ring i =>
    obtain ⟨m', hm, rfl⟩ := Option.map_eq_some_iff.1 h
    obtain ⟨r, hr, hm⟩ := Option.bind_eq_some_iff.1 hm
    exact does_of_ring hr hm
  | signal =>
    obtain ⟨m', hm, rfl⟩ := Option.map_eq_some_iff.1 h
    obtain ⟨r, hr, hm⟩ := Option.bind_eq_some_iff.1 hm
    exact does_of_giveSignal hr hm
  | accept =>
    obtain ⟨m', hm, rfl⟩ := Option.map_eq_some_iff.1 h
    exact does_of_accept hm
  | notice =>
    obtain ⟨m', hm, rfl⟩ := Option.map_eq_some_iff.1 h
    exact does_of_notice hm
  | tear =>
    obtain ⟨m', hm, rfl⟩ := Option.map_eq_some_iff.1 h
    exact does_of_tear hm
  | launch inbound outbound =>
    obtain ⟨m', hm, rfl⟩ := Option.map_eq_some_iff.1 h
    exact does_of_launch hm

/-- A step is something that the machine can do. -/
theorem does_of_step {move : Move} {out : Moved σ} (h : m.step patience moment move = some out) :
    m.Does (m.deed patience moment move) out.machine := (doesBy_of_step h).does

end Conduit.Machine
