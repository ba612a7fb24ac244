import Conduit.Proofs.Pipeline.Accounting
import Conduit.Proofs.Pipeline.Ledger

/-!
# No wake-up is lost

The processor forgets the signal before it looks into its queues, and others put things there at any
time. Still, as long as a run is to go on, what lies in a queue of a processor that waits, and has
no signal, is owed the signal by the one who put it there (`History.signal_owed`).
-/

namespace Conduit

open Stage

variable {σ : Type}

/-! ## Steps of the others -/

/-- The second run has the queues of the processor, and those who put things there, as the first has
them, and it has the signal if the first has it. -/
structure Run.Keeps (r r' : Run) : Prop where
  raw : r'.raw = r.raw
  alarms : r'.alarms = r.alarms
  receiver : r'.receiver = r.receiver
  processor : r'.processor = r.processor
  ringing : r'.ringing = r.ringing
  signal : r.signal.isSet = true → r'.signal.isSet = true

theorem Run.Keeps.refl (r : Run) : r.Keeps r := ⟨rfl, rfl, rfl, rfl, rfl, id⟩

namespace Ledger

variable {l : Ledger} {r r' : Run} {active active' : Bool}

theorem Tracks.of_keeps (h : l.Tracks r) (hr : r.Keeps r') : l.Tracks r' where
  raw := hr.raw ▸ h.raw
  alarms := hr.alarms ▸ h.alarms
  receiver := hr.receiver ▸ h.receiver
  ringing := hr.ringing ▸ h.ringing

theorem Awaited.of_keeps (h : l.Awaited active r) (hr : r.Keeps r')
    (ha : active' = true → active = true) : l.Awaited active' r' where
  raw ha' e he := by
    rw [hr.processor]
    exact (h.raw (ha ha') e he).imp_right (Or.imp_left hr.signal)
  alarms ha' e he := by
    rw [hr.processor]
    exact (h.alarms (ha ha') e he).imp_right (Or.imp_left hr.signal)

end Ledger

namespace Machine

variable {m m' : Machine σ} {r : Run}

/-- To tear a run down puts nothing into its queues, and does not make it go on. -/
theorem keeps_of_tears {phase phase' : Phase} (hr : m.run = some r)
    (ht : m.Tears r phase m' phase') :
    (m'.board.active = true → m.board.active = true) ∧ ∃ r', m'.run = some r' ∧ r.Keeps r' := by
  cases ht with
  | deactivate => exact ⟨fun ha ↦ (by cases ha), r, hr, .refl r⟩
  | mark failed => cases failed <;> exact ⟨id, r, hr, .refl r⟩
  | close => exact ⟨id, _, rfl, rfl, rfl, rfl, rfl, rfl, id⟩
  | wake => exact ⟨id, _, rfl, rfl, rfl, rfl, rfl, rfl, fun _ ↦ rfl⟩
  | joinReceiver => exact ⟨by rw [active_join]; exact id, r, (run_join m _ _).trans hr, .refl r⟩
  | joinProcessor => exact ⟨by rw [active_join]; exact id, r, (run_join m _ _).trans hr, .refl r⟩
  | joinSender => exact ⟨by rw [active_join]; exact id, r, (run_join m _ _).trans hr, .refl r⟩
  | _ => exact ⟨id, r, hr, .refl r⟩

end Machine

/-! ## Whole machines -/

namespace Ledger

theorem note_of_worker {m : Machine σ} {r : Run} {move : Move} {w : Worker}
    (hw : move.worker? = some w) (hr : m.run = some r) (l : Ledger) :
    l.note m move = match w with
      | .receive => l.receive r
      | .process => l.process r
      | .send => l := by
  cases move with
  | receive => cases hw; simp [note, hr, Move.worker?]
  | send => cases hw; simp [note, hr, Move.worker?]
  | breakdown => cases hw; cases w <;> simp [note, hr, Move.worker?]
  | work => cases hw; cases w <;> simp [note, hr, Move.worker?]
  | _ => cases hw

/-- While a run is live the controller puts nothing into queues. -/
theorem note_of_controller {m : Machine σ} {r : Run} {move : Move} (hm : m.Orderly)
    (hr : m.run = some r) (ha : m.control.Admits move) (l : Ledger) : l.note m move = l := by
  cases hc : m.control with
  | idle =>
    rcases (hc ▸ ha : Control.idle.Admits move).of_idle with rfl | rfl <;>
      simp [note, hr, Move.worker?]
  | starting => cases hr.symm.trans (hm.resting (.inl hc))
  | tearing reason phase =>
    obtain rfl := (hc ▸ ha : (Control.tearing reason phase).Admits move).of_tearing
    simp [note, hr, Move.worker?]
  | ended => exact (hc ▸ ha : Control.ended.Admits move).elim

end Ledger

namespace Machine

/-- What lies in the queues of the processor is entered in the ledger, and does not lie there
unnoticed. -/
structure Hears (m : Machine σ) (l : Ledger) : Prop where
  numbered : l.Numbered
  run : ∀ r, m.run = some r → l.Tracks r ∧ l.Awaited m.board.active r

variable [Behaviour σ] {m m' : Machine σ} {l : Ledger}

theorem Hears.of_controls (h : m.Hears l) (hm : m.Orderly) {move : Move} {deed : Option (Deed σ)}
    (ha : m.control.Admits move) (hd : m.Controls deed m') : m'.Hears (l.note m move) := by
  refine ⟨h.numbered.note m move, fun r' hr' ↦ ?_⟩
  rcases controls_cases hd with ⟨-, hrests⟩ | ⟨c, now, -, hc, -, -, -, -, -, hnew⟩ |
    ⟨reason, phase, phase', r, m₁, -, hc, hr, ht, rfl⟩ | ⟨reason, r, -, -, -, hrests⟩
  · have hr : m.run = some r' := hrests.run ▸ hr'
    rw [Ledger.note_of_controller hm hr ha, hrests.active]
    exact h.run r' hr
  · have hnone : m.run = none := hm.resting (.inl hc)
    obtain ⟨inbound, outbound, rfl⟩ := (hc ▸ ha : Control.starting.Admits move).of_starting
    have hnote : l.note m (.launch inbound outbound) = { turns := l.turns, pushes := l.pushes } := by
      simp [Ledger.note, hnone]
    obtain rfl := Option.some.inj (hnew.symm.trans hr')
    rw [hnote]
    refine ⟨⟨rfl, rfl, by simp, rfl⟩, ?_, ?_⟩
    · exact fun _ _ he ↦ by cases he
    · exact fun _ _ he ↦ by cases he
  · obtain ⟨hactive, r₁, hr₁, hkeeps⟩ := keeps_of_tears hr ht
    obtain rfl : r₁ = r' := Option.some.inj (hr₁.symm.trans hr')
    obtain ⟨htracks, hawaited⟩ := h.run r hr
    rw [Ledger.note_of_controller hm hr ha]
    exact ⟨htracks.of_keeps hkeeps, hawaited.of_keeps hkeeps hactive⟩
  · cases hrests.run.symm.trans hr'

/-- Whatever the machine does, what lies in the queues of its processor is heard of. -/
theorem Hears.of_does (h : m.Hears l) (hm : m.Orderly) {move : Move} {deed : Option (Deed σ)}
    (hd : m.DoesBy move deed m') : m'.Hears (l.note m move) := by
  have hnumbered := h.numbered.note m move
  cases hd with
  | receiver hw hr hd =>
    obtain ⟨ht, ha⟩ := h.run _ hr
    rw [Ledger.note_of_worker hw hr] at hnumbered ⊢
    refine ⟨hnumbered, ?_⟩
    rintro r' ⟨⟩
    exact ⟨ht.receive hd.puts, hd.active ▸ ha.receive ht hd.puts⟩
  | sender hw hr hd =>
    obtain ⟨ht, ha⟩ := h.run _ hr
    rw [Ledger.note_of_worker hw hr] at hnumbered ⊢
    refine ⟨hnumbered, ?_⟩
    rintro r' ⟨⟩
    exact ⟨ht.of_keeps ⟨rfl, rfl, rfl, rfl, rfl, id⟩,
      ha.of_keeps ⟨rfl, rfl, rfl, rfl, rfl, id⟩ (hd.active ▸ id)⟩
  | processor hw hr hd =>
    obtain ⟨ht, ha⟩ := h.run _ hr
    rw [Ledger.note_of_worker hw hr] at hnumbered ⊢
    refine ⟨hnumbered, ?_⟩
    rintro r' ⟨⟩
    exact ⟨ht.process hd.takes, hd.active ▸ ha.process ht hd.takes⟩
  | @ring i a r hr ha hf =>
    obtain ⟨htracks, hawaited⟩ := h.run _ hr
    have hnote : l.note m (.ring i) = l.ring r i := by simp [Ledger.note, hr]
    rw [hnote] at hnumbered ⊢
    refine ⟨hnumbered, ?_⟩
    rintro r' ⟨⟩
    exact ⟨htracks.ring ha hf, hawaited.ring ha hf⟩
  | @lose i a r hr ha hf =>
    obtain ⟨htracks, hawaited⟩ := h.run _ hr
    have hnote : l.note m (.ring i) = l := by simp [Ledger.note, hr, Ledger.ring_of_full ha hf]
    rw [hnote] at hnumbered ⊢
    refine ⟨hnumbered, ?_⟩
    rintro r' ⟨⟩
    exact ⟨⟨htracks.raw, htracks.alarms, htracks.receiver, htracks.ringing⟩,
      hawaited.raw, hawaited.alarms⟩
  | @signal r hr hs =>
    obtain ⟨htracks, hawaited⟩ := h.run _ hr
    have hnote : l.note m .signal = l.signal := by simp [Ledger.note, hr]
    rw [hnote] at hnumbered ⊢
    refine ⟨hnumbered, ?_⟩
    rintro r' ⟨⟩
    exact ⟨htracks.signal hs, fun _ _ _ ↦ .inr (.inl rfl), fun _ _ _ ↦ .inr (.inl rfl)⟩
  | controller ha hd => exact h.of_controls hm ha hd

end Machine

/-! ## Over all acts -/

namespace History

variable [Behaviour σ] (sizing : Config.Sizing) (inboundType outboundType : String) (c : Chain σ)

/-- No wake-up is lost. Whichever of the alarms that owe the signal gives it in turn, the ledger has
exactly what lies in the queues of the processor, each thing with a number of its own. As long as
the run is to go on, all that lies there while the processor waits and has no signal is owed the
signal by the one who put it there: the receiver owes it for a message, and an alarm for itself. So
there is at most one message, and there are no more alarms than are about to give the signal. -/
theorem signal_owed (turns : List Nat) (acts : List Act) :
    let h := (Machine.ready sizing inboundType outboundType c).history
    let m := (h.after acts).machine
    let l := noted Ledger.note h { turns } acts
    ∀ r, m.run = some r →
      l.Tracks r ∧ l.Numbered ∧
        (m.board.active = true → r.processor = .waiting → r.signal.isSet = false →
          (∀ e ∈ l.raw, l.receiver = some e.1 ∧ r.receiver = .waking) ∧
            (∀ e ∈ l.alarms, e.1 ∈ l.ringing) ∧
            r.raw.size ≤ 1 ∧ r.alarms.size ≤ r.ringing) := by
  intro h m l r hr
  have hheard : m.Orderly ∧ m.Hears l := by
    refine ready_noted (P := fun h l ↦ h.machine.Hears l) sizing inboundType outboundType c acts
      ?_ ?_ ?_
    · exact ⟨⟨.nil _, .nil _, .nil _⟩, fun _ hr ↦ by cases hr⟩
    · rintro h l requests replies hh
      exact ⟨hh.numbered, hh.run⟩
    · rintro h l patience moment move m hm hh hd
      exact hh.of_does hm hd
  obtain ⟨-, hnumbered, hrun⟩ := hheard
  obtain ⟨htracks, hawaited⟩ := hrun r hr
  refine ⟨htracks, hnumbered, fun hactive hwaiting hclear ↦ ?_⟩
  have hraw : ∀ e ∈ l.raw, l.receiver = some e.1 := by
    intro e he
    rcases hawaited.raw hactive e he with ho | hs | hp
    · exact ho
    · exact absurd (hclear.symm.trans hs) Bool.false_ne_true
    · exact absurd hwaiting hp
  have halarms : ∀ e ∈ l.alarms, e.1 ∈ l.ringing := by
    intro e he
    rcases hawaited.alarms hactive e he with ho | hs | hp | hp
    · exact ho
    · exact absurd (hclear.symm.trans hs) Bool.false_ne_true
    · cases hwaiting.symm.trans hp
    · cases hwaiting.symm.trans hp
  refine ⟨fun e he ↦ ⟨hraw e he, ?_⟩, halarms, ?_, ?_⟩
  · exact htracks.receiver.1 (by rw [hraw e he]; rfl)
  · have hsub : l.raw.map Prod.fst ⊆ l.receiver.toList := by
      rintro n hn
      obtain ⟨e, he, rfl⟩ := List.mem_map.1 hn
      exact Option.mem_toList.2 (hraw e he)
    calc r.raw.size = (l.raw.map Prod.fst).length := by
          rw [Queue.size, ← htracks.raw, List.length_map, List.length_map]
      _ ≤ l.receiver.toList.length := hnumbered.raw.length_le hsub
      _ ≤ 1 := by cases l.receiver <;> simp
  · have hsub : l.alarms.map Prod.fst ⊆ l.ringing := by
      rintro n hn
      obtain ⟨e, he, rfl⟩ := List.mem_map.1 hn
      exact halarms e he
    calc r.alarms.size = (l.alarms.map Prod.fst).length := by
          rw [Queue.size, ← htracks.alarms, List.length_map, List.length_map]
      _ ≤ l.ringing.length := hnumbered.alarms.length_le hsub
      _ = r.ringing := htracks.ringing

end History

/-- A run whose receiver has put a message into its queue and not given the signal. -/
def Act.pushed : List Act :=
  [.post .start, .move 9 ⟨0, 0⟩ .accept, .move 9 ⟨0, 0⟩ (.launch (.ok ()) (.ok ())),
    .move 9 ⟨0, 0⟩ (.work .receive), .move 9 ⟨0, 0⟩ (.receive (.ok (.ofRaw "t" [1]))),
    .move 9 ⟨0, 0⟩ (.work .receive)]

/-- The processor waits and has no signal, and the receiver owes it for the message. -/
theorem History.signal_owed_pushed :
    let m := ((Machine.ready {} "a" "b" Chain.through).history.after Act.pushed).machine
    ∃ r, m.run = some r ∧ m.board.active = true ∧ r.processor = .waiting ∧
      r.signal.isSet = false ∧ r.raw.size = 1 ∧ r.receiver = .waking := by
  intro m
  obtain ⟨r, hr⟩ : ∃ r, m.run = some r := Option.isSome_iff_exists.1 (by decide +kernel)
  have ha : m.board.active = true := by decide +kernel
  have hrun : m.run.any (fun r ↦ r.processor = .waiting && !r.signal.isSet && r.raw.size = 1) =
      true := by decide +kernel
  obtain ⟨⟨hp, hs⟩, hsize⟩ : (r.processor = .waiting ∧ r.signal.isSet = false) ∧ r.raw.size = 1 := by
    simpa [hr] using hrun
  obtain ⟨htracks, -, howed⟩ := signal_owed {} "a" "b" .through [] Act.pushed r hr
  have hlength := congrArg List.length htracks.raw
  rw [List.length_map, ← Queue.size, hsize] at hlength
  obtain ⟨e, he⟩ := List.exists_mem_of_length_pos (hlength ▸ Nat.one_pos)
  exact ⟨r, hr, ha, hp, hs, hsize, ((howed ha hp hs).1 e he).2⟩

end Conduit
