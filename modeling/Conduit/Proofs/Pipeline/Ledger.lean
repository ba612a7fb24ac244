import Conduit.Proofs.Pipeline.Phases
import Mathlib.Data.List.Perm.Subperm

/-!
# Who owes the signal

Whoever puts something into a queue of the processor owes it the signal until it has given it: the
receiver for a message, an alarm for itself. A machine does not remember who has put what where. A
`Ledger` does, by the numbers of the pushes, and is kept up with every step of the receiver, the
processor and the alarms (`Ledger.Tracks`). In a run that is to go on nothing in it lies unnoticed
(`Ledger.Awaited`).
-/

namespace Conduit

open Stage

variable {σ : Type}

/-! ## Ledgers -/

/-- What was put into the queues of the processor, and for what the signal is owed. The pushes of
all producers are numbered. -/
structure Ledger where
  /-- Which of the alarms that owe the signal gives it, time after time. -/
  turns : List Nat := []
  /-- How many pushes there were. -/
  pushes : Nat := 0
  raw : List (Nat × Message) := []
  alarms : List (Nat × Alarm) := []
  /-- The push for which the receiver owes the signal. -/
  receiver : Option Nat := none
  /-- The pushes for which alarms owe the signal. -/
  ringing : List Nat := []

namespace Ledger

/-- The receiver owes the signal also for a message that does not fit. -/
def receive (l : Ledger) (r : Run) : Ledger :=
  match r.receiver with
  | .queueing m =>
    { l with
      pushes := l.pushes + 1
      raw := if r.raw.isFull then l.raw else l.raw ++ [(l.pushes, m)]
      receiver := some l.pushes }
  | .waking => { l with receiver := none }
  | _ => l

def process (l : Ledger) (r : Run) : Ledger :=
  match r.processor with
  | .gathering => { l with alarms := [] }
  | .taking => { l with raw := l.raw.tail }
  | _ => l

def ring (l : Ledger) (r : Run) (i : Nat) : Ledger :=
  match r.timers[i]? with
  | some a =>
    if r.alarms.isFull then l
    else
      { l with
        pushes := l.pushes + 1
        alarms := l.alarms ++ [(l.pushes, a)]
        ringing := l.ringing ++ [l.pushes] }
  | none => l

/-- Any of the alarms that owe the signal may give it. -/
def signal (l : Ledger) : Ledger :=
  { l with
    turns := l.turns.tail
    ringing := l.ringing.eraseIdx (l.turns.headD 0 % l.ringing.length) }

/-- A move, entered. A new run begins with empty queues. -/
def note (m : Machine σ) (move : Move) (l : Ledger) : Ledger :=
  match m.run, move with
  | none, .launch .. => { turns := l.turns, pushes := l.pushes }
  | none, _ => l
  | some r, .ring i => l.ring r i
  | some _, .signal => l.signal
  | some r, move =>
    match move.worker? with
    | some .receive => l.receive r
    | some .process => l.process r
    | _ => l

end Ledger

/-! ## Numbers -/

/-- Numbers of pushes, in order, before the one that comes next. -/
structure Rising (ns : List Nat) (next : Nat) : Prop where
  sorted : ns.Pairwise (· < ·)
  lt : ∀ n ∈ ns, n < next

namespace Rising

variable {ns : List Nat} {next : Nat}

theorem nil (next : Nat) : Rising [] next := ⟨.nil, nofun⟩

theorem succ (h : Rising ns next) : Rising ns (next + 1) :=
  ⟨h.sorted, fun n hn ↦ Nat.lt_succ_of_lt (h.lt n hn)⟩

theorem concat (h : Rising ns next) : Rising (ns ++ [next]) (next + 1) := by
  constructor
  · rw [List.pairwise_append]
    exact ⟨h.sorted, List.pairwise_singleton _ _, by simpa using h.lt⟩
  · simp only [List.mem_append, List.mem_singleton]
    rintro n (hn | rfl)
    · exact Nat.lt_succ_of_lt (h.lt n hn)
    · exact Nat.lt_succ_self n

theorem sublist {ms : List Nat} (h : Rising ns next) (hs : ms.Sublist ns) : Rising ms next :=
  ⟨h.sorted.sublist hs, fun n hn ↦ h.lt n (hs.subset hn)⟩

theorem length_le {ms : List Nat} (h : Rising ns next) (hs : ns ⊆ ms) :
    ns.length ≤ ms.length := by
  have hnodup : ns.Nodup := h.sorted.imp Nat.ne_of_lt
  exact (hnodup.subperm hs).length_le

end Rising

namespace Ledger

/-- No number is given twice. -/
structure Numbered (l : Ledger) : Prop where
  raw : Rising (l.raw.map Prod.fst) l.pushes
  alarms : Rising (l.alarms.map Prod.fst) l.pushes
  ringing : Rising l.ringing l.pushes

namespace Numbered

variable {l : Ledger} (h : l.Numbered) (r : Run)

include h

theorem receive : (l.receive r).Numbered := by
  unfold Ledger.receive
  split
  · rename_i m _
    refine ⟨?_, h.alarms.succ, h.ringing.succ⟩
    dsimp only
    split
    · exact h.raw.succ
    · rw [List.map_append]
      exact h.raw.concat
  · exact ⟨h.raw, h.alarms, h.ringing⟩
  · exact h

theorem process : (l.process r).Numbered := by
  unfold Ledger.process
  split
  · exact ⟨h.raw, .nil _, h.ringing⟩
  · exact ⟨h.raw.sublist ((List.tail_sublist _).map _), h.alarms, h.ringing⟩
  · exact h

theorem ring (i : Nat) : (l.ring r i).Numbered := by
  unfold Ledger.ring
  split
  · rename_i a _
    split
    · exact h
    · refine ⟨h.raw.succ, ?_, h.ringing.concat⟩
      rw [List.map_append]
      exact h.alarms.concat
  · exact h

theorem signal : l.signal.Numbered :=
  ⟨h.raw, h.alarms, h.ringing.sublist (List.eraseIdx_sublist _ _)⟩

theorem note (m : Machine σ) (move : Move) : (Ledger.note m move l).Numbered := by
  unfold Ledger.note
  split
  · exact ⟨.nil _, .nil _, .nil _⟩
  · exact h
  · exact h.ring _ _
  · exact h.signal
  · split
    · exact h.receive _
    · exact h.process _
    · exact h

end Numbered

/-! ## What is entered is what is there -/

/-- A ledger of a run has what lies in its queues, and who owes the signal. -/
structure Tracks (l : Ledger) (r : Run) : Prop where
  raw : l.raw.map Prod.snd = r.raw.items
  alarms : l.alarms.map Prod.snd = r.alarms.items
  receiver : l.receiver.isSome = true ↔ r.receiver = .waking
  ringing : l.ringing.length = r.ringing

/-- What lies in a queue is owed the signal, or the processor has it, or is about to look into the
queue. -/
structure Awaited (active : Bool) (r : Run) (l : Ledger) : Prop where
  raw : active = true → ∀ e ∈ l.raw,
    l.receiver = some e.1 ∨ r.signal.isSet = true ∨ r.processor ≠ .waiting
  alarms : active = true → ∀ e ∈ l.alarms,
    e.1 ∈ l.ringing ∨ r.signal.isSet = true ∨ r.processor = .woken ∨ r.processor = .gathering

end Ledger

/-! ## Steps of the receiver -/

namespace Receiver

/-- What a step of the receiver does to its queue and to the signal. -/
inductive Share.Puts (s s' : Share) : Prop
  | push (m : Message) (h : s.receiver = .queueing m)
      (hraw : s'.raw.items = if s.raw.isFull then s.raw.items else s.raw.items ++ [m])
      (hs : s'.signal = s.signal) (h' : s'.receiver = .waking)
  | wake (h : s.receiver = .waking) (hraw : s'.raw = s.raw) (hs : s'.signal.isSet = true)
      (h' : s'.receiver ≠ .waking)
  | other (h : ∀ m, s.receiver ≠ .queueing m) (hw : s.receiver ≠ .waking) (hraw : s'.raw = s.raw)
      (hs : s'.signal = s.signal) (h' : s'.receiver ≠ .waking)

theorem Does.puts {type : String} {s s' : Share} {deed : Option (Deed σ)}
    (h : Does type s deed s') : s.Puts s' := by
  cases h with
  | queue m h hf => exact .push m h (by simp [hf]) rfl rfl
  | overflow m h hf => exact .push m h (by simp [hf]) rfl rfl
  | wake h => exact .wake h rfl rfl nofun
  | _ => exact .other (by simp_all) (by simp_all) rfl rfl nofun

end Receiver

namespace Processor

/-- What a step of the processor does to its queues and to the signal. -/
inductive Share.Takes (s s' : Share σ) : Prop
  | wake (h : s.processor = .waiting) (hraw : s'.raw = s.raw) (halarms : s'.alarms = s.alarms)
      (h' : s'.processor = .woken)
  | gather (h : s.processor = .gathering) (hraw : s'.raw = s.raw) (halarms : s'.alarms.items = [])
      (h' : s'.processor ≠ .waiting)
  /-- The processor waits when it has found its queue empty. -/
  | take (h : s.processor = .taking) (hraw : s'.raw.items = s.raw.items.tail)
      (halarms : s'.alarms = s.alarms) (hs : s'.signal = s.signal)
      (h' : s'.processor = .waiting → s.raw.items = [])
  | other (hw : s.processor ≠ .waiting) (hg : s.processor ≠ .gathering)
      (ht : s.processor ≠ .taking) (hraw : s'.raw = s.raw) (halarms : s'.alarms = s.alarms)
      (hs : s'.signal = s.signal)
      (h' : s.board.active = true →
        s'.processor ≠ .waiting ∧ (s.processor = .woken → s'.processor = .gathering))

theorem Does.takes [Behaviour σ] {s s' : Share σ} {deed : Option (Deed σ)} (h : Does s deed s') :
    s.Takes s' := by
  cases h with
  | wake h => exact .wake h rfl rfl rfl
  | gather h => exact .gather h rfl rfl nofun
  | take h hi => exact .take h (by rw [hi]; rfl) rfl rfl nofun
  | rest h hi => exact .take h (by simp [hi]) rfl rfl fun _ ↦ hi
  | quit h ha =>
    refine .other (by simp [h]) (by simp [h]) (by simp [h]) rfl rfl rfl fun ha' ↦ ?_
    exact absurd (ha.symm.trans ha') Bool.false_ne_true
  | look h =>
    refine .other (by simp [h]) (by simp [h]) (by simp [h]) rfl rfl rfl fun ha ↦ ?_
    simp [h, ha]
  | @resume next h =>
    refine .other (by simp [h]) (by simp [h]) (by simp [h]) rfl rfl rfl fun ha ↦ ?_
    cases next <;> simp [h, Errand.resume]
  | breakDown patience moment hx =>
    have hpos : s.processor ≠ .waiting ∧ s.processor ≠ .gathering ∧ s.processor ≠ .taking ∧
        s.processor ≠ .woken := by
      refine ⟨?_, ?_, ?_, ?_⟩ <;> intro h <;> rw [h] at hx <;> cases hx
    obtain ⟨hw, hg, ht, hwoken⟩ := hpos
    exact .other hw hg ht rfl rfl rfl fun _ ↦ ⟨nofun, fun h ↦ absurd h hwoken⟩
  | _ => exact .other (by simp_all) (by simp_all) (by simp_all) rfl rfl rfl (by simp_all)

end Processor

namespace Ledger

variable {l : Ledger} {r r' : Run} {active : Bool}

section Receiver

variable {type : String} {m : Machine σ} {s : Receiver.Share}

theorem receive_of_queueing {message : Message} (h : r.receiver = .queueing message) :
    l.receive r = { l with
      pushes := l.pushes + 1
      raw := if r.raw.isFull then l.raw else l.raw ++ [(l.pushes, message)]
      receiver := some l.pushes } := by
  simp [receive, h]

theorem receive_of_waking (h : r.receiver = .waking) :
    l.receive r = { l with receiver := none } := by
  simp [receive, h]

theorem receive_of_other (h : ∀ message, r.receiver ≠ .queueing message)
    (hw : r.receiver ≠ .waking) : l.receive r = l := by
  unfold receive
  split
  · exact absurd ‹_› (h _)
  · exact absurd ‹_› hw
  · rfl

theorem Tracks.receive (h : l.Tracks r) (hd : (m.receiverShare r).Puts s) :
    (l.receive r).Tracks (r.withReceiver s) := by
  cases hd with
  | push message hq hraw hs h' =>
    rw [receive_of_queueing hq]
    refine ⟨?_, h.alarms, ⟨fun _ ↦ h', fun _ ↦ rfl⟩, h.ringing⟩
    change _ = s.raw.items
    rw [hraw]
    change _ = if r.raw.isFull then r.raw.items else r.raw.items ++ [message]
    dsimp only
    split
    · exact h.raw
    · rw [List.map_append, h.raw]
      rfl
  | wake hw hraw hs h' =>
    rw [receive_of_waking hw]
    refine ⟨?_, h.alarms, ⟨fun hn ↦ (by cases hn), fun hw ↦ absurd hw h'⟩, h.ringing⟩
    exact h.raw.trans (congrArg Queue.items hraw).symm
  | other hq hw hraw hs h' =>
    rw [receive_of_other hq hw]
    refine ⟨?_, h.alarms, ⟨fun hn ↦ absurd (h.receiver.1 hn) hw, fun hw ↦ absurd hw h'⟩, h.ringing⟩
    exact h.raw.trans (congrArg Queue.items hraw).symm

theorem Awaited.receive (h : l.Awaited active r) (ht : l.Tracks r)
    (hd : (m.receiverShare r).Puts s) : (l.receive r).Awaited active (r.withReceiver s) := by
  cases hd with
  | push message hq hraw hs h' =>
    rw [receive_of_queueing hq]
    have hsignal : (r.withReceiver s).signal = r.signal := hs
    -- The receiver owes nothing so far.
    have hnone : ∀ n, l.receiver ≠ some n := by
      intro n hn
      have hw := ht.receiver.1 (by rw [hn]; rfl)
      cases hq.symm.trans hw
    constructor
    · intro ha e he
      have he' : e ∈ l.raw ∨ e = (l.pushes, message) := by
        dsimp only at he
        split at he
        · exact .inl he
        · simpa using he
      rcases he' with he | rfl
      · rw [hsignal]
        exact .inr ((h.raw ha e he).resolve_left (hnone _))
      · exact .inl rfl
    · intro ha e he
      rw [hsignal]
      exact h.alarms ha e he
  | wake hw hraw hs h' => exact ⟨fun _ _ _ ↦ .inr (.inl hs), fun _ _ _ ↦ .inr (.inl hs)⟩
  | other hq hw hraw hs h' =>
    rw [receive_of_other hq hw]
    have hsignal : (r.withReceiver s).signal = r.signal := hs
    constructor
    · rw [hsignal]
      exact h.raw
    · rw [hsignal]
      exact h.alarms

end Receiver

section Processor

variable {m : Machine σ} {s : Processor.Share σ}

theorem process_of_gathering (h : r.processor = .gathering) :
    l.process r = { l with alarms := [] } := by
  simp [process, h]

theorem process_of_taking (h : r.processor = .taking) :
    l.process r = { l with raw := l.raw.tail } := by
  simp [process, h]

theorem process_of_other (hg : r.processor ≠ .gathering) (ht : r.processor ≠ .taking) :
    l.process r = l := by
  unfold process
  split
  · exact absurd ‹_› hg
  · exact absurd ‹_› ht
  · rfl

theorem Tracks.process (h : l.Tracks r) (hd : (m.processorShare r).Takes s) :
    (l.process r).Tracks (r.withProcessor s) := by
  cases hd with
  | wake hp hraw halarms h' =>
    have hp : r.processor = .waiting := hp
    rw [process_of_other (by simp [hp]) (by simp [hp])]
    refine ⟨?_, ?_, h.receiver, h.ringing⟩
    · exact h.raw.trans (congrArg Queue.items hraw).symm
    · exact h.alarms.trans (congrArg Queue.items halarms).symm
  | gather hp hraw halarms h' =>
    rw [process_of_gathering hp]
    refine ⟨?_, halarms.symm, h.receiver, h.ringing⟩
    exact h.raw.trans (congrArg Queue.items hraw).symm
  | take hp hraw halarms hs h' =>
    rw [process_of_taking hp]
    refine ⟨?_, ?_, h.receiver, h.ringing⟩
    · rw [List.map_tail, h.raw]
      exact hraw.symm
    · exact h.alarms.trans (congrArg Queue.items halarms).symm
  | other hw hg ht hraw halarms hs h' =>
    rw [process_of_other hg ht]
    refine ⟨?_, ?_, h.receiver, h.ringing⟩
    · exact h.raw.trans (congrArg Queue.items hraw).symm
    · exact h.alarms.trans (congrArg Queue.items halarms).symm

theorem Awaited.process (h : l.Awaited m.board.active r) (ht : l.Tracks r)
    (hd : (m.processorShare r).Takes s) :
    (l.process r).Awaited m.board.active (r.withProcessor s) := by
  cases hd with
  | wake hp hraw halarms h' =>
    refine ⟨fun _ _ _ ↦ .inr (.inr ?_), fun _ _ _ ↦ .inr (.inr (.inl h'))⟩
    exact fun hw ↦ by cases h'.symm.trans hw
  | gather hp hraw halarms h' =>
    rw [process_of_gathering hp]
    exact ⟨fun _ _ _ ↦ .inr (.inr h'), fun _ _ he ↦ by cases he⟩
  | take hp hraw halarms hs h' =>
    have hp : r.processor = .taking := hp
    have hsignal : (r.withProcessor s).signal = r.signal := hs
    rw [process_of_taking hp]
    constructor
    · intro ha e he
      refine .inr (.inr fun hw ↦ ?_)
      have hnil : l.raw = [] := List.map_eq_nil_iff.1 (ht.raw.trans (h' hw))
      dsimp only at he
      rw [hnil] at he
      cases he
    · intro ha e he
      rw [hsignal]
      rcases h.alarms ha e he with ho | hs | hw | hg
      · exact .inl ho
      · exact .inr (.inl hs)
      · cases hp.symm.trans hw
      · cases hp.symm.trans hg
  | other hw hg ht hraw halarms hs h' =>
    have hsignal : (r.withProcessor s).signal = r.signal := hs
    rw [process_of_other hg ht]
    constructor
    · intro ha _ _
      exact .inr (.inr (h' ha).1)
    · intro ha e he
      rw [hsignal]
      rcases h.alarms ha e he with ho | hs | hwoken | hg'
      · exact .inl ho
      · exact .inr (.inl hs)
      · exact .inr (.inr (.inr ((h' ha).2 hwoken)))
      · exact absurd hg' hg

end Processor

section Alarms

variable {i : Nat} {a : Alarm}

theorem ring_of_room (ha : r.timers[i]? = some a) (hf : r.alarms.isFull = false) :
    l.ring r i = { l with
      pushes := l.pushes + 1
      alarms := l.alarms ++ [(l.pushes, a)]
      ringing := l.ringing ++ [l.pushes] } := by
  simp [ring, ha, hf]

theorem ring_of_full (ha : r.timers[i]? = some a) (hf : r.alarms.isFull = true) :
    l.ring r i = l := by
  simp [ring, ha, hf]

theorem Tracks.ring (h : l.Tracks r) (ha : r.timers[i]? = some a) (hf : r.alarms.isFull = false) :
    (l.ring r i).Tracks { r with
      alarms := { r.alarms with items := r.alarms.items ++ [a], pushed := r.alarms.pushed + 1 }
      timers := r.timers.eraseIdx i
      ringing := r.ringing + 1 } := by
  rw [ring_of_room ha hf]
  refine ⟨h.raw, ?_, h.receiver, ?_⟩
  · rw [List.map_append, h.alarms]
    rfl
  · rw [List.length_append, h.ringing]
    rfl

theorem Awaited.ring (h : l.Awaited active r) (ha : r.timers[i]? = some a)
    (hf : r.alarms.isFull = false) :
    (l.ring r i).Awaited active { r with
      alarms := { r.alarms with items := r.alarms.items ++ [a], pushed := r.alarms.pushed + 1 }
      timers := r.timers.eraseIdx i
      ringing := r.ringing + 1 } := by
  rw [ring_of_room ha hf]
  refine ⟨h.raw, fun hactive e he ↦ ?_⟩
  rcases List.mem_append.1 he with he | he
  · exact (h.alarms hactive e he).imp_left fun ho ↦ List.mem_append_left _ ho
  · obtain rfl := List.mem_singleton.1 he
    exact .inl (List.mem_append_right _ List.mem_cons_self)

theorem Tracks.signal (h : l.Tracks r) (hr : r.ringing ≠ 0) :
    l.signal.Tracks { r with signal := r.signal.notify, ringing := r.ringing - 1 } := by
  refine ⟨h.raw, h.alarms, h.receiver, ?_⟩
  have hlt : l.turns.headD 0 % l.ringing.length < l.ringing.length :=
    Nat.mod_lt _ (h.ringing ▸ Nat.pos_of_ne_zero hr)
  exact (List.length_eraseIdx_of_lt hlt).trans (congrArg (· - 1) h.ringing)

end Alarms

end Ledger

end Conduit
