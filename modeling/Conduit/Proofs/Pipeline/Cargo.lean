import Conduit.Proofs.Pipeline.Phases
import Mathlib.Tactic.Tauto

/-!
# What is on its way in a run

A message that was received is in the hand of the receiver, in the raw queue, or in the hand of the
processor, and goes on to the chain. A wrapper that the chain let through is in the hand of the
processor or in the outbound queue, and goes on to the outbound connector. A worker puts at the end
what comes in and takes what comes first; it may lose something on the way, but does not repeat or
overtake (`Receiver.Does.incoming`, `Processor.Does.incoming`, `Processor.Does.outgoing`,
`Sender.Does.outgoing`).

Alarms are a different matter. They are set, go off, and are handled in any order, but there are no
others than those that the stages set (`Processor.Does.working`, `Run.Rings.alarmed`).
-/

namespace Conduit

open Stage

variable {σ : Type}

/-! ## Alarms -/

namespace Alarm

theorem mem_insert {a b : Alarm} {alarms : List Alarm} :
    b ∈ insert a alarms ↔ b = a ∨ b ∈ alarms := by
  induction alarms with
  | nil => simp [insert]
  | cons c rest ih =>
    unfold insert
    split
    · simp
    · rw [List.mem_cons, ih, List.mem_cons]
      tauto

theorem mem_insertAll {b : Alarm} {alarms new : List Alarm} :
    b ∈ insertAll alarms new ↔ b ∈ alarms ∨ b ∈ new := by
  induction new generalizing alarms with
  | nil => simp [insertAll]
  | cons a rest ih =>
    change b ∈ insertAll (insert a alarms) rest ↔ _
    rw [ih, mem_insert, List.mem_cons]
    tauto

end Alarm

/-! ## What is on its way -/

namespace Deed

/-- The message that a move brings in. -/
def arrived : Option (Deed σ) → List Message
  | some (.received m) => [m]
  | _ => []

/-- The message that a move runs through the chain. -/
def shown : Option (Deed σ) → List Message
  | some (.ran x) => x.message?.toList
  | _ => []

/-- The wrapper that a move hands out. -/
def passedOn : Option (Deed σ) → List Wrapper
  | some (.handed w) => [w]
  | _ => []

/-- The alarm that a move tells the chain of. -/
def rung : Option (Deed σ) → List Alarm
  | some (.ran x) => x.alarm?.toList
  | _ => []

variable [Behaviour σ] (c : Chain σ)

/-- What can be found in the answer of the chain. -/
def gather {α : Type} (f : Input → Call σ → List α) : Option (Deed σ) → List α
  | some (.ran x) => f x (c.respond x)
  | _ => []

/-- What the chain lets through when it answers. -/
def answered : Option (Deed σ) → List Wrapper := gather c fun _ call ↦ call.output.delivered

/-- The alarms that the chain sets when it answers. -/
def set : Option (Deed σ) → List Alarm :=
  gather c fun x call ↦ Alarm.ofVisits x.moment.clock call.visits

/-- The chain when it has answered. -/
def chain : Option (Deed σ) → Chain σ
  | some (.ran x) => (c.respond x).chain
  | _ => c

section Quiet

variable {c} {deed : Option (Deed σ)} (h : ∀ x, deed ≠ some (.ran x))

include h

omit [Behaviour σ] in
theorem shown_of_quiet : shown deed = [] := by
  unfold shown
  split
  · exact absurd rfl (h _)
  · rfl

omit [Behaviour σ] in
theorem rung_of_quiet : rung deed = [] := by
  unfold rung
  split
  · exact absurd rfl (h _)
  · rfl

theorem chain_of_quiet : chain c deed = c := by
  unfold chain
  split
  · exact absurd rfl (h _)
  · rfl

end Quiet

end Deed

/-- The message that the receiver has in hand. -/
def Receiver.inHand : Receiver → List Message
  | .queueing m => [m]
  | _ => []

namespace Processor

/-- The message that the processor has in hand. -/
def inHand : Processor → List Message
  | .running m => [m]
  | _ => []

/-- The wrappers that the processor has in hand. -/
def leftover : Processor → List Wrapper
  | .counting o _ => o.delivered
  | .queueing ws _ => ws
  | _ => []

/-- The alarms that the processor has in hand. -/
def alarms : Processor → List Alarm
  | .handling as | .counting _ (.alarms as) | .queueing _ (.alarms as) => as
  | _ => []

end Processor

namespace Run

/-- The messages of a run that have not been run through the chain, the oldest first. -/
def incoming (r : Run) : List Message := r.processor.inHand ++ (r.raw.items ++ r.receiver.inHand)

/-- The wrappers of a run that have not been handed out, the oldest first. -/
def outgoing (r : Run) : List Wrapper := r.outbound.items ++ r.processor.leftover

/-- The alarms of a run that are set, have gone off, or are being handled. -/
def alarmed (r : Run) : List Alarm := r.timers ++ (r.alarms.items ++ r.processor.alarms)

end Run

/-! ## Workers keep the order -/

section Workers

variable {type : String} {deed : Option (Deed σ)}

/-- The receiver puts at the end what comes in, or loses a message. -/
theorem Receiver.Does.incoming {s s' : Receiver.Share} (h : Receiver.Does type s deed s') :
    (s'.raw.items ++ s'.receiver.inHand).Sublist
      (s.raw.items ++ s.receiver.inHand ++ Deed.arrived deed) := by
  cases h <;> simp_all [Receiver.inHand, Deed.arrived]

/-- The sender hands out what comes first. -/
theorem Sender.Does.outgoing {s s' : Sender.Share} (h : Sender.Does type s deed s') :
    Deed.passedOn deed ++ s'.outbound.items = s.outbound.items := by
  cases h <;> simp_all [Deed.passedOn]

namespace Processor

variable [Behaviour σ] {s s' : Share σ}

/-- The processor takes what comes first, and shows to the chain what it took. -/
theorem Does.incoming (h : Does s deed s') :
    (Deed.shown deed ++ (s'.processor.inHand ++ s'.raw.items)).Sublist
      (s.processor.inHand ++ s.raw.items) := by
  cases h with
  | @resume next h => cases next <;> simp [h, Errand.resume, inHand, Deed.shown]
  | look h => split <;> simp_all [inHand, Deed.shown]
  | _ => simp_all [inHand, Deed.shown, Input.message?, Share.answered]

/-- The processor puts at the end what the chain lets through, or loses a wrapper. -/
theorem Does.outgoing {c : Chain σ} (hc : s.chain = some c) (h : Does s deed s') :
    (s'.outbound.items ++ s'.processor.leftover).Sublist
      (s.outbound.items ++ s.processor.leftover ++ Deed.answered c deed) := by
  cases h with
  | @resume next h => cases next <;> simp [h, Errand.resume, leftover]
  | look h => split <;> simp_all [leftover]
  | _ => simp_all [leftover, Deed.answered, Deed.gather, Share.answered]

/-- Unless it leaves, the processor has the chain as it last answered, and its alarms are those from
before and those that were set. -/
theorem Does.working {c : Chain σ} (hc : s.chain = some c) (h : Does s deed s') :
    (∃ exit, s'.processor = .leaving exit) ∨
      s'.chain = some (Deed.chain c deed) ∧
        ∀ a ∈ s'.timers ++ (s'.alarms.items ++ s'.processor.alarms),
          a ∈ s.timers ++ (s.alarms.items ++ s.processor.alarms) ∨ a ∈ Deed.set c deed := by
  cases h with
  | quit => exact .inl ⟨_, rfl⟩
  | breakDown => exact .inl ⟨_, rfl⟩
  | leave => exact .inl ⟨_, rfl⟩
  | answerAlarm patience moment h hc' hp =>
    cases hc.symm.trans hc'
    refine .inr ⟨rfl, fun a ha ↦ ?_⟩
    simp [Share.answered, Alarm.mem_insertAll, alarms, h, Deed.set, Deed.gather, Input.moment]
      at ha ⊢
    tauto
  | answerMessage patience moment h hc' hp =>
    cases hc.symm.trans hc'
    refine .inr ⟨rfl, fun a ha ↦ ?_⟩
    simp [Share.answered, Alarm.mem_insertAll, alarms, h, Deed.set, Deed.gather, Input.moment]
      at ha ⊢
    tauto
  | look h =>
    refine .inr ⟨hc, fun a ha ↦ .inl ?_⟩
    split at ha <;> simpa [alarms, h] using ha
  | @resume next h =>
    refine .inr ⟨hc, fun a ha ↦ .inl ?_⟩
    cases next <;> simpa [alarms, Errand.resume, h] using ha
  | @count o next h =>
    refine .inr ⟨hc, fun a ha ↦ .inl ?_⟩
    cases next <;> simpa [alarms, h] using ha
  | @queue w ws next h =>
    refine .inr ⟨hc, fun a ha ↦ .inl ?_⟩
    cases next <;> simpa [alarms, h] using ha
  | @overflow w ws next h =>
    refine .inr ⟨hc, fun a ha ↦ .inl ?_⟩
    cases next <;> simpa [alarms, h] using ha
  | _ =>
    rename_i h
    refine .inr ⟨hc, fun a ha ↦ .inl ?_⟩
    simpa [alarms, *] using ha

/-- A processor that leaves does nothing to messages. -/
theorem Does.of_leaving {exit : Exit} (hl : s.processor = .leaving exit) (h : Does s deed s') :
    deed = none ∧ (∃ exit', s'.processor = .leaving exit') ∧ s'.outbound = s.outbound := by
  cases h with
  | leave => exact ⟨rfl, ⟨_, rfl⟩, rfl⟩
  | breakDown _ _ hx =>
    rw [hl] at hx
    cases hx
  | _ => simp_all

/-- The chain is told of alarms that the processor has in hand. -/
theorem Does.rung (h : Does s deed s') : Deed.rung deed ⊆ s.processor.alarms := by
  cases h <;> simp_all [Deed.rung, Input.alarm?, Processor.alarms]

end Processor

end Workers

/-- An alarm that goes off was set. -/
theorem Run.Rings.alarmed {r r' : Run} (h : r.Rings r') : r'.alarmed ⊆ r.alarmed := by
  intro b hb
  cases h with
  | @ring i a ha =>
    simp only [Run.alarmed, List.mem_append, List.mem_singleton] at hb ⊢
    rcases hb with hb | (hb | rfl) | hb
    · exact .inl (List.mem_of_mem_eraseIdx hb)
    · exact .inr (.inl hb)
    · exact .inl (List.mem_of_getElem? ha)
    · exact .inr (.inr hb)
  | lose =>
    simp only [Run.alarmed, List.mem_append] at hb ⊢
    exact hb.imp_left List.mem_of_mem_eraseIdx
  | signal => exact hb

end Conduit
