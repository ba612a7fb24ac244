import Conduit.Proofs.Stage.Holding
import Conduit.Proofs.Stage.Kind

/-!
# Plain stages

A stage is plain if, whatever it is shown, it decides about the message at hand: it makes no pieces
of it, does not hold it back, and does nothing when a timer goes off. All stages are but splitters
and throttles in delay mode (`Builtin.plain`).
-/

namespace Conduit.Stage

/-- Stages with the property neither make pieces nor hold messages, and keep the property. -/
structure Plain {σ : Type} [Behaviour σ] (P : σ → Prop) : Prop where
  process : ∀ moment s w, P s → P (Behaviour.process moment s w).state
  ne_generate : ∀ moment s w w' pieces, P s →
    (Behaviour.process moment s w).outcome ≠ .generate w' pieces
  ne_hold : ∀ moment s w w', P s → (Behaviour.process moment s w).outcome ≠ .hold w'
  expire : ∀ now s token, P s → P (Behaviour.expire now s token).state
  release : ∀ now s token, P s → (Behaviour.expire now s token).result = .ok none
  start : ∀ now s, P s → P (Behaviour.start now s)
  stop : ∀ s, P s → P (Behaviour.stop s)

namespace Throttle

@[simp] theorem held_roll (s : Throttle) (now : Instant) : (s.roll now).held = s.held := by
  unfold roll
  split <;> rfl

/-- In drop mode a throttle decides, and holds nothing more than before. -/
theorem process_of_drop {s : Throttle} (h : s.mode = .drop) (moment : Moment) (w : Wrapper) :
    (∃ w', (s.process moment w).outcome = .done w') ∧ (s.process moment w).state.mode = .drop ∧
      (s.process moment w).state.held = s.held := by
  have hmode : (s.roll moment.now).mode = .drop := (mode_roll s moment.now).trans h
  unfold process
  dsimp only
  split
  · exact ⟨⟨_, rfl⟩, hmode, held_roll s moment.now⟩
  · rw [hmode]
    exact ⟨⟨_, rfl⟩, hmode, held_roll s moment.now⟩

/-- With nothing held, a timer that goes off changes neither that nor the mode. -/
theorem expire_of_held_eq_none {s : Throttle} (h : s.held = none) (now : Instant) (token : UInt64) :
    (s.expire now token).result = .ok none ∧ (s.expire now token).state.mode = s.mode ∧
      (s.expire now token).state.held = none := by
  unfold expire
  split
  · exact ⟨rfl, rfl, h⟩
  · dsimp only
    rw [h]
    exact ⟨rfl, rfl, rfl⟩

end Throttle

namespace Builtin

/-- A stage that is no splitter, nor a throttle that may hold a message. -/
def IsPlain : Builtin → Prop
  | .splitter _ => False
  | .throttle s => s.mode = .drop ∧ s.held = none
  | _ => True

theorem plain : Plain IsPlain where
  process moment s w h := by
    cases s with
    | throttle s =>
      obtain ⟨-, hmode, hheld⟩ := s.process_of_drop h.1 moment w
      exact ⟨hmode, hheld.trans h.2⟩
    | splitter s => exact h.elim
    | _ => trivial
  ne_generate moment s w w' pieces h he := by
    have hg := isGenerator_of_generate he
    cases s with
    | splitter s => exact h.elim
    | _ => cases hg
  ne_hold moment s w w' h he := by
    obtain ⟨t, rfl, ht⟩ := exists_throttle_of_hold he
    cases ht.symm.trans h.1
  expire now s token h := by
    cases s with
    | throttle s =>
      obtain ⟨-, hmode, hheld⟩ := s.expire_of_held_eq_none h.2 now token
      exact ⟨hmode.trans h.1, hheld⟩
    | splitter s => exact h.elim
    | _ => trivial
  release now s token h := by
    cases s with
    | throttle s => exact (s.expire_of_held_eq_none h.2 now token).1
    | _ => rfl
  start now s h := by
    cases s <;> exact h
  stop s h := by
    cases s with
    | throttle s => exact ⟨h.1, rfl⟩
    | splitter s => exact h.elim
    | _ => trivial

end Builtin

end Conduit.Stage
