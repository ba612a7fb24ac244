import Conduit.Proofs.Stage.Kind
import Conduit.Proofs.Stage.Twins

/-!
# What a stop leaves

A stage that is stopped keeps what it was configured with (`Builtin.blank`), and a throttle keeps
its count of timers besides. So it is in step with the stage as it was built (`Builtin.twin_stop`).
A timer that was set before the stop has a number that the throttle has left behind, or the throttle
is idle: in both cases it goes off in vain (`Builtin.expire_of_token_ne`, `Builtin.Idle.expire`).
-/

namespace Conduit.Stage.Builtin

variable {s : Builtin}

/-! ## Configuration -/

/-- The stage as it was built: what is left of a throttle is its configuration. -/
def blank : Builtin → Builtin
  | .throttle s => .throttle { rate := s.rate, period := s.period, mode := s.mode }
  | s => s

theorem blank_roll (s : Throttle) (now : Instant) :
    (throttle (s.roll now)).blank = (throttle s).blank := by
  unfold Throttle.roll
  split <;> rfl

theorem blank_process (h : s.kind ≠ .script) (moment : Moment) (w : Wrapper) :
    (Behaviour.process moment s w).state.blank = s.blank := by
  cases s with
  | script => exact absurd rfl h
  | splitter c =>
    change (splitter (c.process moment w).state).blank = _
    unfold Splitter.process
    split <;> rfl
  | throttle c =>
    rw [← blank_roll c moment.now]
    change (throttle (c.process moment w).state).blank = _
    unfold Throttle.process
    dsimp only
    split
    · rfl
    · split
      · rfl
      · split <;> rfl
  | _ => rfl

theorem blank_expire (now : Instant) (s : Builtin) (token : UInt64) :
    (Behaviour.expire now s token).state.blank = s.blank := by
  cases s with
  | throttle c =>
    change (throttle (c.expire now token).state).blank = _
    unfold Throttle.expire
    split
    · rfl
    · dsimp only
      split
      · rfl
      · exact blank_roll _ now
  | _ => rfl

@[simp] theorem kind_blank (s : Builtin) : s.blank.kind = s.kind := by
  cases s <;> rfl

theorem start_of_ne_script (h : s.kind ≠ .script) (now : Instant) : Behaviour.start now s = s := by
  cases s with
  | script => exact absurd rfl h
  | _ => rfl

@[simp] theorem blank_stop (s : Builtin) : (Behaviour.stop s).blank = s.blank := by
  cases s <;> rfl

theorem blank_of_ofParams {kind : Kind} {ms : Members} (h : ofParams kind ms = .ok s) :
    s.blank = s := by
  cases kind with
  | throttle =>
    obtain ⟨c, hc, rfl⟩ := map_eq_ok h
    exact congrArg throttle (Throttle.new_of_ofParams hc).symm
  | _ =>
    obtain ⟨c, -, rfl⟩ := map_eq_ok h
    rfl

/-! ## Numbers of timers -/

/-- The number of the latest timer. -/
def token : Builtin → UInt64
  | .throttle s => s.token
  | _ => 0

@[simp] theorem token_stop (s : Builtin) : (Behaviour.stop s).token = s.token := by
  cases s <;> rfl

@[simp] theorem token_start (now : Instant) (s : Builtin) :
    (Behaviour.start now s).token = s.token := by
  cases s <;> rfl

@[simp] theorem token_expire (now : Instant) (s : Builtin) (token : UInt64) :
    (Behaviour.expire now s token).state.token = s.token := by
  cases s with
  | throttle c =>
    change (c.expire now token).state.token = c.token
    unfold Throttle.expire
    split
    · rfl
    · dsimp only
      split
      · rfl
      · exact Throttle.token_roll _ now
  | _ => rfl

/-- A stage sets no timer, or one, with the next number. -/
theorem token_process (moment : Moment) (s : Builtin) (w : Wrapper) :
    ((Behaviour.process moment s w).timers = [] ∧
        (Behaviour.process moment s w).state.token = s.token) ∨
      ∃ delay, (Behaviour.process moment s w).timers = [⟨delay, s.token + 1⟩] ∧
        (Behaviour.process moment s w).state.token = s.token + 1 := by
  cases s with
  | splitter c => exact .inl ⟨c.timers_process moment w, rfl⟩
  | throttle c =>
    change ((c.process moment w).timers = [] ∧ (c.process moment w).state.token = c.token) ∨
      ∃ delay, (c.process moment w).timers = [⟨delay, c.token + 1⟩] ∧
        (c.process moment w).state.token = c.token + 1
    unfold Throttle.process
    dsimp only
    split
    · exact .inl ⟨rfl, c.token_roll moment.now⟩
    · split
      · exact .inl ⟨rfl, c.token_roll moment.now⟩
      · split
        · exact .inl ⟨rfl, c.token_roll moment.now⟩
        · rw [c.token_roll]
          exact .inr ⟨_, rfl, rfl⟩
  | _ => exact .inl ⟨rfl, rfl⟩

/-! ## A stage that is stopped -/

/-- A stage that is stopped is in step with the one that was built. -/
theorem twin_stop {ρ : String → String → Prop} {s₀ : Builtin} (hkind : s.kind ≠ .script)
    (hblank : s.blank = s₀) : (Behaviour.stop s).Twin ρ s.token s₀ := by
  subst hblank
  cases s with
  | script => exact absurd rfl hkind
  | throttle c => exact .throttle ⟨none, by simp [Throttle.stop, token], .none⟩
  | _ => exact .still ⟨nofun, nofun⟩

/-- A stage that is idle lets nothing go, whatever timer goes off. -/
theorem Idle.expire (h : s.Idle) (now : Instant) (token : UInt64) :
    Behaviour.expire now s token = { state := s, result := .ok none } := by
  cases s with
  | throttle c =>
    obtain ⟨rate, period, mode, opened, count, held, latest, pending⟩ := c
    obtain rfl : held = none := h.held
    have hawaits : (if pending then some latest else none) = none := h.awaits
    obtain rfl : pending = false := by simpa using hawaits
    by_cases ht : token = latest
    · simp [Behaviour.expire, Builtin.expire, Throttle.expire, ht]
    · simp [Behaviour.expire, Builtin.expire, Throttle.expire, ht]
  | _ => rfl

/-- A stage lets nothing go when a timer goes off that is not the latest. -/
theorem expire_of_token_ne {token : UInt64} (h : token ≠ s.token) (now : Instant) :
    Behaviour.expire now s token = { state := s, result := .ok none } := by
  cases s with
  | throttle c =>
    have hc : c.expire now token = { state := c, result := .ok none } := if_pos h
    simp [Behaviour.expire, Builtin.expire, hc]
  | _ => rfl

/-- When a timer goes off the stage does nothing, or is idle afterwards. -/
theorem expire_idle_or (now : Instant) (s : Builtin) (token : UInt64) :
    (Behaviour.expire now s token).state = s ∨ (Behaviour.expire now s token).state.Idle := by
  by_cases ht : token = s.token
  · cases s with
    | throttle c =>
      right
      obtain rfl : token = c.token := ht
      obtain ⟨rate, period, mode, opened, count, held, latest, pending⟩ := c
      cases held <;>
        exact ⟨by simp [Behaviour.expire, Builtin.expire, Throttle.expire, Builtin.held],
          by simp [Behaviour.expire, Builtin.expire, Throttle.expire, awaits, Throttle.awaits]⟩
    | _ => exact .inl rfl
  · rw [expire_of_token_ne ht]
    exact .inl rfl

end Conduit.Stage.Builtin
