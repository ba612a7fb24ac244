import Conduit.Proofs.Basic
import Conduit.Proofs.Stage.Plain
import Conduit.Stage.Build

/-!
# What a stage waits for

A throttle that holds a message waits for one timer, the latest it has set. It sets one just when it
begins to hold (`Builtin.awaits_process`), and when that timer goes off it lets the message go and
waits for nothing (`Builtin.release_of_awaits`). So a stage holds a message exactly as long as it
waits for a timer, and only a throttle in delay mode does (`Builtin.Punctual`). As it is built, a
stage holds nothing and waits for nothing (`idle_of_buildAll`).
-/

namespace Conduit.Stage

namespace Throttle

@[simp] theorem token_roll (s : Throttle) (now : Instant) : (s.roll now).token = s.token := by
  unfold roll
  split <;> rfl

@[simp] theorem pending_roll (s : Throttle) (now : Instant) :
    (s.roll now).pending = s.pending := by
  unfold roll
  split <;> rfl

/-- The token of the timer that the throttle waits for. -/
def awaits (s : Throttle) : Option UInt64 := if s.pending then some s.token else none

/-- A throttle waits for the timer that it sets, and for the one that it has waited for. -/
theorem awaits_process (moment : Moment) (s : Throttle) (w : Wrapper) :
    (s.process moment w).state.awaits.toList =
      s.awaits.toList ++ (s.process moment w).timers.map (·.token) := by
  unfold process
  dsimp only
  split
  · simp [awaits]
  · split
    · simp [awaits]
    · cases hp : s.pending <;> simp [awaits, hp]

/-- A throttle that comes to hold a message waits for a timer from then on. -/
theorem punctual_process (moment : Moment) {s : Throttle} (w : Wrapper)
    (hheld : s.held.isSome = s.awaits.isSome) (hmode : s.awaits.isSome = true → s.mode = .delay) :
    (s.process moment w).state.held.isSome = (s.process moment w).state.awaits.isSome ∧
      ((s.process moment w).state.awaits.isSome = true → s.mode = .delay) := by
  have hroll : (s.roll moment.now).awaits = s.awaits := by simp [awaits]
  unfold process
  dsimp only
  split
  · exact ⟨by simpa [awaits] using hheld, by simpa [awaits] using hmode⟩
  · split
    · exact ⟨by simpa [hroll] using hheld, by simpa [hroll] using hmode⟩
    · rename_i hdelay
      have hdelay : s.mode = .delay := (mode_roll s moment.now).symm.trans hdelay
      cases hp : s.pending <;> simp [awaits, hp, hdelay]

theorem held_of_hold {moment : Moment} {s : Throttle} {w w' : Wrapper}
    (h : (s.process moment w).outcome = .hold w') :
    (s.process moment w).state.held = some w.working := by
  unfold process at h ⊢
  dsimp only at h ⊢
  split at h
  · cases h
  · rename_i hfull
    rw [if_neg hfull]
    split at h
    · cases h
    · rename_i hdelay
      rw [hdelay]
      split <;> rfl

theorem held_of_ne_hold {moment : Moment} {s : Throttle} {w : Wrapper}
    (h : ∀ w', (s.process moment w).outcome ≠ .hold w') :
    (s.process moment w).state.held = s.held := by
  unfold process at h ⊢
  dsimp only at h ⊢
  split at h
  · rename_i hroom
    rw [if_pos hroom]
    exact held_roll s moment.now
  · rename_i hfull
    rw [if_neg hfull]
    split at h
    · exact held_roll s moment.now
    · split at h <;> exact absurd rfl (h _)

/-- A throttle lets go what it holds, or nothing. -/
theorem expire_cases (now : Instant) (s : Throttle) (token : UInt64) :
    ((s.expire now token).result = .ok none ∧ (s.expire now token).state.held = s.held) ∨
      ∃ m, s.held = some m ∧ (s.expire now token).result = .ok (some m) ∧
        (s.expire now token).state.held = none := by
  unfold expire
  split
  · exact .inl ⟨rfl, rfl⟩
  · dsimp only
    cases hm : s.held with
    | none => exact .inl ⟨rfl, rfl⟩
    | some m => exact .inr ⟨m, rfl, rfl, held_roll _ now⟩

/-- When the timer goes off that a throttle waits for, it lets go what it holds. -/
theorem release_of_awaits (now : Instant) {s : Throttle} {token : UInt64} {m : Message}
    (h : s.awaits = some token) (hm : s.held = some m) :
    (s.expire now token).result = .ok (some m) ∧ (s.expire now token).state.awaits = none ∧
      (s.expire now token).state.held = none := by
  obtain ⟨hp, rfl⟩ : s.pending = true ∧ s.token = token := by
    simpa [awaits] using h
  simp [expire, hm, awaits]

@[simp] theorem mode_process (moment : Moment) (s : Throttle) (w : Wrapper) :
    (s.process moment w).state.mode = s.mode := by
  unfold process
  dsimp only
  split
  · exact mode_roll s moment.now
  · split
    · exact mode_roll s moment.now
    · split <;> exact mode_roll s moment.now

@[simp] theorem mode_expire (now : Instant) (s : Throttle) (token : UInt64) :
    (s.expire now token).state.mode = s.mode := by
  unfold expire
  split
  · rfl
  · dsimp only
    split
    · rfl
    · exact mode_roll _ now

/-- As it is built, a throttle has no more than its configuration. -/
theorem new_of_ofParams {ms : Members} {s : Throttle} (h : ofParams ms = .ok s) :
    s = { rate := s.rate, period := s.period, mode := s.mode } := by
  unfold ofParams at h
  obtain ⟨⟨rate, period, mode⟩, -, h⟩ := bind_eq_ok h
  dsimp only at h
  split at h
  · cases h
  · split at h
    · cases h
    · cases h
      rfl

end Throttle

theorem Splitter.timers_process (moment : Moment) (s : Splitter) (w : Wrapper) :
    (s.process moment w).timers = [] := by
  unfold Splitter.process
  split <;> rfl

namespace Builtin

/-- The token of the timer that a stage waits for. -/
def awaits : Builtin → Option UInt64
  | .throttle s => s.awaits
  | _ => none

/-- Whether the stage is a throttle in delay mode. -/
def delays : Builtin → Bool
  | .throttle s => s.mode = .delay
  | _ => false

/-- The stage holds a message exactly as long as it waits for a timer. -/
structure Punctual (s : Builtin) : Prop where
  held : s.held.isSome = s.awaits.isSome
  delays : s.awaits.isSome = true → s.delays = true

/-- The stage holds nothing and waits for nothing. -/
structure Idle (s : Builtin) : Prop where
  held : s.held = none
  awaits : s.awaits = none

theorem Idle.punctual {s : Builtin} (h : s.Idle) : s.Punctual where
  held := by rw [h.held, h.awaits]; rfl
  delays ha := by simp [h.awaits] at ha

theorem idle_stop (s : Builtin) : (Behaviour.stop s).Idle := by
  cases s <;> exact ⟨rfl, rfl⟩

theorem Idle.start {s : Builtin} (h : s.Idle) (now : Instant) : (Behaviour.start now s).Idle := by
  cases s <;> exact ⟨h.held, h.awaits⟩

@[simp] theorem delays_start (now : Instant) (s : Builtin) :
    (Behaviour.start now s).delays = s.delays := by
  cases s <;> rfl

@[simp] theorem delays_stop (s : Builtin) : (Behaviour.stop s).delays = s.delays := by
  cases s <;> rfl

/-! ## A message comes -/

section Process

variable (moment : Moment) (s : Builtin) (w : Wrapper)

@[simp] theorem delays_process : (Behaviour.process moment s w).state.delays = s.delays := by
  cases s with
  | throttle s => simp [Behaviour.process, process, respond, delays]
  | _ => rfl

/-- A stage waits for the timers that it sets, and for the one that it has waited for. -/
theorem awaits_process :
    (Behaviour.process moment s w).state.awaits.toList =
      s.awaits.toList ++ (Behaviour.process moment s w).timers.map (·.token) := by
  cases s with
  | throttle s => exact s.awaits_process moment w
  | splitter s => simp [Behaviour.process, process, respond, awaits, s.timers_process moment w]
  | _ => rfl

variable {moment s w} in
/-- A stage that holds a message back holds it as it was shown. -/
theorem held_of_hold {w' : Wrapper} (h : (Behaviour.process moment s w).outcome = .hold w') :
    (Behaviour.process moment s w).state.held = some w.working ∧
      (Behaviour.process moment s w).state.delays = true := by
  obtain ⟨t, rfl, ht⟩ := exists_throttle_of_hold h
  refine ⟨Throttle.held_of_hold h, (delays_process moment _ w).trans ?_⟩
  simp [delays, ht]

variable {moment s w} in
theorem held_of_ne_hold (h : ∀ w', (Behaviour.process moment s w).outcome ≠ .hold w') :
    (Behaviour.process moment s w).state.held = s.held := by
  cases s with
  | throttle s => exact Throttle.held_of_ne_hold h
  | _ => rfl

variable {s} in
theorem Punctual.process (h : s.Punctual) : (Behaviour.process moment s w).state.Punctual := by
  cases s with
  | throttle s =>
    obtain ⟨hheld, hmode⟩ := s.punctual_process moment w h.held fun ha ↦ by
      simpa [Builtin.delays] using h.delays ha
    refine ⟨hheld, fun ha ↦ (delays_process moment _ w).trans ?_⟩
    simpa [Builtin.delays] using hmode ha
  | _ => exact ⟨rfl, fun ha ↦ by cases ha⟩

end Process

/-! ## A timer goes off -/

section Expire

variable {now : Instant} {s : Builtin} {token : UInt64}

@[simp] theorem delays_expire : (Behaviour.expire now s token).state.delays = s.delays := by
  cases s with
  | throttle s => simp [Behaviour.expire, expire, delays]
  | _ => rfl

/-- A stage lets go what it holds, or nothing. -/
theorem expire_cases (now : Instant) (s : Builtin) (token : UInt64) :
    ((Behaviour.expire now s token).result = .ok none ∧
        (Behaviour.expire now s token).state.held = s.held) ∨
      ∃ m, s.held = some m ∧ (Behaviour.expire now s token).result = .ok (some m) ∧
        (Behaviour.expire now s token).state.held = none := by
  cases s with
  | throttle s => exact s.expire_cases now token
  | _ => exact .inl ⟨rfl, rfl⟩

/-- When the timer goes off that a stage waits for, it lets go what it holds and is idle. -/
theorem Punctual.release_of_awaits (h : s.Punctual) (ha : s.awaits = some token)
    (now : Instant) :
    (∃ m, s.held = some m ∧ (Behaviour.expire now s token).result = .ok (some m)) ∧
      (Behaviour.expire now s token).state.Idle := by
  cases s with
  | throttle s =>
    -- it waits, so it holds
    obtain ⟨m, hm⟩ : ∃ m, s.held = some m :=
      Option.isSome_iff_exists.1 (h.held.trans (by rw [ha]; rfl))
    obtain ⟨hresult, hawaits, hheld⟩ := Throttle.release_of_awaits now ha hm
    exact ⟨⟨m, hm, hresult⟩, hheld, hawaits⟩
  | _ => cases ha

end Expire

end Builtin

/-! ## Stages as they are built -/

theorem Builtin.idle_of_ofParams {kind : Kind} {ms : Members} {s : Builtin}
    (h : ofParams kind ms = .ok s) : s.Idle := by
  cases kind with
  | throttle =>
    obtain ⟨t, ht, rfl⟩ := map_eq_ok h
    rw [Throttle.new_of_ofParams ht]
    exact ⟨rfl, rfl⟩
  | _ =>
    obtain ⟨t, -, rfl⟩ := map_eq_ok h
    exact ⟨rfl, rfl⟩

/-- What is true of every stage that can be built is true of the stages of every chain. -/
theorem stages_of_buildAll {P : Builtin → Prop}
    (hP : ∀ {kind ms s}, Builtin.ofParams kind ms = .ok s → P s) {entries : List Config.StageEntry}
    {slots : List (Slot Builtin)} (h : buildAll entries = .ok slots) :
    ∀ slot ∈ slots, P slot.stage := by
  unfold buildAll at h
  generalize 0 = index at h
  induction entries generalizing index slots with
  | nil =>
    cases h
    exact fun _ hslot ↦ (List.not_mem_nil hslot).elim
  | cons e rest ih =>
    obtain ⟨slot, hslot, h⟩ := bind_eq_ok h
    obtain ⟨others, hothers, h⟩ := bind_eq_ok h
    cases h
    refine List.forall_mem_cons.2 ⟨?_, ih _ hothers⟩
    unfold build at hslot
    split at hslot
    · cases hslot
    · split at hslot
      · rename_i stage hstage
        cases hslot
        exact hP hstage
      · cases hslot

theorem idle_of_buildAll {entries : List Config.StageEntry} {slots : List (Slot Builtin)}
    (h : buildAll entries = .ok slots) : ∀ slot ∈ slots, slot.stage.Idle :=
  stages_of_buildAll Builtin.idle_of_ofParams h

end Conduit.Stage
