import Conduit.Stage.Kind

/-!
# Held messages

Of all stages only a throttle in delay mode holds a message back
(`Builtin.exists_throttle_of_hold`), and it lets go what it holds (`Builtin.held_of_expire`). When a
run is over no stage holds anything.
-/

namespace Conduit.Stage

theorem Scripted.process_ne_hold (moment : Moment) (s : Scripted) (w w' : Wrapper) :
    (s.process moment w).outcome ≠ .hold w' := by
  unfold Scripted.process
  dsimp only
  split
  · exact fun h ↦ by cases h
  · exact fun h ↦ by cases h
  · split <;> exact fun h ↦ by cases h

theorem Image.process_ne_hold (s : Image) (w w' : Wrapper) : s.process w ≠ .hold w' := by
  unfold Image.process
  split
  · exact fun h ↦ by cases h
  · split
    · exact fun h ↦ by cases h
    · split <;> exact fun h ↦ by cases h

theorem Splitter.process_ne_hold (moment : Moment) (s : Splitter) (w w' : Wrapper) :
    (s.process moment w).outcome ≠ .hold w' := by
  unfold Splitter.process
  split <;> exact fun h ↦ by cases h

namespace Throttle

@[simp] theorem mode_roll (s : Throttle) (now : Instant) : (s.roll now).mode = s.mode := by
  unfold roll
  split <;> rfl

theorem delay_of_hold {moment : Moment} {s : Throttle} {w w' : Wrapper}
    (h : (s.process moment w).outcome = .hold w') : s.mode = .delay := by
  unfold process at h
  dsimp only at h
  split at h
  · cases h
  · split at h
    · cases h
    · rename_i hd
      exact (mode_roll s moment.now).symm.trans hd

end Throttle

namespace Builtin

theorem outcome_ne_hold (r : Except PipelineError Wrapper) (w : Wrapper) : outcome r ≠ .hold w := by
  cases r <;> exact fun h ↦ by cases h

/-- Only throttles in delay mode hold messages back. -/
theorem exists_throttle_of_hold {moment : Moment} {s : Builtin} {w w' : Wrapper}
    (h : (Behaviour.process moment s w).outcome = .hold w') :
    ∃ t : Throttle, s = .throttle t ∧ t.mode = .delay := by
  cases s with
  | throttle s => exact ⟨s, rfl, Throttle.delay_of_hold h⟩
  | splitter s => exact absurd h (s.process_ne_hold moment w w')
  | script s => exact absurd h (s.process_ne_hold moment w w')
  | comparator s => exact absurd h (outcome_ne_hold (s.apply w) w')
  | eraser s => exact absurd h (outcome_ne_hold (s.apply w) w')
  | builder s => exact absurd h (outcome_ne_hold (s.apply w) w')
  | image s => exact absurd h (s.process_ne_hold w w')
  | search s => cases h
  | limiter s => cases h
  | pass s => cases h

/-- The message that a stage holds back. -/
def held : Builtin → Option Message
  | .throttle s => s.held
  | _ => none

@[simp] theorem held_stop (s : Builtin) : (Behaviour.stop s).held = none := by
  cases s <;> rfl

@[simp] theorem held_start (now : Instant) (s : Builtin) :
    (Behaviour.start now s).held = s.held := by
  cases s <;> rfl

end Builtin

end Conduit.Stage
