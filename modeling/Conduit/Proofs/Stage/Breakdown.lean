import Conduit.Stage.Kind

/-!
# Breakdowns

Two things break a stage down. A script may call `clamp` with bounds out of order, the one call that
the host does not answer (`Script.Library.call_eq_error_iff`), and a picture may be transformed into
one that no buffer can hold. No other message breaks down a stage of any kind
(`Builtin.crashed_iff`).
-/

namespace Conduit

namespace Script

namespace Library

theorem breakdown?_eq_some_iff {name : String} {args : List Datum} {b : Breakdown} :
    breakdown? name args = some b ↔
      name = "clamp" ∧ args = [.float b.value, .float b.low, .float b.high] := by
  constructor
  · intro h
    unfold breakdown? at h
    split at h
    · split at h
      · obtain rfl := Option.some.inj h
        exact ⟨rfl, rfl⟩
      · cases h
    · cases h
  · rintro ⟨rfl, rfl⟩
    exact dif_pos b.outOfOrder

/-- Of all calls that a script can make, those of `clamp` with bounds out of order break down. -/
theorem call_eq_error_iff {setting : Setting} {name : String} {args : List Datum} {b : Breakdown} :
    call setting name args = .error b ↔
      name = "clamp" ∧ args = [.float b.value, .float b.low, .float b.high] := by
  rw [← breakdown?_eq_some_iff]
  unfold call
  cases breakdown? name args with
  | none => exact ⟨nofun, nofun⟩
  | some b' =>
    constructor
    · intro h
      exact congrArg some (Except.error.inj h)
    · intro h
      exact congrArg Except.error (Option.some.inj h)

end Library

theorem Compiled.execute_eq_crashed_iff (script : Compiled) (input : Input)
    (setting : Library.Setting) :
    script.execute input setting = .crashed ↔
      ∃ b, script.program.run setting input.scope = .error (.brokeDown b) := by
  unfold Compiled.execute
  split
  · rename_i b hrun
    exact iff_of_true rfl ⟨b, hrun⟩
  · rename_i t hrun
    refine iff_of_false nofun ?_
    rintro ⟨b, hb⟩
    cases hrun.symm.trans hb
  · rename_i result scope hrun
    refine iff_of_false ?_ ?_
    · split <;> exact nofun
    · rintro ⟨b, hb⟩
      cases hrun.symm.trans hb

end Script

namespace Stage

open Script

/-- What makes a stage break down on a message: the run of its script ends in a breakdown, or the
transform of its picture is too large. The setting is what the script can ask about its run. -/
def Builtin.BreaksOn : Builtin → Library.Setting → Wrapper → Prop
  | .script s, setting, w =>
    ∃ b, s.script.program.run setting (Scripted.input w).scope = .error (.brokeDown b)
  | .image s, _, w => ∃ r, Image.picture? w = some r ∧ s.overflows r = true
  | _, _, _ => False

theorem Throttle.process_ne_crashed (moment : Moment) (s : Throttle) (w : Wrapper) :
    (s.process moment w).outcome ≠ .crashed := by
  unfold Throttle.process
  dsimp only
  split
  · exact nofun
  · split
    · exact nofun
    · split <;> exact nofun

theorem Splitter.process_ne_crashed (moment : Moment) (s : Splitter) (w : Wrapper) :
    (s.process moment w).outcome ≠ .crashed := by
  unfold Splitter.process
  split <;> exact nofun

theorem Scripted.crashed_iff (moment : Moment) (s : Scripted) (w : Wrapper) :
    (s.process moment w).outcome = .crashed ↔
      ∃ b, s.script.program.run (s.setting moment.now) (input w).scope = .error (.brokeDown b) := by
  rw [← s.script.execute_eq_crashed_iff]
  unfold Scripted.process
  cases s.script.execute (input w) (s.setting moment.now) with
  | crashed => exact iff_of_true rfl rfl
  | failed e => exact iff_of_false nofun nofun
  | done out =>
    refine iff_of_false ?_ nofun
    dsimp only
    split <;> exact nofun

theorem Image.crashed_iff (s : Image) (w : Wrapper) :
    s.process w = .crashed ↔ ∃ r, picture? w = some r ∧ s.overflows r = true := by
  rw [process]
  cases picture? w with
  | none => exact iff_of_false nofun nofun
  | some r =>
    by_cases h : s.overflows r = true
    · exact iff_of_true (if_pos h) ⟨r, rfl, h⟩
    · refine iff_of_false ?_ ?_
      · simp only [if_neg h]
        split <;> exact nofun
      · rintro ⟨r', hr', h'⟩
        exact h (Option.some.inj hr' ▸ h')

namespace Builtin

theorem outcome_ne_crashed (r : Except PipelineError Wrapper) : outcome r ≠ .crashed := by
  cases r <;> exact nofun

/-- What a stage breaks down on is not a matter of its state. -/
@[simp] theorem breaksOn_process (moment : Moment) (s : Builtin) (w : Wrapper) :
    (Behaviour.process moment s w).state.BreaksOn = s.BreaksOn := by
  cases s <;> rfl

/-- Whatever its kind, a stage breaks down on the messages that `BreaksOn` tells of and on no
others. -/
theorem crashed_iff (moment : Moment) (s : Builtin) :
    ∃ setting, ∀ w, (Behaviour.process moment s w).outcome = .crashed ↔ s.BreaksOn setting w := by
  have hnone {s : Builtin} (hs : ∀ setting w, ¬ s.BreaksOn setting w)
      (h : ∀ w, (Behaviour.process moment s w).outcome ≠ .crashed) : ∃ setting, ∀ w,
        (Behaviour.process moment s w).outcome = .crashed ↔ s.BreaksOn setting w :=
    ⟨⟨.zero, .zero, 0, 0⟩, fun w ↦ iff_of_false (h w) (hs _ w)⟩
  cases s with
  | script s => exact ⟨s.setting moment.now, s.crashed_iff moment⟩
  | image s => exact ⟨⟨.zero, .zero, 0, 0⟩, s.crashed_iff⟩
  | throttle s => exact hnone (fun _ _ ↦ not_false) (s.process_ne_crashed moment)
  | splitter s => exact hnone (fun _ _ ↦ not_false) (s.process_ne_crashed moment)
  | comparator s => exact hnone (fun _ _ ↦ not_false) fun w ↦ outcome_ne_crashed (s.apply w)
  | eraser s => exact hnone (fun _ _ ↦ not_false) fun w ↦ outcome_ne_crashed (s.apply w)
  | builder s => exact hnone (fun _ _ ↦ not_false) fun w ↦ outcome_ne_crashed (s.apply w)
  | search s => exact hnone (fun _ _ ↦ not_false) fun w ↦ nofun
  | limiter s => exact hnone (fun _ _ ↦ not_false) fun w ↦ nofun
  | pass s => exact hnone (fun _ _ ↦ not_false) fun w ↦ nofun

end Builtin

end Stage

end Conduit
