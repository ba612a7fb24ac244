import Conduit.Stage.Kind

/-!
# What stages of a kind can do

A stage stays of its kind. Only a splitter makes pieces, and a splitter does nothing else: it never
lets a message go on.
-/

namespace Conduit.Stage

theorem Throttle.process_ne_generate (moment : Moment) (s : Throttle) (w w' : Wrapper)
    (pieces : List Message) : (s.process moment w).outcome ≠ .generate w' pieces := by
  unfold Throttle.process
  dsimp only
  split
  · exact fun h ↦ by cases h
  · split
    · exact fun h ↦ by cases h
    · split <;> exact fun h ↦ by cases h

theorem Scripted.process_ne_generate (moment : Moment) (s : Scripted) (w w' : Wrapper)
    (pieces : List Message) : (s.process moment w).outcome ≠ .generate w' pieces := by
  unfold Scripted.process
  dsimp only
  split
  · exact fun h ↦ by cases h
  · exact fun h ↦ by cases h
  · split <;> exact fun h ↦ by cases h

theorem Image.process_ne_generate (s : Image) (w w' : Wrapper) (pieces : List Message) :
    s.process w ≠ .generate w' pieces := by
  unfold Image.process
  split
  · exact fun h ↦ by cases h
  · split
    · exact fun h ↦ by cases h
    · split <;> exact fun h ↦ by cases h

namespace Splitter

theorem process_ne_done (moment : Moment) (s : Splitter) (w w' : Wrapper) :
    (s.process moment w).outcome ≠ .done w' := by
  unfold Splitter.process
  split <;> exact fun h ↦ by cases h

/-- A payload that is not empty makes pieces, of which the first is not empty either. -/
theorem exists_split_cons {s : Splitter} (hm : s.mode = .bytes) (hs : s.size ≠ 0) (name : String)
    {m : Message} (h : m.asBytes ≠ []) :
    ∃ m' rest, s.split name m = .ok (m' :: rest) ∧ m'.asBytes ≠ [] := by
  have hchunks : chunks s.size m.asBytes =
      m.asBytes.take s.size :: chunks s.size (m.asBytes.drop s.size) := by
    rw [chunks, dif_neg (by simp [hs, h])]
  have htake : m.asBytes.take s.size ≠ [] := by
    simp [hs, h]
  rw [split, hm]
  simp only [splitBytes, hchunks, tagged, List.map_cons, List.zipIdx_cons]
  exact ⟨_, _, rfl, htake⟩

end Splitter

namespace Builtin

theorem outcome_ne_generate (r : Except PipelineError Wrapper) (w : Wrapper)
    (pieces : List Message) : outcome r ≠ .generate w pieces := by
  cases r <;> exact fun h ↦ by cases h

@[simp] theorem kind_process (moment : Moment) (s : Builtin) (w : Wrapper) :
    (Behaviour.process moment s w).state.kind = s.kind := by
  cases s <;> rfl

@[simp] theorem kind_expire (now : Instant) (s : Builtin) (token : UInt64) :
    (Behaviour.expire now s token).state.kind = s.kind := by
  cases s <;> rfl

/-- Only splitters make pieces. -/
theorem isGenerator_of_generate {moment : Moment} {s : Builtin} {w w' : Wrapper}
    {pieces : List Message} (h : (Behaviour.process moment s w).outcome = .generate w' pieces) :
    s.kind.isGenerator = true := by
  cases s with
  | splitter s => rfl
  | throttle s => exact absurd h (s.process_ne_generate moment w w' pieces)
  | script s => exact absurd h (s.process_ne_generate moment w w' pieces)
  | comparator s => exact absurd h (outcome_ne_generate (s.apply w) w' pieces)
  | eraser s => exact absurd h (outcome_ne_generate (s.apply w) w' pieces)
  | builder s => exact absurd h (outcome_ne_generate (s.apply w) w' pieces)
  | image s => exact absurd h (s.process_ne_generate w w' pieces)
  | search s => cases h
  | limiter s => cases h
  | pass s => cases h

/-- Splitters let no message go on. -/
theorem isGenerator_of_done {moment : Moment} {s : Builtin} {w w' : Wrapper}
    (h : (Behaviour.process moment s w).outcome = .done w') : s.kind.isGenerator = false := by
  cases s with
  | splitter s => exact absurd h (s.process_ne_done moment w w')
  | _ => rfl

end Builtin

end Conduit.Stage
