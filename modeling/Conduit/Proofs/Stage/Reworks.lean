import Conduit.Proofs.Chain.Redirects

/-!
# What stages leave of a wrapper

A stage may change the working message and the decision. However it does the one, by a new payload,
another representation or another topic, the message keeps its tag; and what entered the chain and
which queues have copies is not for stages to write (`Builtin.reworks_of_process`). Metadata are
written by scripts only (`Builtin.retouches_of_process`).
-/

namespace Conduit

/-- The wrapper with another working message, which has the same tag, another decision, and other
metadata. -/
structure Wrapper.Reworks (w u : Wrapper) : Prop where
  incoming : u.incoming = w.incoming
  redirects : u.redirects = w.redirects
  chunk : u.working.chunk = w.working.chunk

/-- The same, with the metadata as they were. -/
structure Wrapper.Retouches (w u : Wrapper) : Prop extends w.Reworks u where
  metadata : u.metadata = w.metadata

namespace Wrapper

variable (w : Wrapper)

theorem retouches_decide (accepted : Bool) : w.Retouches (w.decide accepted) :=
  ⟨⟨rfl, rfl, rfl⟩, rfl⟩

theorem retouches_accept : w.Retouches w.accept := w.retouches_decide true

theorem retouches_working {m : Message} (h : m.chunk = w.working.chunk) :
    w.Retouches { w with working := m }.accept := ⟨⟨rfl, rfl, h⟩, rfl⟩

end Wrapper

namespace Stage

variable {w u : Wrapper}

theorem Comparator.retouches_apply {s : Comparator} (h : s.apply w = .ok u) : w.Retouches u := by
  obtain ⟨doc, -, h⟩ := bind_eq_ok h
  cases h
  exact w.retouches_decide _

theorem Eraser.retouches_apply {s : Eraser} (h : s.apply w = .ok u) : w.Retouches u := by
  obtain ⟨doc, -, h⟩ := bind_eq_ok h
  cases h
  split
  · exact w.retouches_working rfl
  · exact w.retouches_accept

theorem Builder.retouches_apply {s : Builder} (h : s.apply w = .ok u) : w.Retouches u := by
  unfold apply at h
  by_cases hmerge : s.merge = true
  · rw [if_pos hmerge] at h
    obtain ⟨document, -, h⟩ := bind_eq_ok h
    cases h
    exact w.retouches_working (by cases s.topic <;> rfl)
  · rw [if_neg hmerge] at h
    cases h
    exact w.retouches_working (by cases s.topic <;> rfl)

theorem Throttle.retouches_process {moment : Moment} {s : Throttle}
    (h : (s.process moment w).outcome.wrapper? = some u) : w.Retouches u := by
  unfold process at h
  dsimp only at h
  split at h
  · cases h
    exact w.retouches_accept
  · -- the one that is held is the one that is rejected
    have hu : u = w.decide false := by
      split at h
      · exact (Option.some.inj h).symm
      · split at h <;> exact (Option.some.inj h).symm
    exact hu ▸ w.retouches_decide false

theorem Splitter.retouches_process {moment : Moment} {s : Splitter}
    (h : (s.process moment w).outcome.wrapper? = some u) : w.Retouches u := by
  unfold process at h
  split at h
  · cases h
    exact ⟨⟨rfl, rfl, rfl⟩, rfl⟩
  · cases h

theorem Image.retouches_process {s : Image} (h : (s.process w).wrapper? = some u) :
    w.Retouches u := by
  unfold process at h
  split at h
  · cases h
  · split at h
    · cases h
    · split at h
      · cases h
      · cases h
        exact ⟨⟨rfl, rfl, rfl⟩, rfl⟩

theorem Scripted.chunk_withPayload {m m' : Message} {d : Script.Datum}
    (h : withPayload m d = .ok m') : m'.chunk = m.chunk := by
  unfold withPayload at h
  split at h
  · cases h
    rfl
  · cases h
    rfl
  · cases h
    rfl
  · cases hjson : Script.toJson d <;> rw [hjson] at h <;> cases h
    rfl

/-- A script may write metadata too. -/
theorem Scripted.reworks_process {moment : Moment} {s : Scripted}
    (h : (s.process moment w).outcome.wrapper? = some u) : w.Reworks u := by
  unfold process at h
  dsimp only at h
  split at h
  · cases h
  · cases h
  · split at h
    · rename_i hleave
      cases h
      obtain ⟨m, hm, hleave⟩ := bind_eq_ok hleave
      obtain ⟨metadata, -, hleave⟩ := bind_eq_ok hleave
      have hchunk := chunk_withPayload hm
      cases hleave
      exact ⟨rfl, rfl, hchunk⟩
    · cases h

namespace Builtin

theorem eq_ok_of_outcome {r : Except PipelineError Wrapper} (h : (outcome r).wrapper? = some u) :
    r = .ok u := by
  cases r with
  | error => cases h
  | ok => exact congrArg Except.ok (Option.some.inj h)

variable {moment : Moment} {s : Builtin}

/-- Stages other than scripts leave the metadata as they were. -/
theorem retouches_of_process (hs : s.kind ≠ .script)
    (h : (Behaviour.process moment s w).outcome.wrapper? = some u) : w.Retouches u := by
  cases s with
  | comparator s => exact s.retouches_apply (eq_ok_of_outcome h)
  | eraser s => exact Eraser.retouches_apply (eq_ok_of_outcome h)
  | builder s => exact Builder.retouches_apply (eq_ok_of_outcome h)
  | throttle s => exact Throttle.retouches_process h
  | splitter s => exact Splitter.retouches_process h
  | image s => exact Image.retouches_process h
  | script s => exact absurd rfl hs
  | search s =>
    cases h
    exact w.retouches_decide _
  | limiter s =>
    cases h
    exact w.retouches_decide _
  | pass s =>
    cases h
    exact w.retouches_accept

/-- No stage writes what entered the chain or which queues have copies, or takes the tag off. -/
theorem reworks_of_process (h : (Behaviour.process moment s w).outcome.wrapper? = some u) :
    w.Reworks u := by
  by_cases hs : s.kind = .script
  · cases s with
    | script s => exact Scripted.reworks_process h
    | _ => cases hs
  · exact (retouches_of_process hs h).toReworks

end Builtin

end Stage

end Conduit
