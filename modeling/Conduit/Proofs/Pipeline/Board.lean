import Conduit.Pipeline.Board

/-!
# What is written on a board

A message that was received settles when it is sent, dropped, or ends in an error of a stage. To
show a failure changes no count, and neither that nor any count says whether to go on. No count
tells of a failure.
-/

namespace Conduit

/-- How many messages have come out of a chain in one way or another, a held one being none. -/
def Output.settled (o : Output) : Nat := o.dropped + o.errors.length

namespace Board

/-- How many messages were sent, dropped, or ended in an error. -/
def settled (b : Board) : Nat := b.sent + b.dropped + b.stageErrors

variable (b : Board) (text : String) (n : Nat) (o : Output)

@[simp] theorem active_fail : (b.fail text).active = b.active := by
  unfold fail
  split <;> rfl

@[simp] theorem received_fail : (b.fail text).received = b.received := by
  unfold fail
  split <;> rfl

@[simp] theorem settled_fail : (b.fail text).settled = b.settled := by
  unfold fail
  split <;> rfl

@[simp] theorem settled_drop : (b.drop n).settled = b.settled + n := by
  simp only [settled, drop]
  omega

@[simp] theorem active_count : (b.count o).active = b.active := by
  unfold count
  dsimp only
  split <;> rfl

@[simp] theorem received_count : (b.count o).received = b.received := by
  unfold count
  dsimp only
  split <;> rfl

@[simp] theorem settled_count : (b.count o).settled = b.settled + o.settled := by
  unfold count
  dsimp only
  split
  · rename_i hnone
    rw [settled_drop, Output.settled, List.getLast?_eq_none_iff.1 hnone]
    rfl
  · simp only [settled, drop, Output.settled]
    omega

/-! ## Failures -/

/-- What a board tells of failures. -/
def health (b : Board) : Lifecycle × Option String := (b.state, b.lastError)

@[simp] theorem health_count : (b.count o).health = b.health := by
  unfold count
  dsimp only
  split <;> rfl

@[simp] theorem state_fail : (b.fail text).state = .failed := by
  unfold fail
  split
  · rename_i h
    exact h.1
  · rfl

theorem fail_of_failed (h : b.state = .failed) (he : b.lastError.isSome = true) :
    b.fail text = b := if_pos ⟨h, he⟩

theorem lastError_fail_of_not_failed (h : b.state ≠ .failed) :
    (b.fail text).lastError = some text := by
  rw [fail, if_neg fun hf ↦ h hf.1]

end Board

end Conduit
