import Conduit.Chain.Basic
import Conduit.Proofs.Dictionary

/-!
# Queues in a directory

A directory shows each of its queues by name, the empty one for a name that it does not know. What
is published to one queue changes that queue alone (`queue_publish`), so of several copies each
queue sees its own, in order (`queue_publishAll`).
-/

namespace Conduit

namespace Directory

/-- To publish to a queue puts a copy into the buffers of that queue only. -/
theorem queue_publish (d : Directory) (name other : String) (w : Wrapper) :
    (d.publish name w).2.queue other =
      if other = name then (Broadcast.publish w (d.queue name)).2 else d.queue other := by
  simp only [publish, queue, Dictionary.get?_insert]
  split <;> rfl

/-- Of some copies, a queue sees those that are for it, in order. -/
theorem queue_publishAll (copies : List Publication) (d : Directory) (name : String) :
    (d.publishAll copies).queue name =
      (copies.filter (·.queue = name)).foldl (fun b p ↦ (Broadcast.publish p.copy b).2)
        (d.queue name) := by
  induction copies generalizing d with
  | nil => rfl
  | cons p rest ih =>
    have hstep : (d.publishAll (p :: rest)) = (d.publish p.queue p.copy).2.publishAll rest := rfl
    rw [hstep, ih, queue_publish]
    by_cases h : p.queue = name
    · simp [h]
    · simp [h, Ne.symm h]

end Directory

end Conduit
