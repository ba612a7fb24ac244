import Conduit.Queue.Basic

/-!
# Use of a queue by threads

Any number of threads use one queue. Each has the queue to itself while it looks at it, and their
turns come in any order. A thread that wants an item and finds none waits until somebody wakes it
up or, if it has set itself a limit, until the limit is reached; then it looks again.
-/

namespace Conduit.Queue

variable {α : Type}

/-- What a thread wants of the queue. -/
inductive Access (α : Type)
  | push (a : α)
  /-- To take an item, and to wait for one as long as it takes. -/
  | pop
  /-- To take an item, and to wait for one up to a limit, which may have been reached. -/
  | popWithin (expired : Bool)
  | tryPop
  | drain
  | close

/-- What a thread is told. -/
inductive Reply (α : Type)
  | pushed (answer : Except PipelineError Unit)
  | took (item : Option α)
  | drained (items : List α)
  | closed
  /-- There is nothing to take yet; the thread will look again. -/
  | waits

/-- Takes the first item, if there is one. -/
def take (q : Queue α) : Reply α × Queue α := (.took q.pop.1, q.pop.2)

/-- One turn of a thread. -/
def access (q : Queue α) : Access α → Reply α × Queue α
  | .push a => (.pushed (q.push a).1, (q.push a).2)
  | .pop => if q.blocks then (.waits, q) else q.take
  | .popWithin expired => if q.blocks && !expired then (.waits, q) else q.take
  | .tryPop => q.take
  | .drain => (.drained q.drain.1, q.drain.2)
  | .close => (.closed, q.close)

/-- A turn that a thread has had. -/
structure Turn (α : Type) where
  thread : String
  access : Access α
  reply : Reply α

/-- Threads take turns: the queue afterwards, and the turns in order. -/
def use (q : Queue α) : List (String × Access α) → Queue α × List (Turn α)
  | [] => (q, [])
  | (thread, access) :: rest =>
    let (reply, q) := q.access access
    let (q, turns) := q.use rest
    (q, ⟨thread, access, reply⟩ :: turns)

end Conduit.Queue
