import Conduit.Error

/-!
# Queues

A queue with an optional capacity gives items back in the order in which they came. It counts what
it took, gave and refused. Once closed it stays closed; it still gives what it holds.
-/

namespace Conduit

structure Queue (α : Type) where
  /-- How many items fit; zero for no bound. -/
  capacity : Nat := 0
  items : List α := []
  closed : Bool := false
  pushed : Nat := 0
  popped : Nat := 0
  rejected : Nat := 0
deriving DecidableEq

namespace Queue

variable {α : Type}

instance : Inhabited (Queue α) := ⟨{}⟩

def size (q : Queue α) : Nat := q.items.length

def isFull (q : Queue α) : Bool := 0 < q.capacity && q.capacity ≤ q.size

/-- Puts an item at the end. A full queue refuses it. -/
def push (q : Queue α) (a : α) : Except PipelineError Unit × Queue α :=
  if q.isFull then (.error (.overflow q.capacity), { q with rejected := q.rejected + 1 })
  else (.ok (), { q with items := q.items ++ [a], pushed := q.pushed + 1 })

/-- Takes the first item. -/
def pop (q : Queue α) : Option α × Queue α :=
  match q.items with
  | [] => (none, q)
  | a :: rest => (some a, { q with items := rest, popped := q.popped + 1 })

/-- Whether a consumer that waits for an item has to go on waiting. -/
def blocks (q : Queue α) : Bool := q.items.isEmpty && !q.closed

/-- Takes all items. -/
def drain (q : Queue α) : List α × Queue α :=
  (q.items, { q with items := [], popped := q.popped + q.size })

def close (q : Queue α) : Queue α := { q with closed := true }

def describe (q : Queue α) : String :=
  s!"BoundedQueue \x7b len: {q.size}, capacity: {q.capacity}, shutdown: {q.closed} \x7d"

end Queue

/-- A signal that is remembered until somebody has waited for it. -/
structure Latch where
  isSet : Bool := false
deriving DecidableEq, Repr

namespace Latch

def notify (_ : Latch) : Latch := ⟨true⟩

/-- Waits as long as allowed: whether the latch was set, and the latch afterwards. -/
def wait (l : Latch) : Bool × Latch := (l.isSet, ⟨false⟩)

end Latch

end Conduit
