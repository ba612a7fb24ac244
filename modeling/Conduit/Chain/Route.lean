import Conduit.Stage.Routing

/-!
# Routes

The targets of a chain are resolved to places once, before anything runs. The end of the chain is
the place behind its last stage; a target that no stage carries leads there too.
-/

namespace Conduit

open Stage

/-- The places that a message may go to from one stage. -/
structure Route where
  next : Option Nat := none
  passed : Option Nat := none
  rejected : Option Nat := none
deriving DecidableEq, Repr

structure RoutePlan where
  routes : List Route
  /-- The targets that no stage carries. -/
  unresolved : List String := []
deriving DecidableEq, Repr

namespace RoutePlan

/-- The place of each label. A label may not be used twice nor name the end. -/
def labels : (index : Nat) → (seen : List (String × Nat)) → List Routing →
    Except PipelineError (List (String × Nat))
  | _, seen, [] => .ok seen
  | index, seen, r :: rest =>
    match r.label with
    | none => labels (index + 1) seen rest
    | some label =>
      if label = outTarget then
        .error (.invalidStage index ("'" ++ outTarget ++ "' is reserved for the end of the chain"))
      else if (seen.lookup label).isSome then
        .error (.invalidStage index ("duplicate stage name '" ++ label ++ "'"))
      else labels (index + 1) ((label, index) :: seen) rest

/-- The place that a target leads to. -/
def place (places : List (String × Nat)) (terminal : Nat) (target : String) : Nat :=
  if target = outTarget then terminal else (places.lookup target).getD terminal

def route (places : List (String × Nat)) (terminal : Nat) (r : Routing) : Route where
  next := r.next.map (place places terminal)
  passed := r.passed.map (place places terminal)
  rejected := r.rejected.map (place places terminal)

def targets (r : Routing) : List String :=
  r.next.toList ++ r.passed.toList ++ r.rejected.toList

/-- Resolves all targets of a chain. -/
def compile (routings : List Routing) : Except PipelineError RoutePlan := do
  let places ← labels 0 [] routings
  return {
    routes := routings.map (route places routings.length)
    unresolved := (routings.flatMap targets).filter fun target =>
      target ≠ outTarget ∧ (places.lookup target).isNone }

end RoutePlan

end Conduit
