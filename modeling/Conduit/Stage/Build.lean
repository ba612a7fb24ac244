import Conduit.Config.Entry
import Conduit.Stage.Kind

/-!
# Building stages

A stage is built from its entry. Everything that is wrong with an entry is found here, and an error
names its place.
-/

namespace Conduit.Stage

open Config

/-- Builds the stage at place `index` of a chain. -/
def build (index : Nat) (e : StageEntry) : Except PipelineError (Slot Builtin) :=
  match Kind.ofName? e.type with
  | none => .error (.unknownStageType e.type)
  | some kind =>
    match Builtin.ofParams kind e.params with
    | .ok stage => .ok { routing := e.routing, stage }
    | .error problem => .error (.invalidStage index (kind.name ++ ": " ++ problem.message))

def buildFrom : (index : Nat) → List StageEntry → Except PipelineError (List (Slot Builtin))
  | _, [] => .ok []
  | index, e :: rest => do
    let slot ← build index e
    let slots ← buildFrom (index + 1) rest
    return slot :: slots

/-- Builds all stages of a chain; the first entry that is wrong decides. -/
def buildAll (entries : List StageEntry) : Except PipelineError (List (Slot Builtin)) :=
  buildFrom 0 entries

end Conduit.Stage
