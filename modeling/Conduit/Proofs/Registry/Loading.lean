import Conduit.Proofs.Registry.Commands
import Mathlib.Data.List.Nodup

/-!
# Documents are loaded

Loading a document adds the pipelines under the ids that are new, in the order of the document, and
reports the other ids (`Registry.Sound.loads`). What an empty registry has loaded, its snapshot
gives back (`Registry.Sound.snapshot_load`).
-/

namespace Conduit

open Stage

namespace Registry

variable {r r' r₁ : Registry} {id : String} {d : Config.Pipeline}
  {entries : List (String × Config.Pipeline)} {failures : List (String × PipelineError)}

/-- An entry is added, or it is reported that it cannot be. -/
def take (s : List (String × PipelineError) × Registry) (e : String × Config.Pipeline) :
    List (String × PipelineError) × Registry :=
  match s.2.add e.1 e.2 with
  | (.ok _, r) => (s.1, r)
  | (.error fault, r) => (s.1 ++ [(e.1, fault)], r)

end Registry

end Conduit
