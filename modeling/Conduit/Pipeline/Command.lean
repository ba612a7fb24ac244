import Conduit.Pipeline.Registry

/-!
# Commands

All that a host can tell a registry, as data. A command that only fails leaves its error.
-/

namespace Conduit

open Stage

/-- A pipeline that the host has built by itself, and what it may have done with it since. -/
inductive Pipeline.IsMade : Pipeline → Prop
  | ofParts (sizing : Config.Sizing) (chain : Chain Builtin) (inbound outbound : Connector)
      (id : String) : IsMade (.ofParts sizing chain inbound outbound id)
  | malformed (reason id : String) : IsMade (.malformed reason id)
  | define {p : Pipeline} (h : IsMade p) (d : Config.Pipeline) :
    IsMade { p with definition := some d }
  | request {p : Pipeline} (h : IsMade p) (what : Request) (context : Context) :
    IsMade (p.request what context).2.1
  | terminate {p : Pipeline} (h : IsMade p) (context : Context) : IsMade (p.terminate context).1
  | turn {p p' : Pipeline} {context context' : Context} (h : IsMade p)
      (ht : p.turn context = some (p', context')) : IsMade p'

inductive Command
  | add (id : String) (d : Config.Pipeline)
  | addReady (p : Pipeline) (made : p.IsMade)
  | remove (id : String)
  | update (id : String) (d : Config.Pipeline)
  | request (id : String) (what : Request)
  | terminate (id : String)
  | startAll
  | terminateAll
  | load (d : Config.Document)
  /-- The pipelines take turns until they wait. -/
  | settle
  /-- Time passes, or something else happens around the pipelines. -/
  | pass (context : Context)

namespace Registry

/-- The error of an answer. -/
def fault? {α : Type} : Except PipelineError α → Option PipelineError
  | .error e => some e
  | .ok _ => none

/-- Carries a command out. -/
def perform (r : Registry) : Command → Option PipelineError × Registry
  | .add id d => (r.add id d).map fault? fun r => r
  | .addReady p _ => (r.addReady p).map fault? fun r => r
  | .remove id => (r.remove id).map fault? fun r => r
  | .update id d => (r.update id d).map fault? fun r => r
  | .request id what => (r.request id what).map fault? fun r => r
  | .terminate id => (r.terminate id).map fault? fun r => r
  | .startAll => (none, r.startAll.2)
  | .terminateAll => (none, r.terminateAll)
  | .load d => (none, (r.load d).2)
  | .settle => (none, r.settle)
  | .pass context => (none, { r with context })

/-- The registry after commands, one after the other. -/
def after (r : Registry) (commands : List Command) : Registry :=
  commands.foldl (fun r command => (r.perform command).2) r

end Registry

end Conduit
