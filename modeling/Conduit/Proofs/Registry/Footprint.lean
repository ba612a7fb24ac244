import Conduit.Connector.Exchange
import Conduit.Proofs.Queue.Traffic
import Conduit.Proofs.Registry.Checks
import Mathlib.Data.List.TakeWhile

/-!
# What a check leaves behind

A definition is checked by building its parts in turn, and a queue connector makes its queue as it
is built. So a check leaves the queues of those connectors behind that come before the first error
(`Config.Pipeline.queues`), and leaves everything else as it was (`Registry.validate_leaves`). The
queues that it makes have no subscribers, so no queue shows that it was there, but the list of their
names does (`Registry.validate_makes_queue`).
-/

namespace Conduit

open Stage
open Registry (fault?)

/-! ## Queues that are made -/

namespace Directory

/-- Makes queues in turn. -/
def createAll (d : Directory) (names : List String) : Directory := names.foldl create d

theorem contains_create (d : Directory) (name other : String) :
    (d.create name).contains other = (d.contains other || other == name) := by
  unfold create
  split
  · rename_i hin
    by_cases h : other = name
    · rw [h, hin, Bool.true_or]
    · rw [beq_eq_false_iff_ne.2 h, Bool.or_false]
  · rw [Dictionary.contains, Dictionary.get?_insert]
    by_cases h : other = name
    · rw [if_pos h, beq_iff_eq.2 h, Bool.or_true, Option.isSome_some]
    · rw [if_neg h, beq_eq_false_iff_ne.2 h, Bool.or_false, Dictionary.contains]

/-- The queues that were there keep their subscribers, and the new ones have none. -/
theorem queue_createAll (d : Directory) (names : List String) (name : String) :
    (d.createAll names).queue name = d.queue name := by
  induction names generalizing d with
  | nil => rfl
  | cons first rest ih => exact (ih (d.create first)).trans (queue_create d first name)

theorem contains_createAll (d : Directory) (names : List String) (name : String) :
    (d.createAll names).contains name = true ↔ d.contains name = true ∨ name ∈ names := by
  induction names generalizing d with
  | nil => simp [createAll]
  | cons first rest ih =>
    refine (ih (d.create first)).trans ?_
    rw [contains_create, Bool.or_eq_true, beq_iff_eq, List.mem_cons, or_assoc]

end Directory

/-- A connector that is entered makes the queue it is of. -/
theorem Connector.enter_eq (c : Connector) (d : Directory) :
    c.enter d = d.createAll c.queue?.toList := by
  cases c <;> rfl

namespace Config.Pipeline

/-- The fan-out queue of a part: that of a queue connector that can be built. -/
def queue? (d : Pipeline) (sizing : Sizing) : Part → Option String
  | .inbound => (Connector.build d.inbound .inbound sizing).toOption.bind Connector.queue?
  | .outbound => (Connector.build d.outbound .outbound sizing).toOption.bind Connector.queue?
  | .type _ | .params .. | .label .. => none

/-- The parts before the first one that has an error, or all of them. -/
def soundParts (d : Pipeline) (sizing : Sizing) : List Part :=
  d.parts.takeWhile fun part ↦ (d.problem? sizing part).isNone

/-- The queues of the connectors that come before the first error. -/
def queues (d : Pipeline) (sizing : Sizing) : List String :=
  (d.soundParts sizing).filterMap (d.queue? sizing)

section

variable {d : Pipeline} {sizing : Sizing}

/-- Only connectors make queues. -/
theorem queue?_eq_none_of_mem {part : Part}
    (h : part ∈ stageParts d.stages.zipIdx ++ labelParts d.stages.zipIdx) :
    d.queue? sizing part = none := by
  rcases List.mem_append.1 h with h | h
  · obtain ⟨s, -, hs⟩ := List.mem_flatMap.1 h
    rcases List.mem_pair.1 hs with rfl | rfl <;> rfl
  · obtain ⟨s, -, rfl⟩ := List.mem_map.1 h
    rfl

/-- If a stage or a label is wrong, no queue is made. -/
theorem queues_of_chain_eq_some {e : PipelineError}
    (h : (stageParts d.stages.zipIdx ++ labelParts d.stages.zipIdx).findSome? (d.problem? sizing) =
      some e) : d.queues sizing = [] := by
  have hparts : d.parts = _ ++ [.inbound, .outbound] := rfl
  generalize hfront : stageParts d.stages.zipIdx ++ labelParts d.stages.zipIdx = front at h hparts
  obtain ⟨part, hpart, hproblem⟩ := List.exists_of_findSome?_eq_some h
  have hstop : (front.takeWhile fun part ↦ (d.problem? sizing part).isNone).length ≠
      front.length := by
    intro hlength
    have hall := List.takeWhile_eq_self_iff.1
      ((List.takeWhile_prefix _).eq_of_length hlength) part hpart
    rw [hproblem] at hall
    cases hall
  rw [queues, soundParts, hparts, List.takeWhile_append, if_neg hstop]
  exact List.filterMap_eq_nil_iff.2 fun part hin ↦
    queue?_eq_none_of_mem (hfront ▸ (List.takeWhile_prefix _).subset hin)

/-- If all stages and labels are right, queues are made by the connectors alone. -/
theorem queues_of_chain_eq_none
    (h : (stageParts d.stages.zipIdx ++ labelParts d.stages.zipIdx).findSome? (d.problem? sizing) =
      none) :
    d.queues sizing = ([.inbound, .outbound].takeWhile
      fun part ↦ (d.problem? sizing part).isNone).filterMap (d.queue? sizing) := by
  rw [queues, soundParts, parts, List.takeWhile_append_of_pos, List.filterMap_append,
    List.filterMap_eq_nil_iff.2 fun part hpart ↦ queue?_eq_none_of_mem hpart, List.nil_append]
  exact fun part hpart ↦ Option.isNone_iff_eq_none.2 (List.findSome?_eq_none_iff.1 h part hpart)

/-- If something is wrong, at most the inbound connector makes a queue. -/
theorem queue?_inbound_of_mem_queues {e : PipelineError} {name : String}
    (h : d.parts.findSome? (d.problem? sizing) = some e) (hname : name ∈ d.queues sizing) :
    d.queue? sizing .inbound = some name := by
  rw [parts, List.findSome?_append] at h
  cases hchain : (stageParts d.stages.zipIdx ++ labelParts d.stages.zipIdx).findSome?
      (d.problem? sizing) with
  | some problem =>
    rw [queues_of_chain_eq_some hchain] at hname
    cases hname
  | none =>
    rw [queues_of_chain_eq_none hchain] at hname
    rw [hchain, Option.none_or] at h
    cases hin : d.problem? sizing .inbound with
    | some problem => simp [hin] at hname
    | none =>
      have hout : d.problem? sizing .outbound = some e := by simpa [hin] using h
      simpa [List.takeWhile_cons, hin, hout] using hname

end

end Config.Pipeline

/-- The context with queues that were made in it. -/
def Context.withQueues (ctx : Context) (names : List String) : Context :=
  { ctx with around := { ctx.around with directory := ctx.around.directory.createAll names } }

theorem Context.withQueues_append (ctx : Context) (names more : List String) :
    (ctx.withQueues names).withQueues more = ctx.withQueues (names ++ more) := by
  rw [withQueues, withQueues, withQueues, Directory.createAll, Directory.createAll,
    Directory.createAll, List.foldl_append]

namespace Pipeline

open Config.Pipeline

/-- Building a connector makes its queue, and an error makes none. -/
theorem buildConnector_eq (e : Config.ConnectorEntry) (side : Direction) (ctx : Context) :
    buildConnector e side ctx = (Connector.build e side ctx.sizing,
      ctx.withQueues ((Connector.build e side ctx.sizing).toOption.bind
        Connector.queue?).toList) := by
  rw [buildConnector]
  cases Connector.build e side ctx.sizing with
  | error => rfl
  | ok c => simp only [Connector.enter_eq, Context.withQueues, Except.toOption, Option.bind_some]

theorem filterMap_queue?_cons (d : Config.Pipeline) (sizing : Config.Sizing) (part : Part)
    (rest : List Part) :
    (part :: rest).filterMap (d.queue? sizing) =
      (d.queue? sizing part).toList ++ rest.filterMap (d.queue? sizing) := by
  rw [List.filterMap_cons]
  cases d.queue? sizing part <;> rfl

/-- All that building does to what is around are the queues. -/
theorem context_buildParts (id : String) (d : Config.Pipeline) (ctx : Context) :
    (buildParts id d ctx).2 = ctx.withQueues (d.queues ctx.sizing) := by
  have hchain := fault?_buildChain id d ctx.sizing
  rw [buildParts]
  cases hbuild : buildChain id d ctx.sizing with
  | error e =>
    rw [hbuild] at hchain
    rw [queues_of_chain_eq_some hchain.symm]
    rfl
  | ok chain =>
    rw [hbuild] at hchain
    rw [queues_of_chain_eq_none hchain.symm, buildConnector_eq]
    cases hin : Connector.build d.inbound .inbound ctx.sizing with
    | error e =>
      rw [List.takeWhile_cons_of_neg (by simp [problem?, hin, fault?])]
      rfl
    | ok inbound =>
      have hinbound : (d.problem? ctx.sizing .inbound).isNone = true := by
        simp [problem?, hin, fault?]
      have hqueue : d.queue? ctx.sizing .inbound = inbound.queue? := by
        rw [queue?, hin]
        rfl
      have hsizing : (ctx.withQueues inbound.queue?.toList).sizing = ctx.sizing := rfl
      rw [List.takeWhile_cons, if_pos hinbound, filterMap_queue?_cons, hqueue]
      dsimp only [Except.toOption, Option.bind_some]
      rw [buildConnector_eq, hsizing]
      cases hout : Connector.build d.outbound .outbound ctx.sizing with
      | error e =>
        rw [List.takeWhile_cons_of_neg (by simp [problem?, hout, fault?]), List.filterMap_nil,
          List.append_nil]
        rfl
      | ok outbound =>
        have houtbound : (d.problem? ctx.sizing .outbound).isNone = true := by
          simp [problem?, hout, fault?]
        rw [List.takeWhile_cons, if_pos houtbound, List.takeWhile_nil, filterMap_queue?_cons,
          List.filterMap_nil, List.append_nil, ← Context.withQueues_append, queue?, hout]

end Pipeline

namespace Registry

/-- A definition that is added malformed has an error, and what is left behind are the queues that
were made before it. -/
theorem context_add_of_malformed {r : Registry} {id : String} {d : Config.Pipeline}
    (h : (r.add id d).1 = .ok .malformed) :
    (∃ e, d.parts.findSome? (d.problem? r.context.sizing) = some e) ∧
      (r.add id d).2.context = r.context.withQueues (d.queues r.context.sizing) := by
  have hstate := Pipeline.state_build id d r.context
  rw [Pipeline.fault?_buildParts] at hstate
  have hcontext : (Pipeline.build id d r.context).2 = (Pipeline.buildParts id d r.context).2 := by
    rw [Pipeline.build]
    rcases Pipeline.buildParts id d r.context with ⟨_ | _, _⟩ <;> rfl
  rw [Pipeline.context_buildParts] at hcontext
  unfold add at h ⊢
  split at h
  · cases h
  · rename_i hnew
    rw [if_neg hnew]
    refine ⟨?_, hcontext⟩
    cases hproblem : d.parts.findSome? (d.problem? r.context.sizing) with
    | some e => exact ⟨e, rfl⟩
    | none =>
      rw [hproblem] at hstate
      cases hstate.symm.trans (Except.ok.inj h)

/-- What a check leaves behind are the queues of the connectors that come before the first error.
They have no subscribers, and the queues that were there keep theirs. Adding a definition that is
wrong leaves the same queues behind, at most that of the inbound connector. -/
theorem validate_leaves (r : Registry) (d : Config.Pipeline) :
    (r.validate d).2 = { r with context := r.context.withQueues (d.queues r.context.sizing) } ∧
    (∀ name, (r.validate d).2.context.around.directory.queue name =
      r.context.around.directory.queue name) ∧
    (∀ name, name ∈ (r.validate d).2.context.around.directory.names ↔
      name ∈ r.context.around.directory.names ∨ name ∈ d.queues r.context.sizing) ∧
    ∀ id, (r.add id d).1 = .ok .malformed →
      (r.add id d).2.context = (r.validate d).2.context ∧
      ∀ name ∈ d.queues r.context.sizing, d.queue? r.context.sizing .inbound = some name := by
  have hcontext : (r.validate d).2 =
      { r with context := r.context.withQueues (d.queues r.context.sizing) } := by
    rw [validate, Pipeline.validate_eq "" d r.context, Pipeline.context_buildParts]
  refine ⟨hcontext, fun name ↦ ?_, fun name ↦ ?_, fun id hadd ↦ ?_⟩
  · rw [hcontext]
    exact Directory.queue_createAll r.context.around.directory _ name
  · rw [hcontext, Dictionary.mem_names, Dictionary.mem_names]
    exact Directory.contains_createAll r.context.around.directory _ name
  · obtain ⟨⟨e, hproblem⟩, hadded⟩ := context_add_of_malformed hadd
    rw [hadded, hcontext]
    exact ⟨rfl, fun name ↦ Config.Pipeline.queue?_inbound_of_mem_queues hproblem⟩

/-- A definition that is wrong only in its last part. -/
def halfBuilt : Config.Pipeline where
  inbound := { type := "queue", params := [("name", .string "q")] }
  outbound := { type := "pigeon" }
  stages := []

/-- The queue of the inbound connector stays, though the definition is wrong. -/
theorem validate_leaves_halfBuilt :
    (({} : Registry).add "p" halfBuilt).1 = .ok .malformed ∧
    (({} : Registry).add "p" halfBuilt).2.context = (({} : Registry).validate halfBuilt).2.context ∧
    "q" ∈ (({} : Registry).validate halfBuilt).2.context.around.directory.names ∧
    (({} : Registry).validate halfBuilt).2.context.around.directory.queue "q" = [] := by
  have hadd : (({} : Registry).add "p" halfBuilt).1 = .ok .malformed := by rfl
  have h := validate_leaves {} halfBuilt
  exact ⟨hadd, (h.2.2.2 "p" hadd).1, (h.2.2.1 "q").2 (.inr (by decide)), h.2.1 "q"⟩

/-- A definition without errors, which receives from a queue. -/
def tapped : Config.Pipeline where
  inbound := { type := "queue", params := [("name", .string "q")] }
  outbound := { type := "null" }
  stages := []

/-- Who asks for the names of the queues can tell that a definition was checked, whether something
was wrong with it or not, and that one was added that is wrong. -/
theorem validate_makes_queue :
    ({} : Registry).context.around.directory.names = [] ∧
    (({} : Registry).validate tapped).1 = .ok () ∧
    (({} : Registry).validate tapped).2.context.around.directory.names = ["q"] ∧
    (({} : Registry).validate halfBuilt).1 = .error (.unknownConnectorType "pigeon") ∧
    (({} : Registry).validate halfBuilt).2.context.around.directory.names = ["q"] ∧
    (({} : Registry).add "p" halfBuilt).1 = .ok .malformed ∧
    (({} : Registry).add "p" halfBuilt).2.context.around.directory.names = ["q"] :=
  ⟨rfl, rfl, rfl, rfl, rfl, rfl, rfl⟩

end Registry

end Conduit
