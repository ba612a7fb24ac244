import Conduit.Proofs.Chain.Labels
import Conduit.Proofs.Error
import Conduit.Proofs.Registry.Commands
import Mathlib.Data.List.Basic

/-!
# Definitions are checked as they are added

What a registry says about a definition that it checks is what becomes of the definition when it is
added (`Registry.validate_iff_add`). An error is that of the first part which has one
(`Pipeline.fault?_validate`), in the order of `Config.Pipeline.parts`.
-/

namespace Conduit

open Stage
open Registry (fault?)

/-! ## The parts of a definition -/

namespace Config.Pipeline

/-- A part of a definition that may be wrong: the type, the parameters or the label of a stage, or a
connector. -/
inductive Part
  | type (e : StageEntry)
  | params (index : Nat) (e : StageEntry)
  | label (index : Nat) (e : StageEntry)
  | inbound
  | outbound

/-- What a stage is, and then what it is told. -/
def stageParts (stages : List (StageEntry × Nat)) : List Part :=
  stages.flatMap fun s ↦ [.type s.1, .params s.2 s.1]

def labelParts (stages : List (StageEntry × Nat)) : List Part :=
  stages.map fun s ↦ .label s.2 s.1

/-- All parts in order: the stages one after the other, their labels, the connectors. -/
def parts (d : Pipeline) : List Part :=
  stageParts d.stages.zipIdx ++ labelParts d.stages.zipIdx ++ [.inbound, .outbound]

/-- The labels of the stages before a place. -/
def labelsBefore (d : Pipeline) (index : Nat) : List String :=
  RoutePlan.labelsOf ((d.stages.take index).map (·.routing))

/-- What is wrong with one part, whatever is wrong with others. -/
def problem? (d : Pipeline) (sizing : Sizing) : Part → Option PipelineError
  | .type e =>
    match Kind.ofName? e.type with
    | none => some (.unknownStageType e.type)
    | some _ => none
  | .params index e =>
    (Kind.ofName? e.type).bind fun kind ↦
      (fault? (Builtin.ofParams kind e.params)).map fun problem ↦
        .invalidStage index (kind.name ++ ": " ++ problem.message)
  | .label index e =>
    e.routing.label.bind fun label ↦
      if label = outTarget then some (RoutePlan.reserved index)
      else if label ∈ d.labelsBefore index then some (RoutePlan.duplicate index label)
      else none
  | .inbound => fault? (Connector.build d.inbound .inbound sizing)
  | .outbound => fault? (Connector.build d.outbound .outbound sizing)

end Config.Pipeline

/-! ## Errors one after the other -/

section

variable {α β : Type}

theorem fault?_bind (x : Except PipelineError α) (f : α → Except PipelineError β) :
    fault? (x >>= f) = match x with
      | .ok a => fault? (f a)
      | .error e => some e := by
  cases x <;> rfl

theorem fault?_map (x : Except PipelineError α) (f : α → β) : fault? (x.map f) = fault? x := by
  cases x <;> rfl

theorem fault?_eq_some_iff {x : Except PipelineError α} {e : PipelineError} :
    fault? x = some e ↔ x = .error e := by
  cases x <;> simp [Registry.fault?]

end

/-! ## Stages and labels -/

open Config.Pipeline

section

variable {d : Config.Pipeline} {sizing : Config.Sizing}

theorem Stage.fault?_build (index : Nat) (e : Config.StageEntry) :
    fault? (build index e) =
      (d.problem? sizing (.type e)).or (d.problem? sizing (.params index e)) := by
  rw [build, problem?, problem?]
  cases Kind.ofName? e.type with
  | none => rfl
  | some kind =>
    dsimp only [Option.bind_some, Option.none_or]
    cases Builtin.ofParams kind e.params <;> rfl

theorem findSome?_stageParts_cons {α : Type} (f : Part → Option α) (s : Config.StageEntry × Nat)
    (stages : List (Config.StageEntry × Nat)) :
    (stageParts (s :: stages)).findSome? f =
      ((f (.type s.1)).or (f (.params s.2 s.1))).or ((stageParts stages).findSome? f) := by
  rw [stageParts, List.flatMap_cons, List.findSome?_append, List.findSome?_cons,
    List.findSome?_cons]
  cases f (.type s.1) <;> cases f (.params s.2 s.1) <;> rfl

/-- Stages are built in turn, of each its type first. -/
theorem Stage.fault?_buildFrom (index : Nat) (entries : List Config.StageEntry) :
    fault? (buildFrom index entries) =
      (stageParts (entries.zipIdx index)).findSome? (d.problem? sizing) := by
  induction entries generalizing index with
  | nil => rfl
  | cons e rest ih =>
    rw [buildFrom, List.zipIdx_cons, findSome?_stageParts_cons, ← fault?_build, ← ih]
    cases build index e with
    | error => rfl
    | ok slot => cases buildFrom (index + 1) rest <;> rfl

theorem Stage.routings_of_buildFrom {index : Nat} {entries : List Config.StageEntry}
    {slots : List (Slot Builtin)} (h : buildFrom index entries = .ok slots) :
    slots.map (·.routing) = entries.map (·.routing) := by
  induction entries generalizing index slots with
  | nil =>
    cases h
    rfl
  | cons e rest ih =>
    obtain ⟨slot, hslot, h⟩ := bind_eq_ok h
    obtain ⟨others, hothers, h⟩ := bind_eq_ok h
    cases h
    have hrouting : slot.routing = e.routing := by
      rw [build] at hslot
      split at hslot
      · cases hslot
      · split at hslot <;> cases hslot
        rfl
    rw [List.map_cons, List.map_cons, hrouting, ih hothers]

theorem RoutePlan.mem_labelsOf_append {before : List Config.StageEntry} {e : Config.StageEntry}
    {label : String} :
    label ∈ labelsOf ((before ++ [e]).map (·.routing)) ↔
      label ∈ labelsOf (before.map (·.routing)) ∨ e.routing.label = some label := by
  rw [labelsOf, List.map_append, List.filterMap_append, List.mem_append]
  exact or_congr_right (by simp)

/-- Labels are looked at in turn; what was seen are the labels before. -/
theorem RoutePlan.fault?_labels {before rest : List Config.StageEntry} {seen : List (String × Nat)}
    (hd : d.stages = before ++ rest)
    (hseen : ∀ label, (seen.lookup label).isSome ↔ label ∈ labelsOf (before.map (·.routing))) :
    fault? (labels before.length seen (rest.map (·.routing))) =
      (labelParts (rest.zipIdx before.length)).findSome? (d.problem? sizing) := by
  -- The first of the rest joins the stages before it, so `seen` grows in step with them.
  induction rest generalizing before seen with
  | nil => rfl
  | cons e rest ih =>
    have hbefore : d.labelsBefore before.length = labelsOf (before.map (·.routing)) := by
      rw [labelsBefore, hd, List.take_left]
    have hlength : before.length + 1 = (before ++ [e]).length := by simp
    have hd' : d.stages = (before ++ [e]) ++ rest := by rw [hd, List.append_assoc]; rfl
    rw [List.map_cons, labels, List.zipIdx_cons, labelParts, List.map_cons, List.findSome?_cons,
      problem?, hbefore, hlength]
    cases hlabel : e.routing.label with
    | none =>
      refine ih hd' fun label ↦ ?_
      rw [hseen, mem_labelsOf_append, hlabel, or_iff_left nofun]
    | some label =>
      dsimp only [Option.bind_some]
      simp only [hseen label]
      split
      · rfl
      · split
        · rfl
        · refine ih hd' fun other ↦ ?_
          rw [lookup_cons_eq_ite, mem_labelsOf_append, hlabel, ← hseen, Option.some.injEq]
          split
          · rename_i ho
            exact iff_of_true rfl (.inr ho.symm)
          · rename_i ho
            rw [or_iff_left (Ne.symm ho)]

theorem Chain.fault?_ofSlots (id : String) (slots : List (Slot Builtin)) (maxHops : Nat) :
    fault? (Chain.ofSlots id slots maxHops) =
      fault? (RoutePlan.labels 0 [] (slots.map (·.routing))) := by
  rw [Chain.ofSlots, RoutePlan.compile]
  cases RoutePlan.labels 0 [] (slots.map (·.routing)) <;> rfl

end

/-! ## Definitions -/

namespace Pipeline

variable (id : String) (d : Config.Pipeline) (sizing : Config.Sizing) (ctx : Context)

/-- The chain fails at the first stage that is wrong or else at the first label. -/
theorem fault?_buildChain :
    fault? (buildChain id d sizing) =
      (stageParts d.stages.zipIdx ++ labelParts d.stages.zipIdx).findSome? (d.problem? sizing) := by
  have hlabels : fault? (RoutePlan.labels 0 [] (d.stages.map (·.routing))) =
      (labelParts d.stages.zipIdx).findSome? (d.problem? sizing) :=
    RoutePlan.fault?_labels (List.nil_append d.stages).symm fun _ ↦
      iff_of_false nofun List.not_mem_nil
  rw [List.findSome?_append, ← Stage.fault?_buildFrom, buildChain, Stage.buildAll, fault?_bind]
  cases hslots : Stage.buildFrom 0 d.stages with
  | error => rfl
  | ok slots =>
    dsimp only
    rw [Chain.fault?_ofSlots, Stage.routings_of_buildFrom hslots]
    exact hlabels

/-- Entering a queue does not change what can be built. -/
theorem buildConnector_sizing (e : Config.ConnectorEntry) (side : Direction) :
    (buildConnector e side ctx).2.sizing = ctx.sizing := by
  unfold buildConnector
  split <;> rfl

theorem fault?_buildConnector (e : Config.ConnectorEntry) (side : Direction) :
    fault? (buildConnector e side ctx).1 = fault? (Connector.build e side ctx.sizing) := by
  unfold buildConnector
  split <;> rename_i h <;> rw [h]

theorem fault?_buildParts :
    fault? (buildParts id d ctx).1 = d.parts.findSome? (d.problem? ctx.sizing) := by
  rw [Config.Pipeline.parts, List.findSome?_append, ← fault?_buildChain id, buildParts]
  cases buildChain id d ctx.sizing with
  | error => rfl
  | ok chain =>
    have hinbound := fault?_buildConnector ctx d.inbound .inbound
    have hsizing := buildConnector_sizing ctx d.inbound .inbound
    dsimp only
    generalize buildConnector d.inbound .inbound ctx = built at hinbound hsizing ⊢
    obtain ⟨inbound, ctx'⟩ := built
    dsimp only at hinbound hsizing ⊢
    rw [List.findSome?_cons, problem?, ← hinbound]
    cases inbound with
    | error => rfl
    | ok inbound =>
      have houtbound := fault?_buildConnector ctx' d.outbound .outbound
      rw [hsizing] at houtbound
      rw [List.findSome?_cons, problem?, ← houtbound]
      dsimp only
      rcases buildConnector d.outbound .outbound ctx' with ⟨_ | outbound, ctx''⟩ <;> rfl

/-- Checking goes the way of building: with the same answer, and with the same queues made. -/
theorem validate_eq :
    validate d ctx = ((buildParts id d ctx).1.map fun _ ↦ (), (buildParts id d ctx).2) := by
  have hchain : fault? (buildChain "validate" d ctx.sizing) = fault? (buildChain id d ctx.sizing) :=
    (fault?_buildChain _ d ctx.sizing).trans (fault?_buildChain id d ctx.sizing).symm
  rw [validate, buildParts]
  -- The two chains have different ids, so they can be compared by their errors only.
  generalize buildChain "validate" d ctx.sizing = checked at hchain ⊢
  generalize buildChain id d ctx.sizing = built at hchain ⊢
  cases checked <;> cases built <;> cases hchain
  · rfl
  · dsimp only
    rcases buildConnector d.inbound .inbound ctx with ⟨_ | inbound, ctx'⟩
    · rfl
    · dsimp only
      rcases buildConnector d.outbound .outbound ctx' with ⟨_ | outbound, ctx''⟩ <;> rfl

/-- An error is that of the first part that has one. -/
theorem fault?_validate :
    fault? (validate d ctx).1 = d.parts.findSome? (d.problem? ctx.sizing) := by
  rw [validate_eq "" d ctx, fault?_map, fault?_buildParts]

/-- A definition without errors gives a pipeline that may be started; an error stays with the
pipeline. -/
theorem state_build :
    match fault? (buildParts id d ctx).1 with
    | none => (build id d ctx).1.state = .stopped
    | some e => (build id d ctx).1.state = .malformed ∧
        (build id d ctx).1.machine.board.lastError = some e.message := by
  rw [build]
  rcases buildParts id d ctx with ⟨_ | ⟨chain, inbound, outbound⟩, ctx'⟩
  · exact ⟨rfl, rfl⟩
  · rfl

end Pipeline

/-! ## Errors of parts -/

/-- Only errors of a configuration come of it. -/
def OnlyConfig {α : Type} (x : Except PipelineError α) : Prop :=
  ∀ e, x = .error e → e.isConfig = true

section

variable {α β : Type}

theorem onlyConfig_ok (a : α) : OnlyConfig (.ok a) := fun _ h ↦ nomatch h

theorem onlyConfig_error {e : PipelineError} (he : e.isConfig = true) :
    OnlyConfig (.error e : Except PipelineError α) := fun _ h ↦ Except.error.inj h ▸ he

theorem OnlyConfig.bind {x : Except PipelineError α} {f : α → Except PipelineError β}
    (hx : OnlyConfig x) (hf : ∀ a, OnlyConfig (f a)) : OnlyConfig (x >>= f) := by
  cases x with
  | error e => exact onlyConfig_error (hx e rfl)
  | ok a => exact hf a

end

namespace Connector

open Config

theorem onlyConfig_readParams {α : Type} (e : ConnectorEntry)
    (shapes : List (String × Json.Shape Unit)) (build : Members → Except Json.Mismatch α) :
    OnlyConfig (readParams e shapes build) := by
  rw [readParams]
  generalize (do Json.checkFields shapes e.params; build e.params) = read
  cases read with
  | error => exact onlyConfig_error rfl
  | ok a => exact onlyConfig_ok a

theorem onlyConfig_buildQueue (e : ConnectorEntry) (side : Direction) (sizing : Sizing) :
    OnlyConfig (buildQueue e side sizing) := by
  refine (onlyConfig_readParams e _ _).bind fun (name, capacity) ↦ ?_
  by_cases hname : name = ""
  · simp only [if_pos hname]
    exact onlyConfig_error rfl
  · simp only [if_neg hname]
    exact onlyConfig_ok _

theorem onlyConfig_buildInterval (e : ConnectorEntry) : OnlyConfig (buildInterval e) := by
  refine (onlyConfig_readParams e _ _).bind fun (payload, period, topic) ↦ ?_
  by_cases hperiod : period = 0
  · simp only [if_pos hperiod]
    exact onlyConfig_error rfl
  · simp only [if_neg hperiod]
    exact onlyConfig_ok _

/-- No connector fails to be built but for its entry. -/
theorem onlyConfig_build (e : ConnectorEntry) (side : Direction) (sizing : Sizing) :
    OnlyConfig (build e side sizing) := by
  unfold build
  split
  · exact onlyConfig_buildQueue e _ sizing
  · exact onlyConfig_readParams e _ _
  · exact onlyConfig_readParams e _ _
  · exact (onlyConfig_readParams e _ _).bind fun _ ↦ onlyConfig_ok _
  · exact (onlyConfig_readParams e _ _).bind fun _ ↦ onlyConfig_ok _
  · exact onlyConfig_buildInterval e
  · exact onlyConfig_error rfl
  · exact onlyConfig_error rfl
  · exact onlyConfig_error rfl

end Connector

theorem Config.Pipeline.isConfig_of_problem? {d : Config.Pipeline} {sizing : Config.Sizing}
    {part : Part} {e : PipelineError} (h : d.problem? sizing part = some e) :
    e.isConfig = true := by
  cases part with
  | type entry =>
    rw [problem?] at h
    split at h <;> cases h
    rfl
  | params index entry =>
    obtain ⟨kind, -, h⟩ := Option.bind_eq_some_iff.1 h
    obtain ⟨problem, -, rfl⟩ := Option.map_eq_some_iff.1 h
    rfl
  | label index entry =>
    obtain ⟨label, -, h⟩ := Option.bind_eq_some_iff.1 h
    split at h
    · cases h
      rfl
    · split at h <;> cases h
      rfl
  | inbound => exact Connector.onlyConfig_build _ _ _ e (fault?_eq_some_iff.1 h)
  | outbound => exact Connector.onlyConfig_build _ _ _ e (fault?_eq_some_iff.1 h)

/-! ## Checking and adding -/

namespace Registry

/-- To add the definition puts the pipeline under the id and answers with its state. -/
structure Adds (r : Registry) (id : String) (d : Config.Pipeline) (p : Pipeline) : Prop where
  answer : (r.add id d).1 = .ok p.state
  found : (r.add id d).2.find id = .ok p

variable {r : Registry} {id : String} {d : Config.Pipeline}

theorem adds_build (hid : r.contains id = false) (d : Config.Pipeline) :
    r.Adds id d (Pipeline.build id d r.context).1 := by
  have hadd : r.add id d = (.ok (Pipeline.build id d r.context).1.state,
      { r with context := (Pipeline.build id d r.context).2 }.insert id
        (Pipeline.build id d r.context).1) := if_neg (Bool.eq_false_iff.1 hid)
  constructor
  · rw [hadd]
  · rw [hadd]
    exact find_eq_ok_iff.2 (get?_put _ _ _)

theorem exists_adds_iff (hid : r.contains id = false) {P : Pipeline → Prop} :
    (∃ p, r.Adds id d p ∧ P p) ↔ P (Pipeline.build id d r.context).1 := by
  have hbuild := adds_build hid d
  refine ⟨fun ⟨p, hp, h⟩ ↦ ?_, fun h ↦ ⟨_, hbuild, h⟩⟩
  exact Except.ok.inj (hp.found.symm.trans hbuild.found) ▸ h

/-- Checking a definition says what becomes of it under an id that is free: without an error it is
added stopped, and with an error it is added malformed, with the text of just that error. The error
is the one of the first part that has one. -/
theorem validate_iff_add (r : Registry) (id : String) (d : Config.Pipeline)
    (hid : r.contains id = false) :
    ((r.validate d).1 = .ok () ↔ ∃ p, r.Adds id d p ∧ p.state = .stopped) ∧
    (∀ e, (r.validate d).1 = .error e ↔ ∃ p, r.Adds id d p ∧ p.state = .malformed ∧
      p.machine.board.lastError = some e.message) ∧
    ∀ e, (r.validate d).1 = .error e ↔ ∃ before part after, d.parts = before ++ part :: after ∧
      d.problem? r.context.sizing part = some e ∧
      ∀ other ∈ before, d.problem? r.context.sizing other = none := by
  have hvalidate : fault? (r.validate d).1 = d.parts.findSome? (d.problem? r.context.sizing) :=
    Pipeline.fault?_validate d r.context
  have hstate := Pipeline.state_build id d r.context
  rw [Pipeline.fault?_buildParts, ← hvalidate] at hstate
  refine ⟨?_, fun e ↦ ?_, fun e ↦ ?_⟩
  · rw [exists_adds_iff hid]
    cases hanswer : (r.validate d).1 with
    | ok =>
      rw [hanswer] at hstate
      exact iff_of_true rfl hstate
    | error e =>
      rw [hanswer] at hstate
      refine iff_of_false nofun fun h ↦ ?_
      cases hstate.1.symm.trans h
  · rw [exists_adds_iff hid]
    cases hanswer : (r.validate d).1 with
    | ok =>
      rw [hanswer] at hstate
      refine iff_of_false nofun fun h ↦ ?_
      cases hstate.symm.trans h.1
    | error e' =>
      rw [hanswer] at hstate hvalidate
      obtain ⟨part, -, hpart⟩ := List.exists_of_findSome?_eq_some hvalidate.symm
      constructor
      · rintro ⟨⟩
        exact hstate
      · intro h
        -- The text is all that the board keeps of the error, but it tells which one it was.
        have hmessage : e.message = e'.message := Option.some.inj (h.2.symm.trans hstate.2)
        rw [PipelineError.eq_of_message_eq (Config.Pipeline.isConfig_of_problem? hpart) hmessage]
  · rw [← fault?_eq_some_iff, hvalidate, List.findSome?_eq_some_iff]

/-- Two stages with the same label, before a connector of a type that there is not. -/
def twiceLabelled : Config.Pipeline where
  inbound := { type := "null" }
  outbound := { type := "pigeon" }
  stages := [{ type := "noop", routing := { name := some "a" } },
    { type := "noop", routing := { name := some "a" } }]

theorem validate_iff_add_twiceLabelled :
    ({} : Registry).contains "p" = false ∧
    (({} : Registry).validate twiceLabelled).1 =
      .error (.invalidStage 1 "duplicate stage name 'a'") ∧
    ∃ p, ({} : Registry).Adds "p" twiceLabelled p ∧ p.state = .malformed ∧
      p.machine.board.lastError = some "Stage 1 is invalid: duplicate stage name 'a'" := by
  have hvalidate : (({} : Registry).validate twiceLabelled).1 =
      .error (.invalidStage 1 "duplicate stage name 'a'") := by rfl
  exact ⟨rfl, hvalidate, ((validate_iff_add {} "p" twiceLabelled rfl).2.1 _).1 hvalidate⟩

end Registry

end Conduit
