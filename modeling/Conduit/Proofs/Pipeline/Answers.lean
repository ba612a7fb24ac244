import Conduit.Pipeline.Command
import Conduit.Proofs.Pipeline.States
import Conduit.Proofs.Pipeline.Turns
import Mathlib.Logic.Relation

/-!
# Pipelines in the hands of a host

A pipeline answers requests for itself: it never answers with the errors that a registry has for ids
(`Machine.Civil`). That and the order of its machine is kept by all that happens to a pipeline in
its place (`Pipeline.Lives.isSound`), among which are requests (`Pipeline.livesOn_request`), so it
holds of every pipeline that a host has made (`Pipeline.IsMade.isSound`). A pipeline that nobody has
asked to start stays without a run (`Machine.IsDormant`).
-/

namespace Conduit

open Stage

/-! ## Answers of pipelines -/

/-- The id that a registry does not know, or knows already. -/
def PipelineError.id? : PipelineError → Option String
  | .notFound id | .duplicateId id => some id
  | _ => none

/-- An answer in which no id is at fault. -/
def IsCivil {α : Type} (answer : Except PipelineError α) : Prop :=
  ∀ e, answer = .error e → e.id? = none

theorem isCivil_ok {α : Type} (a : α) : IsCivil (.ok a) := nofun

theorem isCivil_error {α : Type} {e : PipelineError} (h : e.id? = none) :
    IsCivil (.error e : Except PipelineError α) := fun _ he ↦ Except.error.inj he ▸ h

namespace Machine

variable {σ : Type} [Behaviour σ] {m m' : Machine σ}

/-- The answers that the machine has given are those of a pipeline. -/
def Civil (m : Machine σ) : Prop := ∀ answer ∈ m.replies, IsCivil answer

omit [Behaviour σ]

theorem Civil.of_replies (h : m.Civil) (hr : m'.replies = m.replies) : m'.Civil := fun answer ha ↦
  h answer (hr ▸ ha)

theorem Civil.reply (h : m.Civil) {answer : Except PipelineError Lifecycle} (ha : IsCivil answer) :
    (m.reply answer).Civil := fun answer' h' ↦ by
  rcases List.mem_append.1 h' with h' | h'
  · exact h answer' h'
  · exact List.mem_singleton.1 h' ▸ ha

theorem Civil.afterwards (h : m.Civil) (reason : Reason) : (m.afterwards reason).Civil := by
  cases reason with
  | failure => exact h
  | request r =>
    cases r with
    | start => exact h
    | terminate => exact h.reply (m := m) (isCivil_ok Lifecycle.terminated)
    | stop =>
      unfold Machine.afterwards
      dsimp only
      split <;> exact (h.of_replies rfl).reply (isCivil_ok _)
    | restart =>
      unfold Machine.afterwards
      dsimp only
      split <;> exact h

theorem Civil.tearDown (h : m.Civil) (reason : Reason) : (m.tearDown reason).Civil := by
  unfold Machine.tearDown
  split
  · exact h
  · exact h.afterwards reason

theorem Civil.take (h : m.Civil) (r : Request) : (m.take r).Civil := by
  unfold Machine.take
  split
  · exact h.reply (isCivil_ok _)
  · exact h.reply (isCivil_error rfl)
  · exact h.reply (isCivil_error rfl)
  · exact h.tearDown _
  · exact h.tearDown _
  · exact h.reply (isCivil_ok _)
  · exact h.tearDown _
  · exact h.tearDown _
  · exact h.tearDown _
  · exact h.tearDown _

theorem Civil.of_controls [Behaviour σ] (h : m.Civil) {deed : Option (Deed σ)}
    (hd : m.Controls deed m') : m'.Civil := by
  cases hd with
  | @accept request rest =>
    have h' : ({ m with requests := rest } : Machine σ).Civil := h
    exact h'.take request
  | notice =>
    have h' : ({ m with failure := false } : Machine σ).Civil := h
    exact h'.tearDown .failure
  | ignore => exact h
  | giveUp text => exact (h.of_replies rfl).reply (isCivil_error rfl)
  | begin => exact (h.of_replies rfl).reply (isCivil_ok Lifecycle.running)
  | tear _ _ ht => exact (h.of_replies (replies_of_tears ht) :)
  | @clear reason r =>
    have h' : (m.clear r).Civil := h
    exact h'.afterwards reason

/-- Whatever the machine does, it answers as a pipeline does. -/
theorem Civil.of_does [Behaviour σ] (h : m.Civil) {deed : Option (Deed σ)} (hd : m.Does deed m') :
    m'.Civil := by
  cases hd with
  | controller hd => exact h.of_controls hd
  | _ => exact h

/-! ## Machines that nobody has asked -/

/-- No run is live, and there is no request that could begin one. -/
structure IsDormant (m : Machine σ) : Prop where
  resting : m.run = none
  unasked : m.requests = []
  control : m.control = .idle ∨ m.control = .ended

theorem IsDormant.of_does [Behaviour σ] (h : m.IsDormant) {deed : Option (Deed σ)}
    (hd : m.Does deed m') : m'.IsDormant := by
  have hbusy {control : Control} (hc : m.control = control) (hidle : control ≠ .idle)
      (hended : control ≠ .ended) : False :=
    h.control.elim (fun hi ↦ hidle (hc.symm.trans hi)) fun he ↦ hended (hc.symm.trans he)
  have hrun {r : Run} (hr : m.run = some r) : False := by cases h.resting.symm.trans hr
  cases hd with
  | receiver hr => exact (hrun hr).elim
  | sender hr => exact (hrun hr).elim
  | processor hr => exact (hrun hr).elim
  | alarms hr => exact (hrun hr).elim
  | controller hd =>
    cases hd with
    | accept _ hq => cases h.unasked.symm.trans hq
    | notice _ _ hl =>
      rw [isLive, h.resting] at hl
      cases hl
    | ignore => exact ⟨h.resting, h.unasked, h.control⟩
    | giveUp _ hc => exact (hbusy hc (fun h ↦ by cases h) fun h ↦ by cases h).elim
    | begin _ hc => exact (hbusy hc (fun h ↦ by cases h) fun h ↦ by cases h).elim
    | tear _ hr => exact (hrun hr).elim
    | clear _ hr => exact (hrun hr).elim

/-- A malformed machine has no run that could be out of order. -/
theorem orderly_malformed (reason : String) : (malformed reason : Machine σ).Orderly where
  resting _ := rfl
  torn _ _ hc := by cases hc
  lent _ hr := by cases hr

end Machine

/-! ## Pipelines -/

namespace Pipeline

variable {p p' : Pipeline}

/-- The pipeline after the host has noted that it is terminated. -/
def mark (p : Pipeline) : Pipeline :=
  { p with machine := { p.machine with board := { p.machine.board with state := .terminated } } }

/-- What happens to a pipeline in its place: it goes on, and the host asks and gets its answers. -/
inductive Lives : Pipeline → Pipeline → Prop
  | goes {p p' : Pipeline} (h : p.Goes p') : Lives p p'
  | post (p : Pipeline) (what : Request) : Lives p { p with machine := p.machine.post what }
  | collect (p : Pipeline) :
    Lives p { p with machine := { p.machine with replies := p.machine.replies.tail } }
  | mark (p : Pipeline) : Lives p p.mark

theorem Lives.id (h : p.Lives p') : p'.id = p.id := by
  cases h with
  | goes h => exact h.id
  | _ => rfl

/-- The machine is in order, and answers as a pipeline does. -/
structure IsSound (p : Pipeline) : Prop where
  orderly : p.machine.Orderly
  civil : p.machine.Civil

theorem Goes.isSound (h : p.Goes p') (hp : p.IsSound) : p'.IsSound where
  orderly := h.works.induction (fun h hd ↦ h.of_does hd) hp.orderly
  civil := h.works.induction (fun h hd ↦ h.of_does hd) hp.civil

theorem Goes.isDormant (h : p.Goes p') (hp : p.machine.IsDormant) : p'.machine.IsDormant :=
  h.works.induction (fun h hd ↦ h.of_does hd) hp

theorem Lives.isSound (h : p.Lives p') (hp : p.IsSound) : p'.IsSound := by
  obtain ⟨ho, hc⟩ := hp
  cases h with
  | goes h => exact h.isSound ⟨ho, hc⟩
  | post what => exact ⟨(p.machine.leads_post what).orderly ho, hc⟩
  | collect => exact ⟨p.machine.leads_collect.orderly ho, fun a ha ↦ hc a (List.mem_of_mem_tail ha)⟩
  | mark =>
    refine ⟨⟨ho.resting, fun reason phase hphase ↦ ?_, ho.lent⟩, hc⟩
    obtain ⟨r, hr, ht⟩ := ho.torn reason phase hphase
    exact ⟨r, hr, ht.of_active rfl⟩

/-! ## Requests -/

/-- One thing happens to a pipeline in its place after the other. -/
abbrev LivesOn : Pipeline → Pipeline → Prop := Relation.ReflTransGen Lives

theorem LivesOn.id (h : p.LivesOn p') : p'.id = p.id := by
  induction h with
  | refl => rfl
  | tail _ h ih => exact h.id.trans ih

theorem LivesOn.isSound (h : p.LivesOn p') (hp : p.IsSound) : p'.IsSound := by
  induction h with
  | refl => exact hp
  | tail _ h ih => exact h.isSound ih

/-- An answer to a request is that of a pipeline, and until then the pipeline lives on. -/
theorem livesOn_answer (fuel : Nat) (p : Pipeline) (ctx : Context) :
    p.LivesOn (answer fuel p ctx).2.1 ∧ (p.machine.Civil → IsCivil (answer fuel p ctx).1) := by
  obtain ⟨p', ctx', hg, ⟨reply, rest, hr, he⟩ | he⟩ := answer_cases fuel p ctx
  · rw [he]
    have hcollect := Lives.collect p'
    rw [hr] at hcollect
    refine ⟨.tail (.single (.goes hg)) hcollect, fun hc ↦ ?_⟩
    exact hg.works.induction (fun h hd ↦ h.of_does hd) hc reply (hr ▸ List.mem_cons_self)
  · rw [he]
    exact ⟨.single (.goes hg), fun _ ↦ isCivil_error rfl⟩

theorem livesOn_request (what : Request) (p : Pipeline) (ctx : Context) :
    p.LivesOn (p.request what ctx).2.1 := by
  unfold request
  split
  · exact .refl
  · exact .head (.post p what) (livesOn_answer _ _ _).1

theorem livesOn_terminate (p : Pipeline) (ctx : Context) : p.LivesOn (p.terminate ctx).1 :=
  .tail (livesOn_request .terminate p ctx) (.mark _)

/-! ## New pipelines -/

theorem isSound_ofParts (sizing : Config.Sizing) (chain : Chain Builtin)
    (inbound outbound : Connector) (id : String) :
    (ofParts sizing chain inbound outbound id).IsSound :=
  ⟨Machine.orderly_ready _ _ _ _, fun _ ha ↦ absurd ha List.not_mem_nil⟩

theorem isSound_malformed (reason id : String) : (malformed reason id).IsSound :=
  ⟨Machine.orderly_malformed reason, fun _ ha ↦ absurd ha List.not_mem_nil⟩

/-- Whatever a host has done with a pipeline of its own, it is sound. -/
theorem IsMade.isSound (h : p.IsMade) : p.IsSound := by
  induction h with
  | ofParts => exact isSound_ofParts _ _ _ _ _
  | malformed => exact isSound_malformed _ _
  | define _ _ ih => exact ⟨ih.orderly, ih.civil⟩
  | request _ what context ih => exact (livesOn_request what _ context).isSound ih
  | terminate _ context ih => exact (livesOn_terminate _ context).isSound ih
  | turn _ ht ih => exact (goes_turn ht).isSound ih

/-- What a definition gives: a pipeline that has not been asked for anything. -/
structure IsBuilt (id : String) (d : Config.Pipeline) (p : Pipeline) : Prop where
  id : p.id = id
  definition : p.definition = some d
  made : p.IsMade
  dormant : p.machine.IsDormant

theorem isBuilt_build (id : String) (d : Config.Pipeline) (ctx : Context) :
    (build id d ctx).1.IsBuilt id d := by
  unfold build
  split
  · exact ⟨rfl, rfl, .define (.ofParts _ _ _ _ id) d, rfl, rfl, .inl rfl⟩
  · exact ⟨rfl, rfl, .define (.malformed _ id) d, rfl, rfl, .inr rfl⟩

end Pipeline

end Conduit
