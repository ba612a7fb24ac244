import Conduit.Proofs.Chain.Awaiting
import Conduit.Proofs.Chain.Plain
import Conduit.Proofs.Chain.Release
import Conduit.Proofs.Chain.Termination
import Conduit.Proofs.Pipeline.Order
import Conduit.Proofs.Stage.Waiting

/-!
# Held messages in the balance of a chain

In a chain without stages that make pieces a call is one walk, and a walk has one outcome. A message
that is held has none yet: it comes back in a later call, or another message is held in its place,
and then it is gone and no output tells of it. So the messages that a chain was given are those that
its outputs tell of, those that it holds, and those that were replaced
(`Chain.messages_account`).
-/

namespace Conduit

open Stage

namespace Chain

/-! ## What is held -/

section Holding

variable (c : Chain Builtin)

/-- The message that the stage at a place holds. -/
def heldAt (i : Nat) : Option Message := c.slots[i]?.bind (·.stage.held)

/-- How many messages the stages hold. -/
def holding : Nat := c.slots.countP (·.stage.held.isSome)

/-- How many of the visits have put another message in the place of one that the chain held. -/
def replacements (visits : List Visit) : Nat :=
  visits.countP fun v ↦ v.next = .done .held && (c.heldAt v.stage).isSome

end Holding

variable {c : Chain Builtin} {i : Nat} {slot : Slot Builtin}

theorem heldAt_of_slot (hs : c.slots[i]? = some slot) : c.heldAt i = slot.stage.held := by
  rw [heldAt, hs, Option.bind_some]

theorem heldAt_setStage (hs : c.slots[i]? = some slot) {s : Builtin}
    (h : s.held = slot.stage.held) (j : Nat) : (c.setStage i s).heldAt j = c.heldAt j := by
  by_cases hj : i = j
  · subst hj
    rw [heldAt_of_slot (slot_setStage hs s), heldAt_of_slot hs, h]
  · simp [heldAt, setStage, hj]

/-- When a stage changes, the number of held messages changes with it. -/
theorem holding_setStage (hs : c.slots[i]? = some slot) (s : Builtin) :
    (c.setStage i s).holding + slot.stage.held.isSome.toNat =
      c.holding + s.held.isSome.toNat := by
  obtain ⟨hi, hslot⟩ := List.getElem?_eq_some_iff.1 hs
  obtain ⟨before, slot', after, hslots, hlength, hmodify⟩ :=
    List.exists_of_modify (fun slot ↦ { slot with stage := s }) hi
  obtain rfl : slot' = slot := by
    simpa [hslots, ← hlength] using hs
  have hafter : (c.setStage i s).slots = before ++ { slot' with stage := s } :: after := hmodify
  simp only [holding, hafter, hslots, List.countP_append, List.countP_cons]
  cases slot'.stage.held.isSome <;> cases s.held.isSome <;> simp <;> omega

/-! ## Walks -/

/-- A visit that does not end with a held message changes nothing that is held. -/
theorem heldAt_visit (moment : Moment) (hs : c.slots[i]? = some slot) (w : Wrapper)
    (hn : (visit moment c i slot w).visit.next ≠ .done .held) :
    (visit moment c i slot w).chain.heldAt = c.heldAt ∧
      (visit moment c i slot w).chain.holding = c.holding := by
  unfold visit at hn ⊢
  dsimp only at hn ⊢
  split at hn
  · exact ⟨rfl, rfl⟩
  · have hheld : (Behaviour.process moment slot.stage
        (w.mergeMetadata slot.routing.metadata)).state.held = slot.stage.held :=
      Builtin.held_of_ne_hold fun w' ho ↦ hn (by simp only [ho]; rfl)
    refine ⟨funext fun j ↦ heldAt_setStage hs hheld j, ?_⟩
    have := holding_setStage hs (Behaviour.process moment slot.stage
      (w.mergeMetadata slot.routing.metadata)).state
    rw [hheld] at this
    exact Nat.add_right_cancel this

/-- A visit that ends with a held message adds one, unless it replaces one. -/
theorem holding_visit_of_held {moment : Moment} (hs : c.slots[i]? = some slot) {w : Wrapper}
    (hn : (visit moment c i slot w).visit.next = .done .held) :
    c.holding + 1 = (visit moment c i slot w).chain.holding +
      c.replacements [(visit moment c i slot w).visit] := by
  have hreplaced : c.replacements [(visit moment c i slot w).visit] =
      slot.stage.held.isSome.toNat := by
    rw [replacements, List.countP_singleton, stage_visit, hn, heldAt_of_slot hs]
    cases slot.stage.held <;> rfl
  rw [hreplaced]
  unfold visit at hn ⊢
  dsimp only at hn ⊢
  split at hn
  · cases hn
  · obtain ⟨w', ho⟩ := hold_of_follow_held hn
    have := holding_setStage hs (Behaviour.process moment slot.stage
      (w.mergeMetadata slot.routing.metadata)).state
    rw [(Builtin.held_of_hold ho).1] at this
    exact this.symm

/-- A walk adds the message that it ends with to those that are held, if any, and replaces one of
them or none. -/
theorem holding_walkFrom (moment : Moment) (hops : Nat) (c : Chain Builtin) (i : Nat)
    (w : Wrapper) : c.holding + (Call.outputOf (walkFrom moment hops c i w).ending).held =
      (walkFrom moment hops c i w).chain.holding +
        c.replacements (walkFrom moment hops c i w).visits := by
  fun_induction walkFrom moment hops c i w with
  | case1 _ _ c _ w _ => cases w.accepted <;> rfl
  | case2 => rfl
  | case3 moment c i w slot hs hops s ending hn =>
    by_cases he : ending = .held
    · subst he
      exact holding_visit_of_held hs hn
    · have hne : s.visit.next ≠ .done .held := by
        rw [hn]
        exact fun h ↦ he (Next.done.inj h)
      obtain ⟨-, hholding⟩ := heldAt_visit moment hs w hne
      have hnone : c.replacements [s.visit] = 0 := by simp [replacements, hne]
      have hout : (Call.outputOf ending).held = 0 := by
        cases ending with
        | held => exact absurd rfl he
        | _ => rfl
      rw [hout, hnone]
      exact hholding.symm
  | case4 moment c i w slot hs hops s j w' hn rest ih =>
    -- nothing is held or let go on the way, so what the last visit replaces was there before
    obtain ⟨hheld, hholding⟩ := heldAt_visit moment hs w (by rw [hn]; exact fun h ↦ by cases h)
    have hrest : c.replacements rest.visits = s.chain.replacements rest.visits := by
      simp only [replacements, s, hheld]
    have hfirst : c.replacements (s.visit :: rest.visits) = c.replacements rest.visits := by
      simp [replacements, s, hn]
    rw [hfirst, hrest, ← hholding]
    exact ih

end Chain

/-! ## Calls -/

/-- How many messages the output tells the end of. -/
def Output.ended (o : Output) : Nat := o.delivered.length + o.dropped + o.errors.length

/-- How many calls have crashed, of one. -/
def Call.crashes {σ : Type} (c : Call σ) : Nat := if c.progress = .crashed then 1 else 0

/-- A walk that does not end in pieces has one end, or its message is held or lost in a crash. -/
theorem Ending.ended_outputOf {e : Ending} (h : Call.pendingOf e = []) :
    (({} : Output) ++ Call.outputOf e).ended + (Call.outputOf e).held +
      (if e = .crashed then 1 else 0) = 1 := by
  cases e with
  | generated g => cases h
  | _ => rfl

/-- The output tells the end of the message of a walk, or the message is lost in a crash, or it is
held, and then it may have replaced another one. -/
theorem Call.holding_send {clock : Clock} {c : Call Builtin} {i : Nat} {w : Wrapper}
    (hout : c.output = {}) (hvisits : c.visits = [])
    (hw : pendingOf (c.walk clock i w).ending = []) :
    1 + c.chain.holding = (c.send clock i w).output.ended + (c.send clock i w).chain.holding +
      c.chain.replacements (c.send clock i w).visits + (c.send clock i w).crashes := by
  have hone := Ending.ended_outputOf hw
  have hwalk := Chain.holding_walkFrom (c.moment clock) c.chain.hopLimit c.chain i w
  have houtput : (c.send clock i w).output = {} ++ outputOf (c.walk clock i w).ending := by
    rw [← hout]
    rfl
  have hvisits' : (c.send clock i w).visits = (c.walk clock i w).visits := by
    change c.visits ++ _ = _
    rw [hvisits, List.nil_append]
  have hcrashes : (c.send clock i w).crashes =
      if (c.walk clock i w).ending = .crashed then 1 else 0 := by
    change (if (if _ = Ending.crashed then Progress.crashed else _) = _ then 1 else 0) = _
    split <;> rfl
  rw [houtput, hvisits', hcrashes]
  change _ = _ + (c.walk clock i w).chain.holding + _ + _
  have hwalk : c.chain.holding + (outputOf (c.walk clock i w).ending).held =
    (c.walk clock i w).chain.holding + c.chain.replacements (c.walk clock i w).visits := hwalk
  omega

namespace Chain

/-- The chain at the beginning of the walk that answers an input: a stage has been told of its
alarm. -/
def told (c : Chain Builtin) : Input → Chain Builtin
  | .message .. => c
  | .alarm _ moment a =>
    match c.slots[a.stage]? with
    | none => c
    | some slot => c.setStage a.stage (Behaviour.expire moment.now slot.stage a.token).state

/-- The chain leaves messages whole: no stage makes pieces, and none are pending. -/
structure LeavesWhole (c : Chain Builtin) : Prop where
  stages : ∀ slot ∈ c.slots, slot.stage.kind.isGenerator = false
  pending : c.pending = []

variable {c : Chain Builtin}

theorem notGenerating_setStage {i : Nat} {slot : Slot Builtin} {s : Builtin}
    (h : ∀ slot ∈ c.slots, slot.stage.kind.isGenerator = false) (hs : c.slots[i]? = some slot)
    (hkind : s.kind = slot.stage.kind) :
    ∀ slot ∈ (c.setStage i s).slots, slot.stage.kind.isGenerator = false := by
  refine stages_setStage (P := fun s : Builtin ↦ s.kind.isGenerator = false) h i ?_
  rw [hkind]
  exact h slot (List.mem_of_getElem? hs)

theorem keeps_notGenerating :
    Keeps (fun c : Chain Builtin ↦ ∀ slot ∈ c.slots, slot.stage.kind.isGenerator = false)
      fun _ ↦ True where
  withPending _ _ h := h
  visit moment c i slot w hs h := by
    refine ⟨?_, trivial⟩
    rcases chain_visit moment c i slot w with hv | hv <;> rw [hv]
    · exact h
    · exact notGenerating_setStage h hs (Builtin.kind_process ..)

theorem pendingOf_walk (h : ∀ slot ∈ c.slots, slot.stage.kind.isGenerator = false)
    (moment : Moment) (i : Nat) (w : Wrapper) :
    Call.pendingOf (c.walk moment i w).ending = [] := by
  cases he : (c.walk moment i w).ending with
  | generated g =>
    obtain ⟨j, -, ⟨k, hk, hg⟩, -⟩ := exists_generates_of_walkFrom he
    obtain ⟨slot, hslot, rfl⟩ := List.mem_map.1 (List.mem_of_getElem? hk)
    exact absurd hg (by rw [h slot hslot]; exact Bool.false_ne_true)
  | _ => rfl

theorem LeavesWhole.told (h : c.LeavesWhole) (x : Input) : (c.told x).LeavesWhole := by
  cases x with
  | message => exact h
  | alarm patience moment a =>
    unfold Chain.told
    dsimp only
    split
    · exact h
    · rename_i slot hs
      exact ⟨notGenerating_setStage h.stages hs (Builtin.kind_expire ..), h.pending⟩

/-- The answer to an input is the walk of one message, which is new or has been let go, or nothing
happens. -/
theorem LeavesWhole.respond_cases (h : c.LeavesWhole) (x : Input) :
    (∃ fresh, c.respond x = { chain := c.told x, fresh } ∧
        x.message?.toList.length + c.holding = (c.told x).holding) ∨
      ∃ (call : Call Builtin) (clock : Clock) (i : Nat) (w : Wrapper),
        call.chain = c.told x ∧ call.output = {} ∧ call.visits = [] ∧
        c.respond x = call.send clock i w ∧
        x.message?.toList.length + c.holding = 1 + (c.told x).holding := by
  have htold := h.told x
  cases x with
  | message patience moment m =>
    have hopen : c.withPending [] = c := by rw [← h.pending, withPending_pending]
    exact .inr ⟨Call.opening moment c, moment.clock, 0, .ofMessage m, hopen, rfl, rfl,
      process_eq_send h.pending (pendingOf_walk h.stages (moment.next 0) 0 (.ofMessage m)) patience,
      rfl⟩
  | alarm patience moment a =>
    cases hs : c.slots[a.stage]? with
    | none =>
      have hsame : c.told (.alarm patience moment a) = c := by simp only [Chain.told, hs]
      rw [hsame]
      refine .inl ⟨moment.fresh, ?_, Nat.zero_add _⟩
      rw [respond, expire, hs]
    | some slot =>
      have hset : c.told (.alarm patience moment a) =
          c.setStage a.stage (Behaviour.expire moment.now slot.stage a.token).state := by
        simp only [Chain.told, hs]
      have hholding := holding_setStage hs (Behaviour.expire moment.now slot.stage a.token).state
      rw [hset] at htold ⊢
      rcases slot.stage.expire_cases moment.now a.token with ⟨hr, hheld⟩ | ⟨m, hm, hr, hheld⟩
      · refine .inl ⟨moment.fresh, ?_, ?_⟩
        · exact (expire_of_none hs hr).trans (Call.drain_of_pending_nil htold.pending)
        · rw [hheld] at hholding
          exact (Nat.zero_add _).trans (Nat.add_right_cancel hholding).symm
      · refine .inr ⟨{ chain := _, fresh := moment.fresh }, moment.clock,
          (c.route a.stage).onward a.stage, released slot m, rfl, rfl, rfl, ?_, ?_⟩
        · refine (expire_of_release hs hr).trans ?_
          exact Call.send_andThen_drain htold.pending (pendingOf_walk htold.stages _ _ _)
        · rw [hm, hheld] at hholding
          exact (Nat.zero_add _).trans (hholding.symm.trans (Nat.add_comm _ 1))

theorem LeavesWhole.respond (h : c.LeavesWhole) (x : Input) : (c.respond x).chain.LeavesWhole where
  stages := by
    cases x with
    | message patience moment m => exact (keeps_notGenerating.process patience moment m h.stages).1
    | alarm patience moment a =>
      have htold := (h.told (.alarm patience moment a)).stages
      refine (keeps_notGenerating.expire patience moment a.token (fun slot hs ↦ ?_)
        fun _ ↦ h.stages).1
      simpa only [Chain.told, hs] using htold
  pending := by
    have htold := h.told x
    rcases h.respond_cases x with
      ⟨fresh, hcall, -⟩ | ⟨call, clock, i, w, hchain, -, -, hcall, -⟩ <;> rw [hcall]
    · exact htold.pending
    · rw [← hchain] at htold
      exact Call.pending_send htold.pending (pendingOf_walk htold.stages _ i w)

/-- What a chain was given and what it holds is what an answer tells the end of and what the chain
holds afterwards, but for a message that was replaced or lost in a crash. -/
theorem LeavesWhole.holding_respond (h : c.LeavesWhole) (x : Input) :
    x.message?.toList.length + c.holding = (c.respond x).output.ended +
      (c.respond x).chain.holding + (c.told x).replacements (c.respond x).visits +
        (c.respond x).crashes := by
  have htold := h.told x
  rcases h.respond_cases x with ⟨fresh, hcall, hbalance⟩ |
    ⟨call, clock, i, w, hchain, hout, hvisits, hcall, hbalance⟩ <;> rw [hcall, hbalance]
  · simp [Output.ended, replacements, Call.crashes]
  · rw [← hchain] at htold ⊢
    exact Call.holding_send hout hvisits (pendingOf_walk htold.stages _ i w)

/-! ## All calls since a chain was built -/

/-- All outputs, input by input. -/
def outputs (c : Chain Builtin) (xs : List Input) : List Output :=
  c.gather (fun _ call ↦ [call.output]) xs

/-- How many calls have crashed. -/
def crashes (c : Chain Builtin) (xs : List Input) : Nat :=
  (c.gather (fun _ call ↦ [call.crashes]) xs).sum

/-- How many held messages were replaced before they were let go. -/
def replaced : Chain Builtin → List Input → Nat
  | _, [] => 0
  | c, x :: xs => (c.told x).replacements (c.respond x).visits + replaced (c.respond x).chain xs

theorem LeavesWhole.holding_upon (h : c.LeavesWhole) (xs : List Input) :
    (xs.filterMap Input.message?).length + c.holding =
      ((c.outputs xs).map Output.ended).sum + (c.upon xs).holding + c.replaced xs +
        c.crashes xs := by
  induction xs generalizing c with
  | nil => simp [outputs, gather, upon, replaced, crashes]
  | cons x xs ih =>
    have hx := h.holding_respond x
    have hxs := ih (h.respond x)
    have hmessages : ((x :: xs).filterMap Input.message?).length =
        x.message?.toList.length + (xs.filterMap Input.message?).length := by
      cases x <;> simp [List.filterMap_cons, Input.message?, Nat.add_comm]
    have hended : ((c.outputs (x :: xs)).map Output.ended).sum =
        (c.respond x).output.ended + (((c.respond x).chain.outputs xs).map Output.ended).sum := by
      simp [outputs, gather]
    have hcrashes : c.crashes (x :: xs) =
        (c.respond x).crashes + (c.respond x).chain.crashes xs := by
      simp [crashes, gather]
    have hreplaced : c.replaced (x :: xs) =
        (c.told x).replacements (c.respond x).visits + (c.respond x).chain.replaced xs := rfl
    have hupon : c.upon (x :: xs) = (c.respond x).chain.upon xs := rfl
    rw [hmessages, hended, hcrashes, hreplaced, hupon]
    omega

/-- A chain is empty as it is built. -/
theorem empty_of_ofSlots {entries : List Config.StageEntry} {slots : List (Slot Builtin)}
    {name : String} {maxHops : Nat} (hslots : buildAll entries = .ok slots)
    (hc : ofSlots name slots maxHops = .ok c) : c.Empty where
  pending := by
    obtain ⟨plan, -, hc⟩ := bind_eq_ok hc
    cases hc
    rfl
  held slot hslot := (idle_of_ofSlots hslots hc slot hslot).held

/-- An empty chain without stages that make pieces is given messages and told of alarms, in any
order. The messages are those that the outputs tell of, as delivered, dropped or in error, those
that the stages hold in the end, those that were held and replaced before they were let go, and
those in calls that crashed. -/
theorem messages_account (hg : ∀ slot ∈ c.slots, slot.stage.kind.isGenerator = false)
    (hc : c.Empty) (xs : List Input) :
    (xs.filterMap Input.message?).length =
      ((c.outputs xs).map fun o ↦ o.delivered.length + o.dropped + o.errors.length).sum +
        (c.upon xs).holding + c.replaced xs + c.crashes xs := by
  have hnone : c.holding = 0 := by
    refine List.countP_eq_zero.2 fun slot hslot ↦ ?_
    rw [hc.held slot hslot]
    exact Bool.false_ne_true
  have hbalance := LeavesWhole.holding_upon ⟨hg, hc.pending⟩ xs
  rw [hnone] at hbalance
  exact hbalance

/-- Of three messages one is delivered, one is let go and delivered, and one is held. -/
theorem messages_account_paced :
    let xs := [.message 9 ⟨0, 0⟩ (.ofRaw "t" [1]), .message 9 ⟨0, 0⟩ (.ofRaw "t" [2]),
      .alarm 9 ⟨5, 0⟩ ⟨5, 0, 1⟩, .message 9 ⟨5, 0⟩ (.ofRaw "t" [3])]
    paced.Empty ∧ (paced.upon xs).holding = 1 ∧ paced.replaced xs = 0 ∧ paced.crashes xs = 0 ∧
      ((paced.outputs xs).map fun o ↦
        o.delivered.length + o.dropped + o.errors.length).sum = 2 := by
  intro xs
  have hg : ∀ slot ∈ paced.slots, slot.stage.kind.isGenerator = false := by decide
  have hc : paced.Empty := ⟨rfl, by decide⟩
  have hbalance := messages_account hg hc xs
  have hholding : (paced.upon xs).holding = 1 := by decide +kernel
  have hreplaced : paced.replaced xs = 0 := by decide +kernel
  have hcrashes : paced.crashes xs = 0 := by decide +kernel
  rw [hholding, hreplaced, hcrashes] at hbalance
  refine ⟨hc, hholding, hreplaced, hcrashes, ?_⟩
  have hthree : (xs.filterMap Input.message?).length = 3 := rfl
  omega

/-- If the last two come before the first timer goes off, the second is replaced by the third, and
no output tells of it. -/
theorem paced_replaces :
    let xs := [.message 9 ⟨0, 0⟩ (.ofRaw "t" [1]), .message 9 ⟨0, 0⟩ (.ofRaw "t" [2]),
      .message 9 ⟨0, 0⟩ (.ofRaw "t" [3])]
    (xs.filterMap Input.message?).length = 3 ∧ (paced.upon xs).holding = 1 ∧
      ((paced.outputs xs).map fun o ↦
        o.delivered.length + o.dropped + o.errors.length).sum = 1 := by
  decide +kernel

end Chain

end Conduit
