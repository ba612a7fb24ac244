import Conduit.Proofs.Chain.Stale
import Conduit.Proofs.Chain.Twins

/-!
# What a chain is made of

Whatever a chain goes through, messages, alarms, starts and stops, its stages stay as they were
configured (`Chain.SameMake`). A chain that was stopped is therefore in step with the chain as it
was built, but for the numbers that its throttles have come to (`Chain.SameMake.twins_stop`).
-/

namespace Conduit.Chain

open Stage

/-! ## Chains of the same make -/

/-- No stage is a script. -/
def Unscripted (c : Chain Builtin) : Prop := ∀ slot ∈ c.slots, slot.stage.kind ≠ .script

/-- The chains were built in the same way; the states of their stages may differ. -/
structure SameMake (c d : Chain Builtin) : Prop where
  plan : d.plan = c.plan
  maxHops : d.maxHops = c.maxHops
  slots : d.slots.map (fun slot ↦ (slot.routing, slot.stage.blank)) =
    c.slots.map fun slot ↦ (slot.routing, slot.stage.blank)

/-- The chain has gone through nothing yet. -/
structure Blank (c : Chain Builtin) : Prop where
  stages : ∀ slot ∈ c.slots, slot.stage.blank = slot.stage
  pending : c.pending = []

variable {c d : Chain Builtin} {i : Nat} {slot : Slot Builtin}

theorem blank_of_ofSlots {entries : List Config.StageEntry} {slots : List (Slot Builtin)}
    {name : String} {maxHops : Nat} (hslots : buildAll entries = .ok slots)
    (hc : ofSlots name slots maxHops = .ok c) : c.Blank := by
  obtain ⟨plan, -, hc⟩ := bind_eq_ok hc
  cases hc
  exact ⟨stages_of_buildAll Builtin.blank_of_ofParams hslots, rfl⟩

namespace SameMake

theorem refl (c : Chain Builtin) : c.SameMake c := ⟨rfl, rfl, rfl⟩

theorem setStage (h : c.SameMake d) (hs : d.slots[i]? = some slot) {s : Builtin}
    (hblank : s.blank = slot.stage.blank) : c.SameMake (d.setStage i s) := by
  refine ⟨h.plan, h.maxHops, .trans ?_ h.slots⟩
  refine map_slots_setStage (fun slot ↦ (slot.routing, slot.stage.blank)) d i s fun slot' hs' ↦ ?_
  cases hs.symm.trans hs'
  exact congrArg (slot.routing, ·) hblank

theorem stop (h : c.SameMake d) : c.SameMake d.stop := by
  refine ⟨h.plan, h.maxHops, .trans ?_ h.slots⟩
  rw [Chain.stop, mapStages, List.map_map]
  exact List.map_congr_left fun slot _ ↦ congrArg (slot.routing, ·) slot.stage.blank_stop

theorem unscripted (h : c.SameMake d) (hc : c.Unscripted) : d.Unscripted := by
  intro slot hslot
  have hmem := List.mem_map_of_mem (f := fun slot ↦ (slot.routing, slot.stage.blank)) hslot
  rw [h.slots] at hmem
  obtain ⟨slot', hslot', he⟩ := List.mem_map.1 hmem
  have hkind := congrArg Builtin.kind (Prod.ext_iff.1 he).2
  rw [Builtin.kind_blank, Builtin.kind_blank] at hkind
  exact hkind ▸ hc slot' hslot'

theorem keeps (hc : c.Unscripted) : Keeps c.SameMake fun _ ↦ True where
  withPending _ _ h := ⟨h.plan, h.maxHops, h.slots⟩
  visit moment d i slot w hs h := by
    refine ⟨?_, trivial⟩
    have hkind := h.unscripted hc slot (List.mem_of_getElem? hs)
    rcases chain_visit moment d i slot w with hchain | hchain <;> rw [hchain]
    · exact h
    · exact h.setStage hs (Builtin.blank_process hkind _ _)

end SameMake

/-- To a chain without scripts it means nothing to be started. -/
theorem Unscripted.start (h : c.Unscripted) (now : Instant) : c.start now = c := by
  have hslots : (c.start now).slots = c.slots := by
    refine (List.map_congr_left fun slot hslot ↦ ?_).trans (List.map_id _)
    rw [Builtin.start_of_ne_script (h slot hslot)]
    rfl
  exact congrArg (fun slots ↦ { c with slots }) hslots

/-! ## What a chain goes through -/

/-- What can be done with a chain. -/
inductive Usage
  | input (x : Input)
  | start (now : Instant)
  | stop

def use (c : Chain Builtin) : Usage → Chain Builtin
  | .input x => (c.respond x).chain
  | .start now => c.start now
  | .stop => c.stop

/-- The timers that a use sets. -/
def timersOfUse (c : Chain Builtin) : Usage → List (Nat × UInt64)
  | .input x => (c.respond x).visits.flatMap Visit.keys
  | .start _ => []
  | .stop => []

def useAll (c : Chain Builtin) (us : List Usage) : Chain Builtin := us.foldl use c

/-- All timers that are set when a chain is used, in order. -/
def timersSet : Chain Builtin → List Usage → List (Nat × UInt64)
  | _, [] => []
  | c, u :: us => c.timersOfUse u ++ timersSet (c.use u) us

theorem SameMake.use (h : c.SameMake d) (hc : c.Unscripted) (u : Usage) : c.SameMake (d.use u) := by
  cases u with
  | input x =>
    cases x with
    | message patience moment m => exact ((keeps hc).process patience moment m h).1
    | alarm patience moment a =>
      exact ((keeps hc).expire patience moment a.token
        (fun slot hs ↦ h.setStage hs (Builtin.blank_expire moment.now slot.stage a.token))
        fun _ ↦ h).1
  | start now =>
    rw [Chain.use, (h.unscripted hc).start]
    exact h
  | stop => exact h.stop

/-- However a chain is used, its make stays the same. -/
theorem SameMake.useAll (h : c.SameMake d) (hc : c.Unscripted) (us : List Usage) :
    c.SameMake (d.useAll us) := by
  induction us generalizing d with
  | nil => exact h
  | cons u us ih => exact ih (h.use hc u)

theorem Numbered.use {keys : List (Nat × UInt64)} (h : c.Numbered keys) (u : Usage) :
    (c.use u).Numbered (keys ++ c.timersOfUse u) := by
  cases u with
  | input x =>
    have hopen : c.Numbered (keys ++ [].flatMap Visit.keys) := by simpa using h
    cases x with
    | message patience moment m => exact (trails_numbered keys).process patience moment m hopen
    | alarm patience moment a =>
      exact (trails_numbered keys).expire patience moment (fun _ ↦ hopen) fun slot hs ↦
        hopen.of_latest (latest?_setStage_of_eq hs (by simp))
  | start now => simpa [timersOfUse, Chain.use] using h.of_latest (latest?_start c now)
  | stop => simpa [timersOfUse, Chain.use] using h.of_latest (latest?_stop c)

/-- However a chain is used, its timers are numbered. -/
theorem Numbered.useAll {keys : List (Nat × UInt64)} (h : c.Numbered keys) (us : List Usage) :
    (c.useAll us).Numbered (keys ++ c.timersSet us) := by
  induction us generalizing c keys with
  | nil => simpa [timersSet, Chain.useAll] using h
  | cons u us ih => simpa [timersSet, Chain.useAll] using ih (h.use u)

/-! ## A chain that is stopped -/

/-- A chain that was stopped is in step with the chain as it was built. -/
theorem SameMake.twins_stop {ρ : String → String → Prop} (h : c.SameMake d) (hc : c.Unscripted)
    (hblank : c.Blank) : d.stop.Twins ρ (fun i ↦ (d.latest? i).getD 0) c where
  plan := h.plan
  maxHops := h.maxHops
  slots i := by
    have hi : (d.slots.map fun slot ↦ (slot.routing, slot.stage.blank))[i]? =
        (c.slots.map fun slot ↦ (slot.routing, slot.stage.blank))[i]? := by rw [h.slots]
    rw [List.getElem?_map, List.getElem?_map] at hi
    have hstop : d.stop.slots[i]? =
        d.slots[i]?.map fun slot ↦ { slot with stage := Behaviour.stop slot.stage } :=
      List.getElem?_map
    rw [hstop, latest?]
    cases hs : d.slots[i]? with
    | none =>
      rw [hs, Option.map_none] at hi
      rw [Option.map_eq_none_iff.1 hi.symm]
      exact .none
    | some slot =>
      rw [hs, Option.map_some] at hi
      obtain ⟨slot', hs', he⟩ := Option.map_eq_some_iff.1 hi.symm
      rw [Prod.mk.injEq, hblank.stages slot' (List.mem_of_getElem? hs')] at he
      rw [hs']
      refine .some ⟨he.1.symm, ?_⟩
      exact Builtin.twin_stop (h.unscripted hc slot (List.mem_of_getElem? hs)) he.2.symm
  pending := by
    rw [hblank.pending]
    exact .nil

end Conduit.Chain
