import Conduit.Chain.Alarm
import Conduit.Proofs.Chain.Trail
import Conduit.Proofs.Pipeline.Moves
import Conduit.Proofs.Stage.Waiting
import Mathlib.Data.List.Perm.Basic
import Mathlib.Data.List.Range

/-!
# What a chain waits for

Each stage of a chain waits for at most one timer, so what the chain waits for is a list of places
with tokens, at most one for each throttle in delay mode (`Chain.length_awaited_le`). When the chain
is shown a message it waits for the timers that its visits set as well, and when it is told of an
alarm that it waits for, it no longer waits for this one (`Chain.Punctual.respond`).
-/

namespace Conduit

open Stage

/-! ## Places and tokens -/

/-- What an alarm is known by. -/
def Alarm.key (a : Alarm) : Nat × UInt64 := (a.stage, a.token)

/-- What the timers of a visit are known by. -/
def Visit.keys (v : Visit) : List (Nat × UInt64) := v.timers.map fun t ↦ (v.stage, t.token)

theorem Alarm.map_key_ofVisits (clock : Clock) (visits : List Visit) :
    (ofVisits clock visits).map key = visits.flatMap Visit.keys := by
  simp only [ofVisits, List.map_flatMap, List.map_map, Function.comp_def, key]
  conv_rhs => rw [← List.zipIdx_map_fst 0 visits, List.flatMap_map]
  rfl

namespace Chain

section Awaited

variable (c : Chain Builtin)

/-- The token of the timer that the stage at a place waits for. -/
def awaits (i : Nat) : Option UInt64 := c.slots[i]?.bind (·.stage.awaits)

/-- All that the chain waits for. -/
def awaited : List (Nat × UInt64) :=
  (List.range c.size).filterMap fun i ↦ (c.awaits i).map (i, ·)

/-- How many stages are throttles in delay mode. -/
def delays : Nat := c.slots.countP (·.stage.delays)

/-- All stages hold messages exactly as long as they wait for a timer. -/
def Punctual : Prop := ∀ slot ∈ c.slots, slot.stage.Punctual

/-- All stages hold nothing and wait for nothing. -/
def Idle : Prop := ∀ slot ∈ c.slots, slot.stage.Idle

end Awaited

variable {c : Chain Builtin} {i : Nat} {slot : Slot Builtin}

theorem awaits_of_slot (hs : c.slots[i]? = some slot) : c.awaits i = slot.stage.awaits := by
  rw [awaits, hs, Option.bind_some]

theorem lt_size_of_slot (hs : c.slots[i]? = some slot) : i < c.size :=
  (List.getElem?_eq_some_iff.1 hs).1

theorem mem_awaited {token : UInt64} : (i, token) ∈ c.awaited ↔ c.awaits i = some token := by
  have hlt (h : c.awaits i = some token) : i < c.size := by
    obtain ⟨slot, hs, -⟩ := Option.bind_eq_some_iff.1 h
    exact lt_size_of_slot hs
  simpa [awaited] using hlt

/-- A chain waits for no more timers than it has throttles in delay mode. -/
theorem Punctual.length_awaited_le (h : c.Punctual) : c.awaited.length ≤ c.delays := by
  have hslots : c.slots.map (fun slot ↦ slot.stage.awaits) = (List.range c.size).map c.awaits := by
    refine List.ext_getElem (by simp [size]) fun k hk hk' ↦ ?_
    simp only [List.getElem_map, List.getElem_range]
    exact (awaits_of_slot (List.getElem?_eq_getElem (by simpa using hk))).symm
  have hcount : c.awaited.length = c.slots.countP (·.stage.awaits.isSome) := by
    have := congrArg (List.countP Option.isSome) hslots
    simp only [List.countP_map, Function.comp_def] at this
    rw [this, awaited, List.length_filterMap_eq_countP]
    simp
  rw [hcount]
  exact List.countP_mono_left fun slot hslot ↦ (h slot hslot).delays

theorem Idle.punctual (h : c.Idle) : c.Punctual := fun slot hslot ↦ (h slot hslot).punctual

theorem Idle.awaited (h : c.Idle) : c.awaited = [] := by
  refine List.eq_nil_iff_forall_not_mem.2 ?_
  rintro ⟨i, token⟩ hmem
  obtain ⟨slot, hs, ha⟩ := Option.bind_eq_some_iff.1 (mem_awaited.1 hmem)
  rw [(h slot (List.mem_of_getElem? hs)).awaits] at ha
  cases ha

theorem Idle.start (h : c.Idle) (now : Instant) : (c.start now).Idle := by
  intro slot hslot
  obtain ⟨slot', h', rfl⟩ := List.mem_map.1 hslot
  exact (h slot' h').start now

theorem idle_stop (c : Chain Builtin) : c.stop.Idle := by
  intro slot hslot
  obtain ⟨slot', -, rfl⟩ := List.mem_map.1 hslot
  exact slot'.stage.idle_stop

@[simp] theorem delays_start (c : Chain Builtin) (now : Instant) :
    (c.start now).delays = c.delays := by
  simp [start, mapStages, delays, List.countP_map, Function.comp_def]

@[simp] theorem delays_stop (c : Chain Builtin) : c.stop.delays = c.delays := by
  simp [stop, mapStages, delays, List.countP_map, Function.comp_def]

/-- A chain is idle as it is built. -/
theorem idle_of_ofSlots {entries : List Config.StageEntry} {slots : List (Slot Builtin)}
    {name : String} {maxHops : Nat} (hslots : buildAll entries = .ok slots)
    (hc : ofSlots name slots maxHops = .ok c) : c.Idle := by
  obtain ⟨plan, -, hc⟩ := bind_eq_ok hc
  cases hc
  exact idle_of_buildAll hslots

/-! ## One stage changes -/

theorem delays_setStage {s : Builtin} (hs : c.slots[i]? = some slot)
    (h : s.delays = slot.stage.delays) : (c.setStage i s).delays = c.delays := by
  have hmap := map_slots_setStage (fun slot ↦ slot.stage.delays) c i s fun slot' hs' ↦ by
    cases hs.symm.trans hs'
    exact h
  simpa [delays, List.countP_map, Function.comp_def] using congrArg (List.countP fun b ↦ b) hmap

theorem awaits_setStage (hs : c.slots[i]? = some slot) (s : Builtin) (j : Nat) :
    (c.setStage i s).awaits j = if j = i then s.awaits else c.awaits j := by
  by_cases h : j = i
  · subst h
    simp [awaits, setStage, hs]
  · simp [awaits, setStage, h, Ne.symm h]

/-- What the chain waits for is what one of its stages waits for, and what all others do. -/
theorem exists_others (hs : c.slots[i]? = some slot) :
    ∃ others, c.awaited.Perm (slot.stage.awaits.toList.map (i, ·) ++ others) ∧
      ∀ s, (c.setStage i s).awaited.Perm (s.awaits.toList.map (i, ·) ++ others) := by
  have hi : i ∈ List.range c.size := List.mem_range.2 (lt_size_of_slot hs)
  -- the list of what is awaited follows the places, in which `i` occurs once
  have hsplit (f : Nat → Option UInt64) :
      ((List.range c.size).filterMap fun j ↦ (f j).map (j, ·)).Perm ((f i).toList.map (i, ·) ++
        ((List.range c.size).erase i).filterMap fun j ↦ (f j).map (j, ·)) := by
    have := (List.perm_cons_erase hi).filterMap fun j ↦ (f j).map (j, ·)
    cases hf : f i <;> simpa [List.filterMap_cons, hf] using this
  refine ⟨((List.range c.size).erase i).filterMap fun j ↦ (c.awaits j).map (j, ·), ?_,
    fun s ↦ ?_⟩
  · rw [← awaits_of_slot hs]
    exact hsplit c.awaits
  · have hsize : (c.setStage i s).size = c.size := (setStage_alike c i s).size
    have hsame : ((List.range c.size).erase i).filterMap (fun j ↦ (c.awaits j).map (j, ·)) =
        ((List.range c.size).erase i).filterMap fun j ↦
          ((c.setStage i s).awaits j).map (j, ·) := by
      refine List.filterMap_congr fun j hj ↦ ?_
      rw [awaits_setStage hs, if_neg fun he ↦ ?_]
      exact (List.nodup_range.mem_erase_iff.1 hj).1 he
    have hnew : (c.setStage i s).awaits i = s.awaits := by rw [awaits_setStage hs, if_pos rfl]
    rw [hsame, awaited, hsize, ← hnew]
    exact hsplit (c.setStage i s).awaits

/-! ## Visits and calls -/

/-- What the chain waits for is what was given and the timers that visits have set. -/
structure Waits (given : List (Nat × UInt64)) (delays : Nat) (visits : List Visit)
    (c : Chain Builtin) : Prop where
  punctual : c.Punctual
  delays : c.delays = delays
  awaited : c.awaited.Perm (given ++ visits.flatMap Visit.keys)

/-- The stage that a visit comes to sets timers with its new state. -/
theorem timers_visit (moment : Moment) (c : Chain Builtin) (i : Nat) (slot : Slot Builtin)
    (w : Wrapper) :
    ((visit moment c i slot w).chain = c ∧ (visit moment c i slot w).visit.timers = []) ∨
      ∃ w', (visit moment c i slot w).chain =
          c.setStage i (Behaviour.process moment slot.stage w').state ∧
        (visit moment c i slot w).visit.timers =
          (Behaviour.process moment slot.stage w').timers := by
  unfold visit
  dsimp only
  split
  · exact .inl ⟨rfl, rfl⟩
  · exact .inr ⟨_, rfl, rfl⟩

theorem keys_visit (moment : Moment) (c : Chain Builtin) (i : Nat) (slot : Slot Builtin)
    (w : Wrapper) : (visit moment c i slot w).visit.keys =
      (visit moment c i slot w).visit.timers.map fun t ↦ (i, t.token) := by
  rw [Visit.keys, stage_visit]

theorem trails_waits (given : List (Nat × UInt64)) (delays : Nat) :
    Trails (Waits given delays) where
  withPending _ _ _ h := ⟨h.punctual, h.delays, h.awaited⟩
  visit visits moment c i slot w hs h := by
    have hkeys := keys_visit moment c i slot w
    rcases timers_visit moment c i slot w with ⟨hchain, htimers⟩ | ⟨w', hchain, htimers⟩ <;>
      rw [hchain]
    · refine ⟨h.punctual, h.delays, ?_⟩
      simpa [hkeys, htimers] using h.awaited
    · obtain ⟨others, hbefore, hafter⟩ := exists_others hs
      refine ⟨stages_setStage h.punctual i ?_, ?_, ?_⟩
      · exact (h.punctual slot (List.mem_of_getElem? hs)).process moment w'
      · exact (delays_setStage hs (Builtin.delays_process moment slot.stage w')).trans h.delays
      · have hset : ((Behaviour.process moment slot.stage w').state.awaits.toList.map (i, ·)) =
            slot.stage.awaits.toList.map (i, ·) ++ (Chain.visit moment c i slot w).visit.keys := by
          rw [Builtin.awaits_process, List.map_append, hkeys, htimers, List.map_map]
          rfl
        have hlast : (visits ++ [(Chain.visit moment c i slot w).visit]).flatMap Visit.keys =
            visits.flatMap Visit.keys ++ (Chain.visit moment c i slot w).visit.keys := by simp
        -- the new timers come behind the old one of the stage; only the others stand in between
        refine (hafter _).trans ?_
        rw [hset, hlast, List.append_assoc, ← List.append_assoc given]
        have hcomm : ((Chain.visit moment c i slot w).visit.keys ++ others).Perm
          (others ++ (Chain.visit moment c i slot w).visit.keys) := List.perm_append_comm
        refine (hcomm.append_left _).trans ?_
        rw [← List.append_assoc]
        exact (hbefore.symm.trans h.awaited).append_right _

/-- An input that tells the chain of an alarm tells it of one that it waits for. -/
def Expects (c : Chain Builtin) (x : Input) : Prop :=
  ∀ a, x.alarm? = some a → c.awaits a.stage = some a.token

/-- When the chain has answered, it no longer waits for the alarm that it was told of, and waits for
the timers that its visits have set. -/
theorem Punctual.respond (h : c.Punctual) {x : Input} (hx : c.Expects x) :
    ∃ given, c.awaited.Perm (x.alarm?.toList.map Alarm.key ++ given) ∧
      Waits given c.delays (c.respond x).visits (c.respond x).chain := by
  cases x with
  | message patience moment m =>
    have hopen : Waits c.awaited c.delays [] c := ⟨h, rfl, by simp⟩
    exact ⟨c.awaited, .refl _, (trails_waits _ _).process patience moment m hopen⟩
  | alarm patience moment a =>
    have ha : c.awaits a.stage = some a.token := hx a rfl
    obtain ⟨slot, hs, hslot⟩ := Option.bind_eq_some_iff.1 ha
    have hpunctual := h slot (List.mem_of_getElem? hs)
    obtain ⟨-, hidle⟩ := hpunctual.release_of_awaits hslot moment.now
    obtain ⟨others, hbefore, hafter⟩ := exists_others hs
    refine ⟨others, by simpa [hslot, Input.alarm?, Alarm.key] using hbefore, ?_⟩
    refine (trails_waits _ _).expire patience moment (fun hnone ↦ ?_) fun slot' hs' ↦ ?_
    · cases hs.symm.trans hnone
    · cases hs.symm.trans hs'
      refine ⟨stages_setStage h a.stage hidle.punctual, ?_, ?_⟩
      · exact delays_setStage hs (by simp)
      · simpa [hidle.awaits] using hafter (Behaviour.expire moment.now slot.stage a.token).state

/-! ## Alarms that are under way -/

/-- The alarms are those that the chain waits for, but for a number of them that were refused. -/
structure Attended (c : Chain Builtin) (delays : Nat) (alarms : List Alarm) (refused : Nat) :
    Prop where
  punctual : c.Punctual
  delays : c.delays = delays
  awaited : ∃ lost, lost.length = refused ∧ (alarms.map Alarm.key ++ lost).Perm c.awaited

variable {alarms rest : List Alarm} {delays refused : Nat}

theorem Idle.attended (h : c.Idle) : c.Attended c.delays [] 0 :=
  ⟨h.punctual, rfl, [], rfl, by simp [h.awaited]⟩

namespace Attended

theorem of_perm (h : c.Attended delays alarms refused) (hp : rest.Perm alarms) :
    c.Attended delays rest refused := by
  obtain ⟨lost, hlost, ha⟩ := h.awaited
  exact ⟨h.punctual, h.delays, lost, hlost, ((hp.map Alarm.key).append_right lost).trans ha⟩

/-- The chain waits for what has been refused like for what is under way. -/
theorem refuse {a : Alarm} (h : c.Attended delays (a :: rest) refused) :
    c.Attended delays rest (refused + 1) := by
  obtain ⟨lost, hlost, ha⟩ := h.awaited
  exact ⟨h.punctual, h.delays, a.key :: lost, congrArg (· + 1) hlost,
    List.perm_middle.trans ha⟩

theorem length_le (h : c.Attended delays alarms refused) : alarms.length + refused ≤ delays := by
  obtain ⟨lost, rfl, ha⟩ := h.awaited
  have hlength := ha.length_eq
  rw [List.length_append, List.length_map] at hlength
  rw [hlength, ← h.delays]
  exact h.punctual.length_awaited_le

theorem awaits_of_mem (h : c.Attended delays alarms refused) {a : Alarm} (ha : a ∈ alarms) :
    c.awaits a.stage = some a.token := by
  obtain ⟨lost, -, hp⟩ := h.awaited
  exact mem_awaited.1 (hp.subset (List.mem_append_left _ (List.mem_map_of_mem ha)))

/-- If none was refused, the timer that a stage waits for is under way. -/
theorem exists_of_awaits (h : c.Attended delays alarms 0) {token : UInt64}
    (ha : c.awaits i = some token) : ∃ a ∈ alarms, a.stage = i ∧ a.token = token := by
  obtain ⟨lost, hlost, hp⟩ := h.awaited
  obtain rfl := List.length_eq_zero_iff.1 hlost
  rw [List.append_nil] at hp
  obtain ⟨a, hmem, hkey⟩ := List.mem_map.1 (hp.symm.subset (mem_awaited.2 ha))
  cases hkey
  exact ⟨a, hmem, rfl, rfl⟩

/-- When the chain has answered, the alarm that it was told of is not under way any more, and those
that its visits have set are. -/
theorem respond (h : c.Attended delays alarms refused) {x : Input}
    (hx : alarms.Perm (x.alarm?.toList ++ rest)) (clock : Clock) :
    (c.respond x).chain.Attended delays (rest ++ Alarm.ofVisits clock (c.respond x).visits)
      refused := by
  obtain ⟨lost, hlost, ha⟩ := h.awaited
  have hexpects : c.Expects x := by
    intro a he
    exact h.awaits_of_mem (hx.symm.subset (by simp [he]))
  obtain ⟨given, hgiven, hw⟩ := h.punctual.respond hexpects
  -- what the chain was told of is in front on both sides, so all else is the same
  have hrest : (rest.map Alarm.key ++ lost).Perm given := by
    refine (List.perm_append_left_iff (x.alarm?.toList.map Alarm.key)).1 ?_
    rw [← List.append_assoc, ← List.map_append]
    exact ((hx.symm.map Alarm.key).append_right lost).trans (ha.trans hgiven)
  refine ⟨hw.punctual, hw.delays.trans h.delays, lost, hlost, ?_⟩
  rw [List.map_append, Alarm.map_key_ofVisits]
  have hcomm : ((c.respond x).visits.flatMap Visit.keys ++ lost).Perm
    (lost ++ (c.respond x).visits.flatMap Visit.keys) := List.perm_append_comm
  refine .trans ?_ (hw.awaited.symm)
  rw [List.append_assoc]
  refine (hcomm.append_left _).trans ?_
  rw [← List.append_assoc]
  exact hrest.append_right _

end Attended

end Chain

end Conduit
