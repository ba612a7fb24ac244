import Mathlib.Algebra.Order.Ring.Int
import Conduit.Proofs.Chain.Awaiting
import Conduit.Proofs.Chain.Release
import Conduit.Proofs.Stage.Renewal

/-!
# Timers that a stop left behind

A stage numbers its timers, and a stop does not make it start over. So the latest number of a stage
tells how many timers it has set since any other (`Chain.Numbered`), and while these are fewer than
there are numbers, only the latest timer has the latest number. A timer that was set before a stop
comes from a stage that waits for a later one by now, or for none at all, and goes off in vain
(`Chain.Heeds.expire_old`).
-/

namespace Conduit.Chain

open Stage

/-! ## Numbers -/

/-- The number of the latest timer of the stage at a place. -/
def latest? (c : Chain Builtin) (i : Nat) : Option UInt64 := c.slots[i]?.map (·.stage.token)

/-- How many of the timers are those of the stage at a place. -/
def timersOf (i : Nat) (keys : List (Nat × UInt64)) : Nat := keys.countP (·.1 = i)

/-- The timers that a stage has set so far have numbers in a row, up to the latest. -/
def Numbered (keys : List (Nat × UInt64)) (c : Chain Builtin) : Prop :=
  ∀ before i token later, keys = before ++ (i, token) :: later →
    c.latest? i = some (token + UInt64.ofNat (timersOf i later))

variable {c d : Chain Builtin} {i : Nat} {slot : Slot Builtin}
  {keys old since : List (Nat × UInt64)}

theorem latest?_of_slot (hs : c.slots[i]? = some slot) : c.latest? i = some slot.stage.token := by
  rw [latest?, hs, Option.map_some]

theorem latest?_setStage (hs : c.slots[i]? = some slot) (s : Builtin) (j : Nat) :
    (c.setStage i s).latest? j = if j = i then some s.token else c.latest? j := by
  by_cases h : j = i
  · subst h
    simp [latest?, setStage, hs]
  · simp [latest?, setStage, h, Ne.symm h]

theorem latest?_setStage_of_eq (hs : c.slots[i]? = some slot) {s : Builtin}
    (h : s.token = slot.stage.token) : (c.setStage i s).latest? = c.latest? := by
  funext j
  rw [latest?_setStage hs]
  split
  · rename_i hj
    rw [hj, latest?_of_slot hs, h]
  · rfl

@[simp] theorem latest?_start (c : Chain Builtin) (now : Instant) :
    (c.start now).latest? = c.latest? := by
  funext i
  simp [latest?, start, mapStages, Function.comp_def]

@[simp] theorem latest?_stop (c : Chain Builtin) : c.stop.latest? = c.latest? := by
  funext i
  simp [latest?, stop, mapStages, Function.comp_def]

theorem Numbered.of_latest (h : c.Numbered keys) (hd : d.latest? = c.latest?) : d.Numbered keys :=
  fun before i token later hkeys ↦ hd ▸ h before i token later hkeys

/-- The next timer has the next number. -/
theorem Numbered.add (h : c.Numbered keys) (hs : c.slots[i]? = some slot) {s : Builtin}
    (hnext : s.token = slot.stage.token + 1) :
    (c.setStage i s).Numbered (keys ++ [(i, slot.stage.token + 1)]) := by
  intro before j token later hkeys
  rw [latest?_setStage hs]
  -- the new timer is the one that is looked at, or it comes behind it
  rcases later.eq_nil_or_concat' with rfl | ⟨others, last, rfl⟩
  · obtain ⟨rfl, hlast⟩ := List.append_inj' hkeys rfl
    cases hlast
    simp [timersOf, hnext]
  · rw [← List.cons_append, ← List.append_assoc] at hkeys
    obtain ⟨rfl, hlast⟩ := List.append_inj' hkeys rfl
    cases hlast
    have hbefore := h before j token others rfl
    by_cases hj : j = i
    · subst hj
      rw [latest?_of_slot hs, Option.some.injEq] at hbefore
      rw [if_pos rfl, hnext, hbefore]
      simp [timersOf, UInt64.add_assoc]
    · rw [if_neg hj, hbefore]
      simp [timersOf, Ne.symm hj]

/-- All timers of all visits are numbered along with those before. -/
theorem trails_numbered (keys : List (Nat × UInt64)) :
    Trails fun visits c ↦ c.Numbered (keys ++ visits.flatMap Visit.keys) where
  withPending _ _ _ h := h
  visit visits moment c i slot w hs h := by
    have hkeys := keys_visit moment c i slot w
    rcases timers_visit moment c i slot w with ⟨hchain, htimers⟩ | ⟨w', hchain, htimers⟩ <;>
      rw [hchain]
    · simpa [hkeys, htimers] using h
    · rcases Builtin.token_process moment slot.stage w' with ⟨hnone, hsame⟩ | ⟨delay, hone, hnext⟩
      · simpa [hkeys, htimers, hnone] using h.of_latest (latest?_setStage_of_eq hs hsame)
      · simpa [hkeys, htimers, hone] using h.add hs hnext

/-! ## What is waited for since a stop -/

/-- The chain waits for timers of a list only. -/
structure WaitsAmong (since : List (Nat × UInt64)) (c : Chain Builtin) : Prop where
  punctual : c.Punctual
  awaited : c.awaited ⊆ since

theorem Idle.waitsAmong (h : c.Idle) : c.WaitsAmong [] := by
  refine ⟨h.punctual, ?_⟩
  rw [h.awaited]
  exact List.Subset.refl []

theorem Waits.waitsAmong {given : List (Nat × UInt64)} {delays : Nat} {visits : List Visit}
    (h : c.Waits given delays visits) (hgiven : given ⊆ since) :
    c.WaitsAmong (since ++ visits.flatMap Visit.keys) := by
  refine ⟨h.punctual, fun key hkey ↦ ?_⟩
  exact (List.mem_append.1 (h.awaited.subset hkey)).elim
    (fun hk ↦ List.mem_append_left _ (hgiven hk)) (List.mem_append_right _)

/-- When a timer goes off the chain waits for no other than before. -/
theorem WaitsAmong.told (h : c.WaitsAmong since) (hs : c.slots[i]? = some slot) (now : Instant)
    (token : UInt64) :
    (c.setStage i (Behaviour.expire now slot.stage token).state).WaitsAmong since := by
  rcases Builtin.expire_idle_or now slot.stage token with hsame | hidle
  · rw [hsame, setStage_self hs]
    exact h
  · refine ⟨stages_setStage h.punctual i hidle.punctual, fun key hkey ↦ h.awaited ?_⟩
    obtain ⟨others, hbefore, hafter⟩ := exists_others hs
    have hmem := (hafter _).subset hkey
    rw [hidle.awaits] at hmem
    exact hbefore.symm.subset (List.mem_append_right _ hmem)

theorem trails_waitsAmong (since : List (Nat × UInt64)) :
    Trails fun visits c ↦ c.WaitsAmong (since ++ visits.flatMap Visit.keys) where
  withPending _ _ _ h := ⟨h.punctual, h.awaited⟩
  visit visits moment c i slot w hs h := by
    have hopen : Waits c.awaited c.delays [] c := ⟨h.punctual, rfl, by simp⟩
    have hvisit := ((trails_waits _ _).visit [] moment c i slot w hs hopen).waitsAmong h.awaited
    simpa using hvisit

/-! ## Both together -/

/-- All timers have been numbered, those from before a stop and those since, and the chain waits for
none but those since. -/
structure Heeds (old since : List (Nat × UInt64)) (c : Chain Builtin) : Prop where
  numbered : c.Numbered (old ++ since)
  among : c.WaitsAmong since

theorem trails_heeds (old since : List (Nat × UInt64)) :
    Trails fun visits c ↦ c.Heeds old (since ++ visits.flatMap Visit.keys) where
  withPending _ _ _ h := ⟨h.numbered, h.among.punctual, h.among.awaited⟩
  visit visits moment c i slot w hs h := by
    have hnumbered : c.Numbered (old ++ since ++ visits.flatMap Visit.keys) := by
      simpa using h.numbered
    have hnumbered := (trails_numbered (old ++ since)).visit visits moment c i slot w hs hnumbered
    have hamong := (trails_waitsAmong since).visit visits moment c i slot w hs h.among
    exact ⟨by simpa using hnumbered, hamong⟩

theorem Heeds.told (h : c.Heeds old since) (hs : c.slots[i]? = some slot) (now : Instant)
    (token : UInt64) :
    (c.setStage i (Behaviour.expire now slot.stage token).state).Heeds old since :=
  ⟨h.numbered.of_latest (latest?_setStage_of_eq hs (by simp)), h.among.told hs now token⟩

/-- A stage that has set no timer since the stop is idle. -/
theorem WaitsAmong.idle (h : c.WaitsAmong since) (hs : c.slots[i]? = some slot)
    (hnone : timersOf i since = 0) : slot.stage.Idle := by
  have hpunctual := h.punctual slot (List.mem_of_getElem? hs)
  have hawaits : slot.stage.awaits = none := by
    refine Option.eq_none_iff_forall_not_mem.2 fun token ha ↦ ?_
    have hmem : (i, token) ∈ since := h.awaited (mem_awaited.2 ((awaits_of_slot hs).trans ha))
    simpa using List.countP_eq_zero.1 hnone (i, token) hmem
  refine ⟨?_, hawaits⟩
  simpa [hawaits] using hpunctual.held

/-- A timer from before the stop goes off in vain, unless its stage has used up all numbers since.
Then only pieces that are pending are sent on. -/
theorem Heeds.expire_old (h : c.Heeds old since) {j : Nat} {token : UInt64}
    (hj : old[j]? = some (i, token))
    (hfew : timersOf i ((old ++ since).drop (j + 1)) < 2 ^ 64) (patience : Nat) (moment : Moment) :
    c.expire patience moment i token =
      Call.drain moment.clock patience { chain := c, fresh := moment.fresh } := by
  obtain ⟨hlt, hget⟩ := List.getElem?_eq_some_iff.1 hj
  have hsplit : old ++ since =
      old.take j ++ (i, token) :: (old ++ since).drop (j + 1) := by
    rw [List.drop_append_of_le_length hlt, ← hget, ← List.cons_append,
      ← List.drop_eq_getElem_cons hlt, ← List.append_assoc, List.take_append_drop]
  have hlatest := h.numbered _ _ _ _ hsplit
  obtain ⟨slot, hs, htoken⟩ := Option.map_eq_some_iff.1 hlatest
  have hvain : Behaviour.expire moment.now slot.stage token =
      { state := slot.stage, result := .ok none } := by
    by_cases hnone : timersOf i ((old ++ since).drop (j + 1)) = 0
    · refine (h.among.idle hs ?_).expire moment.now token
      rw [List.drop_append_of_le_length hlt, timersOf, List.countP_append] at hnone
      exact (Nat.add_eq_zero_iff.1 hnone).2
    · refine Builtin.expire_of_token_ne (fun he ↦ hnone ?_) moment.now
      -- the number would have come back, so all numbers would have been used up
      rw [htoken] at he
      have hzero : UInt64.ofNat (timersOf i ((old ++ since).drop (j + 1))) = 0 :=
        (UInt64.add_right_inj token).1 (he.symm.trans (UInt64.add_zero token).symm)
      have := congrArg UInt64.toNat hzero
      rwa [UInt64.toNat_ofNat', Nat.mod_eq_of_lt hfew] at this
  refine (expire_of_none hs (by rw [hvain])).trans ?_
  rw [hvain, setStage_self hs]

end Conduit.Chain
