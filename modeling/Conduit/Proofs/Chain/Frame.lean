import Conduit.Chain.Process
import Mathlib.Data.List.Basic

/-!
# What a walk keeps

A walk looks at the stages of a chain and at its routes, never at the families of pieces that are
pending, and it changes nothing but the states of the stages that it visits. So a walk through a
chain with other families pending is the same walk (`walkFrom_withPending`), and the chain that it
leaves is like the one that it found (`walkFrom_alike`). A walk with a number of visits left makes
no more than these (`length_visits_walkFrom_le`).
-/

namespace Conduit

open Stage

variable {σ : Type}

/-! ## Branching -/

namespace Route

variable {r : Route} {i : Nat} {w : Wrapper}

theorem place_of_branch_go {j : Nat} {w' : Wrapper} (h : r.branch i w = .go j w') :
    j = r.onward i ∨ r.rejected = some j := by
  unfold branch at h
  split at h
  · cases h
    exact .inl rfl
  · split at h
    · rename_i target hr
      cases h
      exact .inr hr
    · cases h

/-- A decision ends a walk only by dropping the message. -/
theorem eq_dropped_of_branch_done {e : Ending} (h : r.branch i w = .done e) : e = .dropped := by
  unfold branch at h
  split at h
  · cases h
  · split at h
    · cases h
    · exact (Next.done.inj h).symm

theorem branch_ne_generated (r : Route) (i : Nat) (w : Wrapper) (g : Generation) :
    r.branch i w ≠ .done (.generated g) :=
  fun h ↦ by cases eq_dropped_of_branch_done h

end Route

namespace Chain

/-! ## Pending families -/

/-- The chain with other families of pieces pending. -/
def withPending (c : Chain σ) (families : List Generation) : Chain σ :=
  { c with pending := families }

@[simp] theorem withPending_pending (c : Chain σ) : c.withPending c.pending = c := rfl

end Chain

/-- A step, with other families of pieces pending. -/
def Step.withPending (s : Step σ) (families : List Generation) : Step σ :=
  { s with chain := s.chain.withPending families }

namespace Chain

/-- What a walk leaves, with other families of pieces pending. -/
def Walk.withPending (w : Walk σ) (families : List Generation) : Walk σ :=
  { w with chain := w.chain.withPending families }

/-! ## Chains that differ in the states of their stages only -/

/-- All but the states of the stages is the same. -/
structure Alike (c d : Chain σ) : Prop where
  plan : d.plan = c.plan
  maxHops : d.maxHops = c.maxHops
  pending : d.pending = c.pending
  routings : d.slots.map (·.routing) = c.slots.map (·.routing)

namespace Alike

variable {c d e : Chain σ}

theorem refl (c : Chain σ) : c.Alike c := ⟨rfl, rfl, rfl, rfl⟩

theorem trans (h : c.Alike d) (h' : d.Alike e) : c.Alike e :=
  ⟨h'.plan.trans h.plan, h'.maxHops.trans h.maxHops, h'.pending.trans h.pending,
    h'.routings.trans h.routings⟩

theorem size (h : c.Alike d) : d.size = c.size := by
  have := congrArg List.length h.routings
  simpa [Chain.size] using this

end Alike

/-- A property of the slots that does not look at the stage survives a new state of it. -/
theorem map_slots_setStage {α : Type} (f : Slot σ → α) (c : Chain σ) (i : Nat) (s : σ)
    (hf : ∀ slot, c.slots[i]? = some slot → f { slot with stage := s } = f slot) :
    (c.setStage i s).slots.map f = c.slots.map f := by
  refine List.ext_getElem? fun j ↦ ?_
  simp only [setStage, List.getElem?_map, List.getElem?_modify]
  by_cases h : i = j
  · subst h
    cases hs : c.slots[i]? with
    | none => simp
    | some slot => simp [hf slot hs]
  · simp [h]

theorem setStage_self {c : Chain σ} {i : Nat} {slot : Slot σ} (hs : c.slots[i]? = some slot) :
    c.setStage i slot.stage = c := by
  have hslots : (c.setStage i slot.stage).slots = c.slots := by
    simpa using map_slots_setStage (fun slot ↦ slot) c i slot.stage fun slot' hs' ↦ by
      cases hs.symm.trans hs'
      rfl
  exact congrArg (fun slots ↦ { c with slots }) hslots

theorem slot_setStage {c : Chain σ} {i : Nat} {slot : Slot σ} (hs : c.slots[i]? = some slot)
    (s : σ) : (c.setStage i s).slots[i]? = some { slot with stage := s } := by
  rw [setStage, List.getElem?_modify_eq, hs]
  rfl

/-- What is true of all stages and of the new state of one is true of all stages afterwards. -/
theorem stages_setStage {P : σ → Prop} {c : Chain σ} (h : ∀ slot ∈ c.slots, P slot.stage) (i : Nat)
    {s : σ} (hs : P s) : ∀ slot ∈ (c.setStage i s).slots, P slot.stage := by
  intro slot hslot
  obtain ⟨k, hk, rfl⟩ := List.mem_iff_getElem.1 hslot
  simp only [setStage, List.getElem_modify]
  split
  · exact hs
  · exact h _ (List.getElem_mem _)

theorem setStage_alike (c : Chain σ) (i : Nat) (s : σ) : c.Alike (c.setStage i s) :=
  ⟨rfl, rfl, rfl, map_slots_setStage _ c i s fun _ _ ↦ rfl⟩

/-! ## Visits and walks -/

variable [Behaviour σ]

section Equations

variable {c : Chain σ} {i : Nat} {slot : Slot σ}

/-- Behind the last stage a walk is over. -/
theorem walkFrom_end (moment : Moment) (hops : Nat) (w : Wrapper) (h : c.slots[i]? = none) :
    walkFrom moment hops c i w =
      { ending := if w.accepted then .delivered w else .dropped, chain := c } := by
  rw [walkFrom, h]

/-- A walk with no visits left goes no further. -/
theorem walkFrom_zero (moment : Moment) (w : Wrapper) (h : c.slots[i]? = some slot) :
    walkFrom moment 0 c i w = { ending := .failed (.hopLimit c.hopLimit), chain := c } := by
  rw [walkFrom, h]

/-- A visit may be the last one of a walk. -/
theorem walkFrom_done (moment : Moment) (hops : Nat) (w : Wrapper) {ending : Ending}
    (h : c.slots[i]? = some slot) (hn : (visit moment c i slot w).visit.next = .done ending) :
    walkFrom moment (hops + 1) c i w =
      { ending
        chain := (visit moment c i slot w).chain
        visits := [(visit moment c i slot w).visit]
        named := (visit moment c i slot w).named } := by
  rw [walkFrom, h]
  dsimp only
  rw [hn]

/-- A visit may lead to another place, where the walk goes on with one visit less. -/
theorem walkFrom_go (moment : Moment) (hops : Nat) (w : Wrapper) {j : Nat} {w' : Wrapper}
    (h : c.slots[i]? = some slot) (hn : (visit moment c i slot w).visit.next = .go j w') :
    walkFrom moment (hops + 1) c i w =
      let s := visit moment c i slot w
      let rest := walkFrom (moment.next s.named) hops s.chain j w'
      { rest with visits := s.visit :: rest.visits, named := s.named + rest.named } := by
  rw [walkFrom, h]
  dsimp only
  rw [hn]

/-- Every walk may make a visit. -/
theorem walk_done (moment : Moment) (w : Wrapper) {ending : Ending} (h : c.slots[i]? = some slot)
    (hn : (visit moment c i slot w).visit.next = .done ending) :
    (c.walk moment i w).ending = ending ∧
      (c.walk moment i w).chain = (visit moment c i slot w).chain := by
  have hhops : c.hopLimit = (c.hopLimit - 1) + 1 :=
    (Nat.sub_add_cancel (Nat.le_max_right c.maxHops 1)).symm
  rw [walk, hhops, walkFrom_done moment _ w h hn]
  exact ⟨rfl, rfl⟩

end Equations

theorem visit_withPending (moment : Moment) (c : Chain σ) (families : List Generation) (i : Nat)
    (slot : Slot σ) (w : Wrapper) :
    visit moment (c.withPending families) i slot w =
      (visit moment c i slot w).withPending families := by
  unfold visit
  dsimp only
  split <;> rfl

/-- A walk does not look at the pending families. -/
theorem walkFrom_withPending (families : List Generation) (moment : Moment) (hops : Nat)
    (c : Chain σ) (i : Nat) (w : Wrapper) :
    walkFrom moment hops (c.withPending families) i w =
      (walkFrom moment hops c i w).withPending families := by
  fun_induction walkFrom moment hops c i w with
  | case1 moment hops c i w hs => exact walkFrom_end moment hops w hs
  | case2 moment c i w slot hs => exact walkFrom_zero moment w hs
  | case3 moment c i w slot hs hops s ending hn =>
    have hv := visit_withPending moment c families i slot w
    have hn' : (visit moment (c.withPending families) i slot w).visit.next = .done ending := by
      rw [hv]
      exact hn
    refine (walkFrom_done moment hops w (c := c.withPending families) hs hn').trans ?_
    rw [hv]
    rfl
  | case4 moment c i w slot hs hops s j w' hn rest ih =>
    have hv := visit_withPending moment c families i slot w
    have hn' : (visit moment (c.withPending families) i slot w).visit.next = .go j w' := by
      rw [hv]
      exact hn
    refine (walkFrom_go moment hops w (c := c.withPending families) hs hn').trans ?_
    rw [hv]
    exact congrArg (fun r : Walk σ ↦
      { r with visits := s.visit :: r.visits, named := s.named + r.named }) ih

@[simp] theorem stage_visit (moment : Moment) (c : Chain σ) (i : Nat) (slot : Slot σ) (w : Wrapper) :
    (visit moment c i slot w).visit.stage = i := by
  unfold visit
  dsimp only
  split <;> rfl

/-- What a visit leads to is what the stage decided, unless the message has not the view that the
stage expects. -/
theorem next_visit (moment : Moment) (c : Chain σ) (i : Nat) (slot : Slot σ) (w : Wrapper) :
    (∃ e, (visit moment c i slot w).visit.next = .done (.failed e)) ∨
      (visit moment c i slot w).visit.next =
        (follow slot (c.route i) i (Behaviour.process moment slot.stage
          (w.mergeMetadata slot.routing.metadata)).outcome).1 := by
  unfold visit
  dsimp only
  split
  · exact .inl ⟨_, rfl⟩
  · exact .inr rfl

/-- A message goes on from a stage that decided about it. -/
theorem done_of_follow_go {slot : Slot σ} {r : Route} {i j : Nat} {w' : Wrapper} {o : Outcome}
    (h : (follow slot r i o).1 = .go j w') :
    (∃ w, o = .done w) ∧ (j = r.onward i ∨ r.rejected = some j) := by
  cases o with
  | done w => exact ⟨⟨w, rfl⟩, Route.place_of_branch_go h⟩
  | _ => cases h

/-- A walk ends in pieces at a stage that makes them. -/
theorem generate_of_follow_generated {slot : Slot σ} {r : Route} {i : Nat} {g : Generation}
    {o : Outcome} (h : (follow slot r i o).1 = .done (.generated g)) :
    (∃ w, o = .generate w g.pieces) ∧ g.continuation = r.continuation i := by
  cases o with
  | generate w pieces =>
    cases h
    exact ⟨⟨w, rfl⟩, rfl⟩
  | done w => exact absurd h (Route.branch_ne_generated r i _ g)
  | _ => cases h

/-- A walk ends with a held message at a stage that holds it back. -/
theorem hold_of_follow_held {slot : Slot σ} {r : Route} {i : Nat} {o : Outcome}
    (h : (follow slot r i o).1 = .done .held) : ∃ w, o = .hold w := by
  cases o with
  | hold w => exact ⟨w, rfl⟩
  | done w => cases Route.eq_dropped_of_branch_done h
  | _ => cases h

/-- A visit leaves the chain as it was, or gives the stage its new state. -/
theorem chain_visit (moment : Moment) (c : Chain σ) (i : Nat) (slot : Slot σ) (w : Wrapper) :
    (visit moment c i slot w).chain = c ∨
      (visit moment c i slot w).chain = c.setStage i (Behaviour.process moment slot.stage
        (w.mergeMetadata slot.routing.metadata)).state := by
  unfold visit
  dsimp only
  split
  · exact .inl rfl
  · exact .inr rfl

theorem visit_alike (moment : Moment) (c : Chain σ) (i : Nat) (slot : Slot σ) (w : Wrapper) :
    c.Alike (visit moment c i slot w).chain := by
  rcases chain_visit moment c i slot w with h | h <;> rw [h]
  · exact .refl c
  · exact setStage_alike c i _

/-- A walk changes nothing but the states of stages. -/
theorem walkFrom_alike (moment : Moment) (hops : Nat) (c : Chain σ) (i : Nat) (w : Wrapper) :
    c.Alike (walkFrom moment hops c i w).chain := by
  fun_induction walkFrom moment hops c i w with
  | case1 _ _ c _ _ _ => exact .refl c
  | case2 _ c _ _ _ _ => exact .refl c
  | case3 moment c i w slot _ _ s _ _ => exact visit_alike moment c i slot w
  | case4 moment c i w slot _ _ s _ _ _ _ ih => exact (visit_alike moment c i slot w).trans ih

@[simp] theorem pending_walk (moment : Moment) (c : Chain σ) (i : Nat) (w : Wrapper) :
    (c.walk moment i w).chain.pending = c.pending :=
  (walkFrom_alike moment c.hopLimit c i w).pending

theorem walk_withPending (families : List Generation) (moment : Moment) (c : Chain σ) (i : Nat)
    (w : Wrapper) :
    (c.withPending families).walk moment i w = (c.walk moment i w).withPending families :=
  walkFrom_withPending families moment c.hopLimit c i w

/-- A walk makes no more visits than it has left. -/
theorem length_visits_walkFrom_le (moment : Moment) (hops : Nat) (c : Chain σ) (i : Nat)
    (w : Wrapper) : (walkFrom moment hops c i w).visits.length ≤ hops := by
  fun_induction walkFrom moment hops c i w with
  | case1 => exact Nat.zero_le _
  | case2 => exact Nat.le_refl 0
  | case3 => exact Nat.succ_le_succ (Nat.zero_le _)
  | case4 _ _ _ _ _ _ _ _ _ _ _ _ ih => exact Nat.succ_le_succ ih

end Chain

end Conduit
