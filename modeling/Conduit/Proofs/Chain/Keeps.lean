import Conduit.Proofs.Chain.Trail

/-!
# What a visit keeps, a call keeps

A call is made of walks and a walk of visits. So a property of chains that does not look at the
pending families, and that every visit keeps, is kept by walks and calls; and what then holds of
every visit that can be made holds of all visits in the record of a call. The end of a walk is the
end of the chain, the hop limit, or what its last visit led to (`exists_visit_of_ending`).
-/

namespace Conduit

open Stage

variable {σ : Type} [Behaviour σ]

/-- Every visit of a chain with property `R` keeps it and has property `Q`. -/
structure Chain.Keeps (R : Chain σ → Prop) (Q : Visit → Prop) : Prop where
  withPending : ∀ c families, R c → R (c.withPending families)
  visit : ∀ moment c i slot w, c.slots[i]? = some slot → R c →
    R (Chain.visit moment c i slot w).chain ∧ Q (Chain.visit moment c i slot w).visit

namespace Chain.Keeps

variable {R : Chain σ → Prop} {Q : Visit → Prop}

theorem trails (h : Keeps R Q) : Trails fun visits c ↦ R c ∧ ∀ v ∈ visits, Q v where
  withPending _ c families hc := ⟨h.withPending c families hc.1, hc.2⟩
  visit visits moment c i slot w hs hc := by
    obtain ⟨hR, hQ⟩ := h.visit moment c i slot w hs hc.1
    exact ⟨hR, List.forall_mem_append.2 ⟨hc.2, by simpa using hQ⟩⟩

theorem walkFrom (h : Keeps R Q) (moment : Moment) (hops : Nat) {c : Chain σ} (i : Nat)
    (w : Wrapper) (hc : R c) :
    R (Chain.walkFrom moment hops c i w).chain ∧
      ∀ v ∈ (Chain.walkFrom moment hops c i w).visits, Q v :=
  h.trails.walkFrom moment hops c i w [] ⟨hc, by simp⟩

/-- A call through a chain with property `R` in which all visits have property `Q`. -/
def Kept (R : Chain σ → Prop) (Q : Visit → Prop) (c : Call σ) : Prop :=
  R c.chain ∧ ∀ v ∈ c.visits, Q v

omit [Behaviour σ] in
theorem andThen {c : Call σ} {f : Call σ → Call σ} (hc : Kept R Q c)
    (hf : ∀ c, Kept R Q c → Kept R Q (f c)) : Kept R Q (c.andThen f) :=
  Trails.andThen (P := fun visits c ↦ R c ∧ ∀ v ∈ visits, Q v) hc hf

theorem process (h : Keeps R Q) (patience : Nat) (moment : Moment) {c : Chain σ} (m : Message)
    (hc : R c) : Kept R Q (c.process patience moment m) :=
  h.trails.process patience moment m ⟨hc, by simp⟩

theorem processAll (h : Keeps R Q) (patience : Nat) (moment : Moment) {c : Chain σ}
    (ms : List Message) (hc : R c) : Kept R Q (c.processAll patience moment ms) := by
  induction ms generalizing moment c with
  | nil => exact ⟨hc, fun v hv ↦ absurd hv List.not_mem_nil⟩
  | cons m ms ih =>
    refine andThen (h.process patience moment m hc) fun first hfirst ↦ ?_
    obtain ⟨hR, hQ⟩ := ih ⟨moment.clock.later first.visits.length, first.fresh⟩ hfirst.1
    refine ⟨hR, fun v hv ↦ ?_⟩
    exact (List.mem_append.1 hv).elim (hfirst.2 v) (hQ v)

/-- The stage that is told of a timer must keep the property on its own account. -/
theorem expire (h : Keeps R Q) (patience : Nat) (moment : Moment) {c : Chain σ} {i : Nat}
    (token : UInt64)
    (hc : ∀ slot, c.slots[i]? = some slot →
      R (c.setStage i (Behaviour.expire moment.now slot.stage token).state))
    (hnone : c.slots[i]? = none → R c) :
    Kept R Q (c.expire patience moment i token) :=
  h.trails.expire patience moment (fun hs ↦ ⟨hnone hs, by simp⟩) fun slot hs ↦ ⟨hc slot hs, by simp⟩

end Chain.Keeps

/-! ## How walks end -/

namespace Chain

theorem exists_visit_of_ending {moment : Moment} {hops : Nat} {c : Chain σ} {i : Nat}
    {w : Wrapper} :
    (∃ w', (walkFrom moment hops c i w).ending = .delivered w') ∨
      (walkFrom moment hops c i w).ending = .dropped ∨
      (∃ n, (walkFrom moment hops c i w).ending = .failed (.hopLimit n)) ∨
      ∃ v ∈ (walkFrom moment hops c i w).visits,
        v.next = .done (walkFrom moment hops c i w).ending := by
  fun_induction walkFrom moment hops c i w with
  | case1 _ _ _ _ w _ =>
    cases w.accepted
    · exact .inr (.inl rfl)
    · exact .inl ⟨w, rfl⟩
  | case2 => exact .inr (.inr (.inl ⟨_, rfl⟩))
  | case3 moment c i w slot hs hops s ending hn =>
    exact .inr (.inr (.inr ⟨s.visit, List.mem_cons_self, hn⟩))
  | case4 moment c i w slot hs hops s j w' hn rest ih =>
    refine ih.imp_right (Or.imp_right (Or.imp_right ?_))
    rintro ⟨v, hv, he⟩
    exact ⟨v, List.mem_cons_of_mem _ hv, he⟩

end Chain

end Conduit
