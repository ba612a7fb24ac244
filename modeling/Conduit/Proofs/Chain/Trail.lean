import Conduit.Proofs.Chain.Call

/-!
# The trail of visits

A call is made of walks and a walk of visits, and all that it does to a chain is done by visits. So
what is said of the visits made so far and of the chain that they leave, whatever is pending, and is
kept by one more visit, is kept by walks and calls (`Chain.Trails`).
-/

namespace Conduit

open Stage

variable {σ : Type} [Behaviour σ]

/-- What is said of visits and of the chain after them is kept by one more visit. -/
structure Chain.Trails (P : List Visit → Chain σ → Prop) : Prop where
  withPending : ∀ visits c families, P visits c → P visits (c.withPending families)
  visit : ∀ visits moment c i slot w, c.slots[i]? = some slot → P visits c →
    P (visits ++ [(Chain.visit moment c i slot w).visit]) (Chain.visit moment c i slot w).chain

namespace Chain.Trails

variable {P : List Visit → Chain σ → Prop}

theorem walkFrom (h : Trails P) (moment : Moment) (hops : Nat) (c : Chain σ) (i : Nat)
    (w : Wrapper) : ∀ visits, P visits c → P (visits ++ (Chain.walkFrom moment hops c i w).visits)
      (Chain.walkFrom moment hops c i w).chain := by
  fun_induction Chain.walkFrom moment hops c i w with
  | case1 => exact fun visits hc ↦ by rwa [List.append_nil]
  | case2 => exact fun visits hc ↦ by rwa [List.append_nil]
  | case3 moment c i w slot hs hops s ending hn =>
    exact fun visits hc ↦ h.visit visits moment c i slot w hs hc
  | case4 moment c i w slot hs hops s j w' hn rest ih =>
    intro visits hc
    have := ih _ (h.visit visits moment c i slot w hs hc)
    rwa [List.append_assoc] at this

/-- It is true of a call as far as it has come. -/
def Along (P : List Visit → Chain σ → Prop) (c : Call σ) : Prop := P c.visits c.chain

theorem send (h : Trails P) (clock : Clock) {c : Call σ} (i : Nat) (w : Wrapper)
    (hc : Along P c) : Along P (c.send clock i w) :=
  h.withPending _ _ _ (h.walkFrom (c.moment clock) _ c.chain i w c.visits hc)

omit [Behaviour σ] in
theorem andThen {c : Call σ} {f : Call σ → Call σ} (hc : Along P c)
    (hf : ∀ c, Along P c → Along P (f c)) : Along P (c.andThen f) := by
  unfold Call.andThen
  split
  · exact hf c hc
  · exact hc

theorem drain (h : Trails P) (clock : Clock) (patience : Nat) {c : Call σ} (hc : Along P c) :
    Along P (Call.drain clock patience c) := by
  fun_induction Call.drain clock patience c with
  | case1 => exact hc
  | case2 => exact hc
  | case3 => exact hc
  | case4 patience c i rest hp ih => exact ih (h.withPending _ _ _ hc)
  | case5 patience c i m more rest hp popped sent hs ih =>
    exact ih (h.send clock i _ (h.withPending _ _ _ hc))
  | case6 patience c i m more rest hp popped sent hs =>
    exact h.send clock i _ (h.withPending _ _ _ hc)

theorem process (h : Trails P) (patience : Nat) (moment : Moment) {c : Chain σ} (m : Message)
    (hc : P [] c) : Along P (c.process patience moment m) := by
  have hopen : Along P ({ chain := c, fresh := moment.fresh } : Call σ) := hc
  refine andThen (h.drain _ _ hopen) fun d hd ↦ ?_
  exact andThen (h.send _ _ _ hd) fun e he ↦ h.drain _ _ he

/-- The stage that is told of a timer must keep the property on its own account. -/
theorem expire (h : Trails P) (patience : Nat) (moment : Moment) {c : Chain σ} {i : Nat}
    {token : UInt64} (hnone : c.slots[i]? = none → P [] c)
    (hc : ∀ slot, c.slots[i]? = some slot →
      P [] (c.setStage i (Behaviour.expire moment.now slot.stage token).state)) :
    Along P (c.expire patience moment i token) := by
  unfold Chain.expire
  split
  · rename_i hs
    exact hnone hs
  · rename_i slot hs
    have hset : Along P ({
        chain := c.setStage i (Behaviour.expire moment.now slot.stage token).state
        fresh := moment.fresh } : Call σ) := hc slot hs
    refine andThen ?_ fun d hd ↦ h.drain _ _ hd
    split
    · exact hset
    · exact h.send _ _ _ hset
    · exact hset

end Chain.Trails

end Conduit
