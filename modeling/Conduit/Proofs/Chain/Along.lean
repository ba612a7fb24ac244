import Conduit.Proofs.Chain.Redirects
import Conduit.Proofs.Dictionary

/-!
# What is carried along a walk

A walk hands a wrapper on from stage to stage. What is said of the wrapper and of the visits so far,
and is still said of what a visit hands on and of the visits with that one, is said at every stage on
entry and of what is delivered at the end (`Chain.Carries.walkFrom`). A walk ends by its last visit,
at the hop limit, or behind the last stage.
-/

namespace Conduit

open Stage

variable {σ : Type}

/-! ## Copies -/

namespace NameSet

def addAll (s : NameSet) (names : List String) : NameSet := names.foldl add s

theorem contains_addAll (s : NameSet) (names : List String) (name : String) :
    (s.addAll names).contains name = true ↔ s.contains name = true ∨ name ∈ names := by
  induction names generalizing s with
  | nil => simp [addAll]
  | cons first rest ih =>
    refine (ih (s.add first)).trans ?_
    rw [add, Dictionary.contains, Dictionary.get?_insert, List.mem_cons]
    by_cases h : name = first <;> simp [h, Dictionary.contains]

end NameSet

theorem wrapper_publications (w : Wrapper) (names : List String) :
    (publications w names).2 = { w with redirects := w.redirects.addAll names } := by
  induction names generalizing w with
  | nil => rfl
  | cons name rest ih => exact ih { w with redirects := w.redirects.add name }

/-- A copy names the queues up to its own. -/
theorem getElem?_publications {w : Wrapper} {names : List String} {j : Nat} {p : Publication}
    (h : (publications w names).1[j]? = some p) :
    names[j]? = some p.queue ∧
      p.copy = { w with redirects := w.redirects.addAll (names.take (j + 1)) } := by
  induction names generalizing w j with
  | nil => cases h
  | cons name rest ih =>
    cases j with
    | zero =>
      cases h
      exact ⟨rfl, rfl⟩
    | succ j => exact ih h

/-- What goes on is accepted, whatever was decided. -/
theorem Route.wrapper_of_branch_go {r : Route} {i j : Nat} {w w' : Wrapper}
    (h : r.branch i w = .go j w') : w' = { w with accepted := true } := by
  unfold branch at h
  split at h
  · rename_i haccepted
    cases h
    rw [← haccepted]
  · split at h <;> cases h
    rfl

namespace Chain

variable [Behaviour σ]

/-! ## What a visit leads to -/

section

variable {slot : Slot σ} {r : Route} {i j : Nat} {o : Outcome} {w' : Wrapper}

/-- What goes on is the wrapper as the stage left it, accepted and with the names of the queues. -/
theorem wrapper_of_follow_go (h : (follow slot r i o).1 = .go j w') :
    ∃ u, o = .done u ∧ w' = { u with
      accepted := true
      redirects := u.redirects.addAll slot.routing.redirect } := by
  cases o with
  | done u =>
    refine ⟨u, rfl, ?_⟩
    rw [Route.wrapper_of_branch_go h, wrapper_publications]
    split <;> rfl
  | _ => cases h

/-- What a queue gets is the wrapper as the stage left it, with the names of the queues so far. -/
theorem copy_of_follow {p : Publication} (h : (follow slot r i o).2[j]? = some p) :
    ∃ u, o.wrapper? = some u ∧ slot.routing.redirect[j]? = some p.queue ∧
      p.copy = { u with
        accepted := p.copy.accepted
        redirects := u.redirects.addAll (slot.routing.redirect.take (j + 1)) } := by
  cases o with
  | done u =>
    refine ⟨u, rfl, (getElem?_publications h).1, ?_⟩
    rw [(getElem?_publications h).2]
    split <;> rfl
  | generate u pieces =>
    obtain ⟨hqueue, hcopy⟩ := getElem?_publications h
    exact ⟨u, rfl, hqueue, by rw [hcopy]⟩
  | hold u =>
    obtain ⟨hqueue, hcopy⟩ := getElem?_publications h
    exact ⟨u, rfl, hqueue, by rw [hcopy]⟩
  | failed e => cases h
  | crashed => cases h

end

/-- A stage is shown the message with its own metadata. Unless the message has not the view that the
stage expects, what is done is up to the stage. -/
theorem visit_cases (moment : Moment) (c : Chain σ) (i : Nat) (slot : Slot σ) (w : Wrapper) :
    let s := visit moment c i slot w
    s.visit.entered = w.mergeMetadata slot.routing.metadata ∧
      ((s.chain = c ∧ s.visit.published = [] ∧ ∃ e, s.visit.next = .done (.failed e)) ∨
        let r := Behaviour.process moment slot.stage s.visit.entered
        s.chain = c.setStage i r.state ∧
          (s.visit.next, s.visit.published) = follow slot (c.route i) i r.outcome) := by
  dsimp only
  unfold visit
  dsimp only
  split
  · exact ⟨rfl, .inl ⟨rfl, rfl, _, rfl⟩⟩
  · exact ⟨rfl, .inr ⟨rfl, rfl⟩⟩

/-- A message is delivered behind the stages, never by one. -/
theorem next_visit_ne_delivered (moment : Moment) (c : Chain σ) (i : Nat) (slot : Slot σ)
    (w w' : Wrapper) : (visit moment c i slot w).visit.next ≠ .done (.delivered w') := by
  intro hn
  obtain ⟨-, ⟨-, -, e, he⟩ | ⟨-, hfollow⟩⟩ := visit_cases moment c i slot w
  · cases hn.symm.trans he
  · have hnext := (Prod.mk.inj hfollow).1.symm.trans hn
    generalize (Behaviour.process moment slot.stage _).outcome = o at hnext
    cases o with
    | done u => cases Route.eq_dropped_of_branch_done hnext
    | _ => cases hnext

/-! ## Walks -/

/-- What is said of a wrapper and of the visits so far, while the chain has property `J`, is said of
what one more visit hands on; and every visit has property `R`. -/
structure Carries (J : Chain σ → Prop) (I : List Visit → Wrapper → Prop)
    (R : List Visit → Visit → Prop) : Prop where
  visit : ∀ before moment c i slot w, c.slots[i]? = some slot → J c → I before w →
    let s := Chain.visit moment c i slot w
    J s.chain ∧ R before s.visit ∧
      ∀ j w', s.visit.next = .go j w' → I (before ++ [s.visit]) w'

/-- All that a walk carries: the visits have the property, each with the visits before it, and the
walk ends behind the last stage, at the hop limit, or by its last visit. By induction along the
walk, for any visits before it. -/
theorem Carries.walkFrom {J : Chain σ → Prop} {I : List Visit → Wrapper → Prop}
    {R : List Visit → Visit → Prop} (h : Carries J I R) (moment : Moment) (hops : Nat)
    (c : Chain σ) (i : Nat) (w : Wrapper) : ∀ before, J c → I before w →
    let r := Chain.walkFrom moment hops c i w
    J r.chain ∧ (∀ front v back, r.visits = front ++ v :: back → R (before ++ front) v) ∧
      ((∃ w', I (before ++ r.visits) w' ∧
          r.ending = if w'.accepted then .delivered w' else .dropped) ∨
        (∃ n, r.ending = .failed (.hopLimit n)) ∨
        ∃ v, r.visits.getLast? = some v ∧ v.next = .done r.ending ∧
          ∀ w', r.ending ≠ .delivered w') := by
  fun_induction Chain.walkFrom moment hops c i w with
  | case1 _ _ c _ w _ =>
    intro before hc hw
    refine ⟨hc, fun front v back hv ↦ absurd hv (by simp), .inl ⟨w, ?_, rfl⟩⟩
    rwa [List.append_nil]
  | case2 =>
    intro before hc hw
    exact ⟨hc, fun front v back hv ↦ absurd hv (by simp), .inr (.inl ⟨_, rfl⟩)⟩
  | case3 moment c i w slot hs hops s ending hn =>
    intro before hc hw
    obtain ⟨hchain, hvisit, -⟩ := h.visit before moment c i slot w hs hc hw
    refine ⟨hchain, fun front v back hv ↦ ?_, .inr (.inr ⟨s.visit, rfl, hn, ?_⟩)⟩
    · cases front with
      | nil =>
        obtain ⟨rfl, -⟩ := List.cons.inj hv
        rwa [List.append_nil]
      | cons => exact absurd (List.cons.inj hv).2 (by simp)
    · rintro w' rfl
      exact next_visit_ne_delivered moment c i slot w w' hn
  | case4 moment c i w slot hs hops s j w' hn rest ih =>
    intro before hc hw
    obtain ⟨hchain, hvisit, hgo⟩ := h.visit before moment c i slot w hs hc hw
    -- for the rest of the walk, this visit is one of those before
    obtain ⟨hc', hvisits, hend⟩ := ih _ hchain (hgo j w' hn)
    rw [List.append_assoc, List.singleton_append] at hend
    refine ⟨hc', fun front v back hv ↦ ?_, hend.imp_right (Or.imp_right ?_)⟩
    · cases front with
      | nil =>
        obtain ⟨rfl, -⟩ := List.cons.inj hv
        rwa [List.append_nil]
      | cons first front =>
        obtain ⟨rfl, hrest⟩ := List.cons.inj hv
        have := hvisits front v back hrest
        rwa [List.append_assoc, List.singleton_append] at this
    · rintro ⟨v, hlast, hv⟩
      refine ⟨v, ?_, hv⟩
      rw [List.getLast?_cons, hlast]
      rfl

end Chain

end Conduit
