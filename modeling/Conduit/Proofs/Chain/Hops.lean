import Conduit.Proofs.Chain.Patience
import Conduit.Stage.Kind

/-!
# The hop limit

A walk that knows no limit goes on until it ends (`Chain.Ends`), or it goes on for ever. The limit
of a chain cuts off the walks that come to more stages than it allows (`Chain.Exceeds`), after
exactly as many visits, and changes nothing about the others (`Chain.Budget`). So a call in which no
message comes to the limit is the same under every larger one (`Call.drain_withMaxHops`).
-/

namespace Conduit

open Stage

variable {σ : Type}

/-! ## Other limits -/

/-- The chain with another limit. -/
def Chain.withMaxHops (c : Chain σ) (n : Nat) : Chain σ := { c with maxHops := n }

/-- A step, with another limit. -/
def Step.withMaxHops (s : Step σ) (n : Nat) : Step σ := { s with chain := s.chain.withMaxHops n }

/-- What a walk leaves, with another limit. -/
def Chain.Walk.withMaxHops (w : Chain.Walk σ) (n : Nat) : Chain.Walk σ :=
  { w with chain := w.chain.withMaxHops n }

/-- The call, with another limit. -/
def Call.withMaxHops (c : Call σ) (n : Nat) : Call σ := { c with chain := c.chain.withMaxHops n }

variable [Behaviour σ]

namespace Chain

theorem visit_withMaxHops (moment : Moment) (c : Chain σ) (n : Nat) (i : Nat) (slot : Slot σ)
    (w : Wrapper) :
    visit moment (c.withMaxHops n) i slot w = (visit moment c i slot w).withMaxHops n := by
  unfold visit
  dsimp only
  split <;> rfl

/-- No visit changes the limit. -/
theorem hopLimit_visit (moment : Moment) (c : Chain σ) (i : Nat) (slot : Slot σ) (w : Wrapper) :
    (visit moment c i slot w).chain.hopLimit = c.hopLimit :=
  congrArg (max · 1) (visit_alike moment c i slot w).maxHops

theorem trails_hopLimit (n : Nat) : Trails fun _ (c : Chain σ) ↦ c.hopLimit = n where
  withPending _ _ _ h := h
  visit _ moment c i slot w _ h := (hopLimit_visit moment c i slot w).trans h

/-! ## Walks without a limit -/

/-- A walk that knows no limit ends, and this is what it leaves. -/
inductive Ends : Moment → Chain σ → Nat → Wrapper → Walk σ → Prop
  | behind {moment : Moment} {c : Chain σ} {i : Nat} {w : Wrapper} : c.slots[i]? = none →
      Ends moment c i w { ending := if w.accepted then .delivered w else .dropped, chain := c }
  | last {moment : Moment} {c : Chain σ} {i : Nat} {w : Wrapper} {slot : Slot σ} {s : Step σ}
      {ending : Ending} : c.slots[i]? = some slot → visit moment c i slot w = s →
      s.visit.next = .done ending →
      Ends moment c i w { ending, chain := s.chain, visits := [s.visit], named := s.named }
  | further {moment : Moment} {c : Chain σ} {i j : Nat} {w w' : Wrapper} {slot : Slot σ}
      {s : Step σ} {rest : Walk σ} : c.slots[i]? = some slot → visit moment c i slot w = s →
      s.visit.next = .go j w' →
      Ends (moment.next s.named) s.chain j w' rest →
      Ends moment c i w
        { rest with visits := s.visit :: rest.visits, named := s.named + rest.named }

/-- A walk that knows no limit comes to more than a number of stages, whether it ends or not. -/
inductive Exceeds : Nat → Moment → Chain σ → Nat → Wrapper → Prop
  | here {moment : Moment} {c : Chain σ} {i : Nat} {w : Wrapper} {slot : Slot σ} :
      c.slots[i]? = some slot → Exceeds 0 moment c i w
  | further {n : Nat} {moment : Moment} {c : Chain σ} {i j : Nat} {w w' : Wrapper}
      {slot : Slot σ} {s : Step σ} : c.slots[i]? = some slot → visit moment c i slot w = s →
      s.visit.next = .go j w' →
      Exceeds n (moment.next s.named) s.chain j w' →
      Exceeds (n + 1) moment c i w

/-- Visits that have called their stages, one after the other. A stage, as the visits before have
left it, is shown the message that its visit entered, which has the view that it expects, and the
visit goes on as its response says. -/
inductive Invoked : Moment → Chain σ → List Visit → Prop
  | none {moment : Moment} {c : Chain σ} : Invoked moment c []
  | call {moment : Moment} {c : Chain σ} {slot : Slot σ} {v : Visit} {r : Response σ}
      {later : List Visit} : c.slots[v.stage]? = some slot →
      meets slot.routing.expect v.entered.working = .ok () →
      Behaviour.process moment slot.stage v.entered = r →
      follow slot (c.route v.stage) v.stage r.outcome = (v.next, v.published) →
      r.timers = v.timers →
      Invoked (moment.next r.named) (c.setStage v.stage r.state) later →
      Invoked moment c (v :: later)

section

variable {n : Nat} {moment : Moment} {c : Chain σ} {i : Nat} {w : Wrapper} {v : Walk σ}

/-- Either a walk ends within a number of visits, or it comes to more stages. -/
theorem exceeds_or_ends (n : Nat) (moment : Moment) (c : Chain σ) (i : Nat) (w : Wrapper) :
    Exceeds n moment c i w ∨ ∃ v, Ends moment c i w v ∧ v.visits.length ≤ n := by
  -- by the number, not along the walk, which may have no end
  induction n generalizing moment c i w with
  | zero =>
    cases hs : c.slots[i]? with
    | none => exact .inr ⟨_, .behind hs, Nat.le_refl 0⟩
    | some slot => exact .inl (.here hs)
  | succ n ih =>
    cases hs : c.slots[i]? with
    | none => exact .inr ⟨_, .behind hs, Nat.zero_le _⟩
    | some slot =>
      cases hn : (visit moment c i slot w).visit.next with
      | done ending => exact .inr ⟨_, .last hs rfl hn, Nat.succ_le_succ (Nat.zero_le n)⟩
      | go j w' =>
        rcases ih _ (visit moment c i slot w).chain j w' with hmore | ⟨rest, hends, hle⟩
        · exact .inl (.further hs rfl hn hmore)
        · exact .inr ⟨_, .further hs rfl hn hends, Nat.succ_le_succ hle⟩

/-- A walk that ends comes to as many stages as it visits. -/
theorem Ends.exceeds_iff (h : Ends moment c i w v) :
    Exceeds n moment c i w ↔ n < v.visits.length := by
  induction h generalizing n with
  | behind hs =>
    refine ⟨fun hmore ↦ ?_, fun hless ↦ absurd hless (Nat.not_lt_zero n)⟩
    cases hmore with
    | here hs' => cases hs.symm.trans hs'
    | further hs' => cases hs.symm.trans hs'
  | last hs hv hn =>
    constructor
    · intro hmore
      cases hmore with
      | here => exact Nat.zero_lt_one
      | further hs' hv' hn' =>
        cases hs.symm.trans hs'
        cases hv.symm.trans hv'
        cases hn.symm.trans hn'
    · intro hless
      obtain rfl : n = 0 := Nat.lt_one_iff.1 hless
      exact .here hs
  | further hs hv hn _ ih =>
    constructor
    · intro hmore
      cases hmore with
      | here => exact Nat.succ_pos _
      | further hs' hv' hn' hrest =>
        cases hs.symm.trans hs'
        cases hv.symm.trans hv'
        cases hn.symm.trans hn'
        exact Nat.succ_lt_succ (ih.1 hrest)
    · intro hless
      cases n with
      | zero => exact .here hs
      | succ n => exact .further hs hv hn (ih.2 (Nat.lt_of_succ_lt_succ hless))

/-- A walk comes to more stages than a number if it visits more before it ends, or never ends. -/
theorem exceeds_iff : Exceeds n moment c i w ↔ ∀ v, Ends moment c i w v → n < v.visits.length := by
  refine ⟨fun hmore v hends ↦ hends.exceeds_iff.1 hmore, fun h ↦ ?_⟩
  rcases exceeds_or_ends n moment c i w with hmore | ⟨v, hends, hle⟩
  · exact hmore
  · exact absurd (h v hends) (Nat.not_lt.2 hle)

/-- A walk without a limit does not look at the limit. -/
theorem Ends.withMaxHops (h : Ends moment c i w v) (n : Nat) :
    Ends moment (c.withMaxHops n) i w (v.withMaxHops n) := by
  have hvisit {moment : Moment} {c : Chain σ} {i : Nat} {slot : Slot σ} {w : Wrapper} {s : Step σ}
      (hv : visit moment c i slot w = s) :
      visit moment (c.withMaxHops n) i slot w = s.withMaxHops n := by
    rw [visit_withMaxHops, hv]
  induction h with
  | behind hs => exact .behind hs
  | @last _ c _ _ _ s _ hs hv hn =>
    exact .last (c := c.withMaxHops n) (s := s.withMaxHops n) hs (hvisit hv) hn
  | @further _ c _ _ _ _ _ s _ hs hv hn _ ih =>
    exact .further (c := c.withMaxHops n) (s := s.withMaxHops n) hs (hvisit hv) hn ih

/-- A stage that breaks off a walk does so with an error of its own. -/
theorem next_visit_ne_hopLimit (moment : Moment) (c : Chain σ) (i : Nat) (slot : Slot σ)
    (w : Wrapper) (n : Nat) :
    (visit moment c i slot w).visit.next ≠ .done (.failed (.hopLimit n)) := by
  intro hn
  unfold visit at hn
  dsimp only at hn
  split at hn
  · cases hn
  · generalize (Behaviour.process moment slot.stage _).outcome = o at hn
    cases o with
    | done w => cases Route.eq_dropped_of_branch_done hn
    | _ => cases hn

theorem Ends.ending_ne_hopLimit (h : Ends moment c i w v) (n : Nat) :
    v.ending ≠ .failed (.hopLimit n) := by
  induction h with
  | @behind _ _ _ w _ => cases w.accepted <;> simp
  | @last moment c i w slot s ending hs hv hn =>
    rintro rfl
    exact next_visit_ne_hopLimit moment c i slot w n (hv ▸ hn)
  | further _ _ _ _ ih => exact ih

/-- A visit that leads on has called its stage. -/
theorem invoked_of_go {slot : Slot σ} {j : Nat} {w' : Wrapper} {later : List Visit}
    (hs : c.slots[i]? = some slot) (hn : (visit moment c i slot w).visit.next = .go j w')
    (h : Invoked (moment.next (visit moment c i slot w).named) (visit moment c i slot w).chain
      later) :
    Invoked moment c ((visit moment c i slot w).visit :: later) := by
  unfold visit at hn h ⊢
  dsimp only at hn h ⊢
  cases hmeets : meets slot.routing.expect (w.mergeMetadata slot.routing.metadata).working with
  | error e =>
    rw [hmeets] at hn
    cases hn
  | ok =>
    rw [hmeets] at h
    exact .call hs hmeets rfl rfl rfl h

/-! ## What the limit does -/

/-- A walk that ends within the visits that it has left ends in the same way. -/
theorem Ends.walkFrom_eq {hops : Nat} (h : Ends moment c i w v) (hle : v.visits.length ≤ hops) :
    walkFrom moment hops c i w = v := by
  induction h generalizing hops with
  | behind hs => exact walkFrom_end _ _ _ hs
  | last hs hv hn =>
    subst hv
    obtain ⟨hops, rfl⟩ := Nat.exists_eq_add_of_le' hle
    exact walkFrom_done _ hops _ hs hn
  | further hs hv hn _ ih =>
    subst hv
    obtain ⟨hops, rfl⟩ := Nat.exists_eq_add_of_le' (Nat.le_trans (Nat.le_add_left 1 _) hle)
    rw [walkFrom_go _ hops _ hs hn]
    dsimp only
    rw [ih (Nat.le_of_succ_le_succ hle)]

/-- A walk that comes to more stages than it has visits left makes all these visits, calls a stage
in each, and is cut off. -/
theorem Exceeds.walkFrom {hops : Nat} (h : Exceeds hops moment c i w) :
    (walkFrom moment hops c i w).ending = .failed (.hopLimit c.hopLimit) ∧
      (walkFrom moment hops c i w).visits.length = hops ∧
      Invoked moment c (walkFrom moment hops c i w).visits := by
  induction h with
  | @here moment c i w slot hs =>
    rw [walkFrom_zero moment w hs]
    exact ⟨rfl, rfl, .none⟩
  | @further hops moment c i j w w' slot s hs hv hn _ ih =>
    subst hv
    obtain ⟨hending, hlength, hinvoked⟩ := ih
    rw [walkFrom_go moment hops w hs hn]
    refine ⟨?_, congrArg (· + 1) hlength, invoked_of_go hs hn hinvoked⟩
    exact hending.trans (by rw [hopLimit_visit])

end

/-- What the limit of a chain means for a walk. -/
structure Budget (moment : Moment) (c : Chain σ) (i : Nat) (w : Wrapper) : Prop where
  /-- No walk makes more visits. -/
  bounded : (c.walk moment i w).visits.length ≤ c.hopLimit
  /-- The walks that come to more stages are cut off, and no others. -/
  limited : ∀ n, (c.walk moment i w).ending = .failed (.hopLimit n) ↔
    n = c.hopLimit ∧ Exceeds c.hopLimit moment c i w
  /-- They have made all the visits that the limit allows, and called a stage in each. -/
  spent : Exceeds c.hopLimit moment c i w →
    (c.walk moment i w).visits.length = c.hopLimit ∧ Invoked moment c (c.walk moment i w).visits
  /-- All others are the walks that they are without a limit. -/
  ends : ¬ Exceeds c.hopLimit moment c i w → Ends moment c i w (c.walk moment i w)
  /-- They are the same under every larger limit. -/
  larger : ¬ Exceeds c.hopLimit moment c i w → ∀ n, c.hopLimit ≤ (c.withMaxHops n).hopLimit →
    (c.withMaxHops n).walk moment i w = (c.walk moment i w).withMaxHops n

theorem budget_walk (moment : Moment) (c : Chain σ) (i : Nat) (w : Wrapper) :
    Budget moment c i w := by
  have hcut (h : Exceeds c.hopLimit moment c i w) := h.walkFrom
  have hwhole (h : ¬ Exceeds c.hopLimit moment c i w) : Ends moment c i w (c.walk moment i w) := by
    obtain ⟨v, hends, hle⟩ := (exceeds_or_ends c.hopLimit moment c i w).resolve_left h
    rwa [walk, hends.walkFrom_eq hle]
  have hbounded : (c.walk moment i w).visits.length ≤ c.hopLimit :=
    length_visits_walkFrom_le moment c.hopLimit c i w
  exact
    { bounded := hbounded
      limited := fun n ↦ by
        constructor
        · intro hending
          by_cases h : Exceeds c.hopLimit moment c i w
          · cases (hcut h).1.symm.trans hending
            exact ⟨rfl, h⟩
          · exact absurd hending ((hwhole h).ending_ne_hopLimit n)
        · rintro ⟨rfl, h⟩
          exact (hcut h).1
      spent := fun h ↦ (hcut h).2
      ends := hwhole
      larger := fun h n hle ↦
        ((hwhole h).withMaxHops n).walkFrom_eq (Nat.le_trans hbounded hle) }

end Chain

/-! ## Calls -/

namespace Call

variable {clock : Clock} {n : Nat}

/-- No message was cut off at the limit. -/
def Uncut (c : Call σ) : Prop := ∀ n, PipelineError.hopLimit n ∉ c.output.errors

theorem uncut_of_send {c : Call σ} {i : Nat} {w : Wrapper} (h : (c.send clock i w).Uncut) :
    c.Uncut ∧ ∀ n, (c.walk clock i w).ending ≠ .failed (.hopLimit n) := by
  refine ⟨fun n hn ↦ h n (List.mem_append_left _ hn), fun n hn ↦ h n ?_⟩
  refine List.mem_append_right c.output.errors ?_
  change _ ∈ (outputOf (c.walk clock i w).ending).errors
  rw [hn]
  exact List.mem_singleton_self _

/-- What a call has noted stays noted. -/
theorem uncut_of_drain {patience : Nat} {c : Call σ}
    (h : (drain clock patience c).Uncut) : c.Uncut := by
  fun_induction drain clock patience c with
  | case1 => exact h
  | case2 => exact h
  | case3 => exact h
  | case4 _ _ _ _ _ ih => exact ih h
  | case5 _ _ _ _ _ _ _ _ _ _ ih => exact (uncut_of_send (ih h)).1
  | case6 => exact (uncut_of_send h).1

/-- A message that does not come to the limit does the same under a larger one. -/
theorem send_withMaxHops {c : Call σ} {i : Nat} {w : Wrapper} (h : (c.send clock i w).Uncut)
    (hle : c.chain.hopLimit ≤ (c.chain.withMaxHops n).hopLimit) :
    (c.withMaxHops n).send clock i w = (c.send clock i w).withMaxHops n := by
  have hbudget := Chain.budget_walk (c.moment clock) c.chain i w
  have hwalk := hbudget.larger
    (fun hmore ↦ (uncut_of_send h).2 _ ((hbudget.limited _).2 ⟨rfl, hmore⟩)) n hle
  change (c.withMaxHops n).absorb ((c.chain.withMaxHops n).walk (c.moment clock) i w) = _
  rw [hwalk]
  rfl

theorem hopLimit_send (clock : Clock) (c : Call σ) (i : Nat) (w : Wrapper) :
    (c.send clock i w).chain.hopLimit = c.chain.hopLimit :=
  (Chain.trails_hopLimit c.chain.hopLimit).send clock i w rfl

theorem hopLimit_drain (clock : Clock) (patience : Nat) (c : Call σ) :
    (drain clock patience c).chain.hopLimit = c.chain.hopLimit :=
  (Chain.trails_hopLimit c.chain.hopLimit).drain clock patience rfl

omit [Behaviour σ] in
theorem andThen_withMaxHops {c : Call σ} {f : Call σ → Call σ}
    (hf : c.progress = .returned → f (c.withMaxHops n) = (f c).withMaxHops n) :
    (c.withMaxHops n).andThen f = (c.andThen f).withMaxHops n := by
  cases hc : c.progress with
  | returned =>
    rw [andThen_of_returned f hc, ← hf hc]
    exact andThen_of_returned f hc
  | _ =>
    have hc' : (c.withMaxHops n).progress = c.progress := rfl
    simp only [andThen, hc', hc]

omit [Behaviour σ] in
theorem uncut_of_andThen {c : Call σ} {f : Call σ → Call σ}
    (hf : (f c).Uncut → c.Uncut) (h : (c.andThen f).Uncut) : c.Uncut := by
  unfold andThen at h
  split at h
  · exact hf h
  · exact h

/-- A drain in which no message comes to the limit is the same under a larger one. -/
theorem drain_withMaxHops {patience : Nat} {c : Call σ} (h : (drain clock patience c).Uncut)
    (hle : c.chain.hopLimit ≤ (c.chain.withMaxHops n).hopLimit) :
    drain clock patience (c.withMaxHops n) = (drain clock patience c).withMaxHops n := by
  rw [← atop_pending c] at h ⊢
  generalize c.chain.pending = families at h ⊢
  induction patience generalizing families c with
  | zero => cases families <;> rfl
  | succ patience ih =>
    match families with
    | [] => rw [drain_atop_nil]; exact drain_atop_nil _ (c.withMaxHops n)
    | ⟨i, []⟩ :: rest => exact ih hle rest h
    | ⟨i, m :: more⟩ :: rest =>
      rw [drain_atop_piece] at h ⊢
      have hsent := uncut_of_andThen uncut_of_drain h
      have hsend := send_withMaxHops (c := c.atop _) hsent hle
      have hlimit := hopLimit_send clock (c.atop (⟨i, more⟩ :: rest)) i (.ofMessage m)
      refine (drain_atop_piece patience i (c.withMaxHops n) m more rest).trans ?_
      refine (congrArg (andThen · (drain clock patience)) hsend).trans
        (andThen_withMaxHops fun hs ↦ ?_)
      rw [andThen_of_returned _ hs, ← atop_pending (send ..)] at h
      rw [← atop_pending (send ..)]
      exact ih (Nat.le_trans (Nat.le_of_eq hlimit) hle) _ h

end Call

namespace Chain

/-- A call in which no message comes to the limit is the same under a larger one. -/
theorem process_withMaxHops {patience : Nat} {moment : Moment} {c : Chain σ} {m : Message} {n : Nat}
    (h : (c.process patience moment m).Uncut)
    (hle : c.hopLimit ≤ (c.withMaxHops n).hopLimit) :
    (c.withMaxHops n).process patience moment m = (c.process patience moment m).withMaxHops n := by
  let opened : Call σ := { chain := c, fresh := moment.fresh }
  let drained := opened.drain moment.clock patience
  let sent := drained.send moment.clock 0 (.ofMessage m)
  let sequel (call : Call σ) : Call σ :=
    (call.send moment.clock 0 (.ofMessage m)).andThen (Call.drain moment.clock patience)
  have hdrained : drained.chain.hopLimit ≤ max n 1 :=
    Nat.le_trans (Nat.le_of_eq (Call.hopLimit_drain moment.clock patience opened)) hle
  have hsent : sent.chain.hopLimit ≤ max n 1 :=
    Nat.le_trans (Nat.le_of_eq (Call.hopLimit_send moment.clock drained 0 (.ofMessage m))) hdrained
  have hfirst : drained.Uncut := Call.uncut_of_andThen
    (fun h ↦ (Call.uncut_of_send (Call.uncut_of_andThen Call.uncut_of_drain h)).1) h
  calc (c.withMaxHops n).process patience moment m
    _ = ((opened.withMaxHops n).drain moment.clock patience).andThen sequel := rfl
    _ = (drained.withMaxHops n).andThen sequel := by
      rw [Call.drain_withMaxHops hfirst hle]
    _ = (drained.andThen sequel).withMaxHops n := Call.andThen_withMaxHops fun hs ↦ by
      have h : (sequel drained).Uncut := by
        rwa [← Call.andThen_of_returned sequel hs]
      have hsecond : sent.Uncut := Call.uncut_of_andThen Call.uncut_of_drain h
      have hsend := Call.send_withMaxHops hsecond hdrained
      refine (congrArg (Call.andThen · (Call.drain moment.clock patience)) hsend).trans
        (Call.andThen_withMaxHops fun hs' ↦ Call.drain_withMaxHops ?_ hsent)
      rwa [← Call.andThen_of_returned (Call.drain moment.clock patience) hs']

/-- The limit of a chain is exact: a walk is cut off if it comes to more stages and only then, and
otherwise the limit changes nothing. A call in which no message comes to the limit is the same under
every larger one, whatever is pending, as far as it comes with any patience. -/
theorem hop_budget (c : Chain σ) :
    (∀ moment i w, Budget moment c i w) ∧
      ∀ patience moment m, (∀ n, .hopLimit n ∉ (c.process patience moment m).output.errors) →
        ∀ n, c.hopLimit ≤ (c.withMaxHops n).hopLimit →
          (c.withMaxHops n).process patience moment m =
            (c.process patience moment m).withMaxHops n :=
  ⟨fun moment i w ↦ budget_walk moment c i w, fun _ _ _ h _ hle ↦ process_withMaxHops h hle⟩

/-- Single bytes pass, longer texts are cut and come back in pieces. No message visits more than two
stages. -/
def sieve : Chain Builtin where
  id := "sieve"
  slots := [⟨{ name := some "sieve", gotoPassed := some "out", gotoRejected := some "cut" },
      .limiter { size := 1 }⟩,
    ⟨{ name := some "cut", goto := some "sieve" }, .splitter { size := 1 }⟩]
  plan := { routes := [{ passed := some 2, rejected := some 1 }, { next := some 0 }] }
  maxHops := 2

/-- A stage that leads every message back to itself. -/
def wheel : Chain Builtin where
  id := "wheel"
  slots := [⟨{ name := some "wheel", goto := some "wheel" }, .pass {}⟩]
  plan := { routes := [{ next := some 0 }] }
  maxHops := 3

theorem hop_budget_sieve :
    let call := sieve.process 9 ⟨0, 0⟩ (.ofRaw "t" [1, 2, 3])
    let walk := wheel.walk ⟨0, 0⟩ 0 (.ofMessage (.ofRaw "t" [1, 2, 3]))
    call.output.errors = [] ∧
      (sieve.withMaxHops 1024).process 9 ⟨0, 0⟩ (.ofRaw "t" [1, 2, 3]) = call.withMaxHops 1024 ∧
      walk.visits.length = 3 ∧ Invoked ⟨0, 0⟩ wheel walk.visits := by
  have herrors : (sieve.process 9 ⟨0, 0⟩ (.ofRaw "t" [1, 2, 3])).output.errors = [] := by
    decide +kernel
  have huncut (n : Nat) :
      .hopLimit n ∉ (sieve.process 9 ⟨0, 0⟩ (.ofRaw "t" [1, 2, 3])).output.errors :=
    herrors ▸ List.not_mem_nil
  have hmore : Exceeds 3 ⟨0, 0⟩ wheel 0 (.ofMessage (.ofRaw "t" [1, 2, 3])) :=
    .further rfl rfl rfl (.further rfl rfl rfl (.further rfl rfl rfl (.here rfl)))
  exact ⟨herrors, (hop_budget sieve).2 9 _ _ huncut 1024 (by decide),
    ((hop_budget wheel).1 _ 0 _).spent hmore⟩

end Chain

end Conduit
