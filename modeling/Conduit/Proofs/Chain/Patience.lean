import Conduit.Proofs.Chain.Keeps

/-!
# More patience

A call that has come to an end comes to the same end with more patience (`Call.drain_le`). A call
that never comes to an end does not stand still: it makes more and more visits
(`Chain.exists_visits_process`, `Chain.exists_visits_expire`). For a step of the drain takes away a
piece or a used family, and what it puts on top was made in a visit, so without a visit the drain
runs out of pieces.
-/

namespace Conduit

open Stage

variable {σ : Type} [Behaviour σ]

namespace Call

omit [Behaviour σ] in
theorem atop_pending (c : Call σ) : c.atop c.chain.pending = c := by
  rw [atop, Chain.withPending_pending]

variable {clock : Clock}

/-! ## The same end -/

theorem drain_atop_le {p q : Nat} (hpq : p ≤ q) (families : List Generation) {c : Call σ}
    (h : (drain clock p (c.atop families)).progress ≠ .unfinished) :
    drain clock q (c.atop families) = drain clock p (c.atop families) := by
  induction p generalizing q families c with
  | zero =>
    cases families with
    | nil => rw [drain_atop_nil, drain_atop_nil]
    | cons g rest => exact absurd (drain_zero c g rest) h
  | succ p ih =>
    obtain ⟨q, rfl⟩ : ∃ k, q = k + 1 := ⟨q - 1, by omega⟩
    have hpq : p ≤ q := Nat.le_of_succ_le_succ hpq
    match families with
    | [] => rw [drain_atop_nil, drain_atop_nil]
    | ⟨i, []⟩ :: rest => exact ih hpq rest h
    | ⟨i, m :: more⟩ :: rest =>
      rw [drain_atop_piece] at h
      rw [drain_atop_piece, drain_atop_piece]
      cases hs : ((c.atop (⟨i, more⟩ :: rest)).send clock i (.ofMessage m)).progress with
      | returned =>
        rw [andThen_of_returned _ hs, ← atop_pending (send ..)] at h
        rw [andThen_of_returned _ hs, andThen_of_returned _ hs, ← atop_pending (send ..)]
        exact ih hpq _ h
      | _ => simp only [andThen, hs]

/-- A drain that has come to an end comes to the same end with more patience. -/
theorem drain_le {p q : Nat} (hpq : p ≤ q) {c : Call σ}
    (h : (drain clock p c).progress ≠ .unfinished) : drain clock q c = drain clock p c := by
  rw [← atop_pending c] at h ⊢
  exact drain_atop_le hpq _ h

/-- A call that has come to an end comes to the same end with more patience. -/
theorem process_le {p q : Nat} (hpq : p ≤ q) {moment : Moment} {c : Chain σ} {m : Message}
    (h : (c.process p moment m).progress ≠ .unfinished) :
    c.process q moment m = c.process p moment m := by
  rw [Chain.process_eq] at h
  rw [Chain.process_eq, Chain.process_eq]
  generalize (opening moment c).atop c.pending = opened at h ⊢
  have hfirst : (drain moment.clock p opened).progress ≠ .unfinished :=
    fun hu ↦ h (by simp only [andThen, hu])
  rw [drain_le hpq hfirst]
  cases hd : (drain moment.clock p opened).progress with
  | returned =>
    rw [andThen_of_returned _ hd] at h
    rw [andThen_of_returned _ hd, andThen_of_returned _ hd]
    generalize (drain moment.clock p opened).send moment.clock 0 (.ofMessage m) = sent at h ⊢
    cases hs : sent.progress with
    | returned =>
      rw [andThen_of_returned _ hs] at h
      rw [andThen_of_returned _ hs, andThen_of_returned _ hs]
      exact drain_le hpq h
    | _ => simp only [andThen, hs]
  | _ => simp only [andThen, hd]

/-! ## Visits -/

/-- A walk without a visit puts no family on top. -/
theorem pendingOf_of_visits_nil {c : Call σ} {i : Nat} {w : Wrapper}
    (h : (c.walk clock i w).visits = []) : pendingOf (c.walk clock i w).ending = [] := by
  rcases @Chain.exists_visit_of_ending _ _ (c.moment clock) c.chain.hopLimit c.chain i w with
    ⟨w', he⟩ | he | ⟨n, he⟩ | ⟨v, hv, -⟩
  · exact congrArg pendingOf he
  · exact congrArg pendingOf he
  · exact congrArg pendingOf he
  · change v ∈ (c.walk clock i w).visits at hv
    rw [h] at hv
    cases hv

theorem length_visits_le_send (c : Call σ) (i : Nat) (w : Wrapper) :
    c.visits.length ≤ (c.send clock i w).visits.length := by
  change c.visits.length ≤ (c.visits ++ (c.walk clock i w).visits).length
  rw [List.length_append]
  exact Nat.le_add_right _ _

/-- A drain only adds to the visits. -/
theorem length_visits_le_drain (p : Nat) (c : Call σ) :
    c.visits.length ≤ (drain clock p c).visits.length := by
  fun_induction drain clock p c with
  | case1 => exact Nat.le_refl _
  | case2 => exact Nat.le_refl _
  | case3 => exact Nat.le_refl _
  | case4 _ _ _ _ _ ih => exact ih
  | case5 _ c i m more rest _ popped _ _ ih =>
    exact Nat.le_trans (length_visits_le_send popped i (.ofMessage m)) ih
  | case6 _ c i m more rest _ popped => exact length_visits_le_send popped i (.ofMessage m)

/-! ## Calls without an end -/

theorem send_ne_unfinished (c : Call σ) (i : Nat) (w : Wrapper) :
    (c.send clock i w).progress ≠ .unfinished := by
  change (if _ = Ending.crashed then Progress.crashed else .returned) ≠ .unfinished
  split <;> exact fun h ↦ by cases h

omit [Behaviour σ] in
/-- What is unfinished only when it goes on has returned before. -/
theorem returned_of_unfinished {c : Call σ} {f : Call σ → Call σ} (hc : c.progress ≠ .unfinished)
    (h : (c.andThen f).progress = .unfinished) : c.progress = .returned := by
  cases hp : c.progress with
  | returned => rfl
  | crashed => cases (progress_andThen_of_crashed f hp).symm.trans h
  | unfinished => exact absurd hp hc

/-- What is unfinished is so with less patience. -/
theorem unfinished_of_le {p q : Nat} (hpq : p ≤ q) {c : Call σ} (hc : c.progress ≠ .unfinished)
    (h : (c.andThen (drain clock q)).progress = .unfinished) :
    (c.andThen (drain clock p)).progress = .unfinished := by
  have hret := returned_of_unfinished hc h
  rw [andThen_of_returned _ hret] at h ⊢
  by_contra hne
  exact hne (drain_le hpq hne ▸ h)

/-- How many steps the families take if no more are made. -/
def backlog : List Generation → Nat
  | [] => 0
  | g :: rest => g.pieces.length + 1 + backlog rest

theorem backlog_used (i : Nat) (rest : List Generation) :
    backlog (⟨i, []⟩ :: rest) = backlog rest + 1 := Nat.add_comm _ _

theorem backlog_piece (i : Nat) (m : Message) (more : List Message) (rest : List Generation) :
    backlog (⟨i, m :: more⟩ :: rest) = backlog (⟨i, more⟩ :: rest) + 1 := by
  simp only [backlog, List.length_cons]
  omega

/-- A drain that never comes to an end walks a piece and goes on. -/
theorem drain_piece_of_unfinished {c : Call σ} {i : Nat} {m : Message} {more : List Message}
    {rest : List Generation}
    (h : ∀ p, (drain clock p (c.atop (⟨i, m :: more⟩ :: rest))).progress = .unfinished) :
    (c.record (c.walk clock i (.ofMessage m))).progress = .returned ∧
      ∀ p, drain clock (p + 1) (c.atop (⟨i, m :: more⟩ :: rest)) =
        drain clock p ((c.record (c.walk clock i (.ofMessage m))).atop
          (pendingOf (c.walk clock i (.ofMessage m)).ending ++ ⟨i, more⟩ :: rest)) := by
  have hret : ((c.atop (⟨i, more⟩ :: rest)).send clock i (.ofMessage m)).progress = .returned :=
    returned_of_unfinished (send_ne_unfinished _ i _) (h 1)
  rw [send_atop] at hret
  refine ⟨hret, fun p ↦ ?_⟩
  rw [drain_atop_piece, send_atop, andThen_of_returned _ hret]

/-- A drain that never comes to an end makes more and more visits. By induction on the number of
visits and, for each, on the backlog, which goes down as long as there is no visit. -/
theorem exists_visits_drain_atop (n : Nat) (families : List Generation) {c : Call σ}
    (hc : c.progress = .returned)
    (h : ∀ p, (drain clock p (c.atop families)).progress = .unfinished) :
    ∃ p, ∀ q, p ≤ q → c.visits.length + n ≤ (drain clock q (c.atop families)).visits.length := by
  have later {p : Nat} {P : Nat → Prop} (hP : ∀ q, p ≤ q → P (q + 1)) : ∀ q, p + 1 ≤ q → P q := by
    intro q hq
    obtain ⟨q, rfl⟩ : ∃ k, q = k + 1 := ⟨q - 1, by omega⟩
    exact hP q (Nat.le_of_succ_le_succ hq)
  induction n generalizing families c with
  | zero => exact ⟨0, fun q _ ↦ length_visits_le_drain q (c.atop families)⟩
  | succ n ihn =>
    induction hb : backlog families generalizing families c with
    | zero =>
      cases families with
      | nil =>
        have hnil := h 0
        rw [drain_atop_nil] at hnil
        cases hc.symm.trans hnil
      | cons g rest => simp [backlog] at hb
    | succ b ihb =>
      match families with
      | [] => simp [backlog] at hb
      | ⟨i, []⟩ :: rest =>
        rw [backlog_used] at hb
        obtain ⟨p, hp⟩ := ihb rest hc (fun p ↦ h (p + 1)) (Nat.succ.inj hb)
        exact ⟨p + 1, later hp⟩
      | ⟨i, m :: more⟩ :: rest =>
        rw [backlog_piece] at hb
        obtain ⟨hret, hstep⟩ := drain_piece_of_unfinished h
        have hnext (p : Nat) := hstep p ▸ h (p + 1)
        have hlength : (c.record (c.walk clock i (.ofMessage m))).visits.length =
            c.visits.length + (c.walk clock i (.ofMessage m)).visits.length := List.length_append
        by_cases hv : (c.walk clock i (.ofMessage m)).visits = []
        · simp only [pendingOf_of_visits_nil hv, List.nil_append] at hnext hstep
          obtain ⟨p, hp⟩ := ihb _ hret hnext (Nat.succ.inj hb)
          refine ⟨p + 1, later fun q hq ↦ ?_⟩
          rw [hstep]
          rw [hv, List.length_nil, Nat.add_zero] at hlength
          exact hlength ▸ hp q hq
        · obtain ⟨p, hp⟩ := ihn _ hret hnext
          refine ⟨p + 1, later fun q hq ↦ ?_⟩
          rw [hstep]
          have hmore := hp q hq
          have hpos := List.length_pos_iff.2 hv
          omega

/-- A call that never comes to an end in a drain makes more and more visits. -/
theorem exists_visits_andThen (n : Nat) {c : Call σ} (hc : c.progress ≠ .unfinished)
    (h : ∀ p, (c.andThen (drain clock p)).progress = .unfinished) :
    ∃ p, ∀ q, p ≤ q → n ≤ (c.andThen (drain clock q)).visits.length := by
  have hret := returned_of_unfinished hc (h 0)
  simp only [andThen_of_returned _ hret] at h ⊢
  rw [← atop_pending c] at h ⊢
  obtain ⟨p, hp⟩ := exists_visits_drain_atop n c.chain.pending hret h
  exact ⟨p, fun q hq ↦ Nat.le_of_add_left_le (hp q hq)⟩

end Call

namespace Chain

variable {moment : Moment} {c : Chain σ}

/-- A call with a message that never comes to an end makes more and more visits, be it for the
pieces that were left behind or for the message. -/
theorem exists_visits_process {m : Message}
    (h : ∀ patience, (c.process patience moment m).progress = .unfinished) (n : Nat) :
    ∃ patience, n ≤ (c.process patience moment m).visits.length := by
  let opened : Call σ := { chain := c, fresh := moment.fresh }
  have hprocess (p : Nat) : c.process p moment m =
      (opened.drain moment.clock p).andThen fun call ↦
        (call.send moment.clock 0 (.ofMessage m)).andThen (Call.drain moment.clock p) := rfl
  by_cases hfirst : ∀ p, (opened.drain moment.clock p).progress = .unfinished
  · have hopened : opened.progress ≠ .unfinished := fun he ↦ by cases he
    obtain ⟨p, hp⟩ := Call.exists_visits_andThen n hopened hfirst
    refine ⟨p, ?_⟩
    rw [hprocess, Call.andThen, hfirst]
    exact hp p (Nat.le_refl p)
  · obtain ⟨p₀, hp₀⟩ := not_forall.1 hfirst
    have hret := Call.returned_of_unfinished hp₀ (h p₀)
    let sent := (opened.drain moment.clock p₀).send moment.clock 0 (.ofMessage m)
    have hlater (p : Nat) (hp : p₀ ≤ p) :
        c.process p moment m = sent.andThen (Call.drain moment.clock p) := by
      rw [hprocess, Call.drain_le hp hp₀, Call.andThen_of_returned _ hret]
    have hsent : sent.progress ≠ .unfinished := Call.send_ne_unfinished _ _ _
    have hnever (p : Nat) : (sent.andThen (Call.drain moment.clock p)).progress = .unfinished := by
      refine Call.unfinished_of_le (Nat.le_max_left p p₀) hsent ?_
      exact hlater _ (Nat.le_max_right p p₀) ▸ h (max p p₀)
    obtain ⟨p, hp⟩ := Call.exists_visits_andThen n hsent hnever
    refine ⟨max p p₀, ?_⟩
    rw [hlater _ (Nat.le_max_right p p₀)]
    exact hp _ (Nat.le_max_left p p₀)

/-- A call for a timer that never comes to an end makes more and more visits. -/
theorem exists_visits_expire {i : Nat} {token : UInt64}
    (h : ∀ patience, (c.expire patience moment i token).progress = .unfinished) (n : Nat) :
    ∃ patience, n ≤ (c.expire patience moment i token).visits.length := by
  have hgoes : (∀ p, c.expire p moment i token = { chain := c, fresh := moment.fresh }) ∨
      ∃ d : Call σ, d.progress ≠ .unfinished ∧
        ∀ p, c.expire p moment i token = d.andThen (Call.drain moment.clock p) := by
    unfold expire
    split
    · exact .inl fun _ ↦ rfl
    · refine .inr ⟨_, ?_, fun _ ↦ rfl⟩
      split
      · exact fun he ↦ by cases he
      · exact Call.send_ne_unfinished _ _ _
      · exact fun he ↦ by cases he
  rcases hgoes with hnone | ⟨d, hd, hgoes⟩
  · cases (congrArg Call.progress (hnone 0)).symm.trans (h 0)
  · simp only [hgoes] at h ⊢
    obtain ⟨p, hp⟩ := Call.exists_visits_andThen n hd h
    exact ⟨p, hp p (Nat.le_refl p)⟩

end Chain

end Conduit
