import Conduit.Proofs.Chain.Frame

/-!
# Calls and their stack

A call seen as what it has come to so far (`Clear`, with no family pending) with the families that
are pending put on top of it (`Call.atop`). A step of the drain then looks at the top family only:
it takes a used one off (`drain_atop_used`), or takes a piece off and walks it
(`drain_atop_piece`), which may put another family on top (`send_atop`).
-/

namespace Conduit

open Stage

variable {σ : Type}

namespace Call

/-! ## Going on -/

theorem andThen_of_returned {c : Call σ} (f : Call σ → Call σ) (h : c.progress = .returned) :
    c.andThen f = f c := by
  simp only [andThen, h]

theorem andThen_of_crashed {c : Call σ} (f : Call σ → Call σ) (h : c.progress = .crashed) :
    c.andThen f = c := by
  simp only [andThen, h]

theorem progress_andThen_of_crashed {c : Call σ} (f : Call σ → Call σ)
    (h : c.progress = .crashed) : (c.andThen f).progress = .crashed := by
  rw [andThen_of_crashed f h, h]

/-- What goes on and returns has returned before. -/
theorem returned_of_andThen {c : Call σ} {f : Call σ → Call σ}
    (h : (c.andThen f).progress = .returned) : c.progress = .returned := by
  cases hc : c.progress with
  | returned => rfl
  | _ =>
    simp only [andThen, hc] at h
    cases h

/-! ## A call and what is pending -/

/-- The call after a walk, without the pieces that the walk ended in. -/
def record (c : Call σ) (w : Chain.Walk σ) : Call σ := { c.absorb w with chain := w.chain }

/-- The walk of a message from a place, at the present state of the call. -/
abbrev walk [Behaviour σ] (clock : Clock) (c : Call σ) (i : Nat) (w : Wrapper) : Chain.Walk σ :=
  c.chain.walk (c.moment clock) i w

/-- The call has not crashed and has no family pending. -/
structure Clear (c : Call σ) : Prop where
  progress : c.progress = .returned
  pending : c.chain.pending = []

/-- The call with families pending. -/
def atop (c : Call σ) (families : List Generation) : Call σ :=
  { c with chain := c.chain.withPending families }

theorem atop_nil {c : Call σ} (hc : c.Clear) : c.atop [] = c := by
  have h : c.chain.withPending [] = c.chain := by rw [← hc.pending, Chain.withPending_pending]
  rw [atop, h]

theorem atop_andThen {c : Call σ} (hc : c.Clear) (families : List Generation)
    (f : Call σ → Call σ) : (c.atop families).andThen f = f (c.atop families) :=
  andThen_of_returned f hc.progress

/-- A call at its beginning, with no family pending. -/
def opening (moment : Moment) (c : Chain σ) : Call σ :=
  { chain := c.withPending [], fresh := moment.fresh }

theorem clear_opening (moment : Moment) (c : Chain σ) : (opening moment c).Clear := ⟨rfl, rfl⟩

/-! ## Steps -/

variable [Behaviour σ] {clock : Clock}

theorem clear_record {c : Call σ} {i : Nat} {w : Wrapper} (hc : c.Clear)
    (he : (c.walk clock i w).ending ≠ .crashed) : (c.record (c.walk clock i w)).Clear where
  progress := if_neg he
  pending := (Chain.pending_walk _ _ i w).trans hc.pending

/-- The walk of a message puts the family that it ends in on top. -/
theorem send_atop (c : Call σ) (families : List Generation) (i : Nat) (w : Wrapper) :
    (c.atop families).send clock i w =
      (c.record (c.walk clock i w)).atop (pendingOf (c.walk clock i w).ending ++ families) := by
  simp only [send, atop, Chain.walk_withPending]
  rfl

theorem drain_atop_nil (patience : Nat) (c : Call σ) :
    drain clock patience (c.atop []) = c.atop [] := by
  cases patience <;> rfl

theorem drain_atop_used (patience i : Nat) (c : Call σ) (rest : List Generation) :
    drain clock (patience + 1) (c.atop (⟨i, []⟩ :: rest)) = drain clock patience (c.atop rest) :=
  rfl

theorem drain_atop_piece (patience i : Nat) (c : Call σ) (m : Message) (more : List Message)
    (rest : List Generation) :
    drain clock (patience + 1) (c.atop (⟨i, m :: more⟩ :: rest)) =
      ((c.atop (⟨i, more⟩ :: rest)).send clock i (.ofMessage m)).andThen (drain clock patience) :=
  rfl

theorem drain_zero (c : Call σ) (g : Generation) (rest : List Generation) :
    (drain clock 0 (c.atop (g :: rest))).progress = .unfinished := rfl

/-- A drain that returns has used up all families. -/
theorem pending_drain {patience : Nat} {c : Call σ}
    (h : (drain clock patience c).progress = .returned) :
    (drain clock patience c).chain.pending = [] := by
  fun_induction drain clock patience c with
  | case1 => cases h
  | case2 c hg => simpa [Chain.isGenerating] using hg
  | case3 _ _ hp => exact hp
  | case4 _ _ _ _ _ ih => exact ih h
  | case5 _ _ _ _ _ _ _ _ _ _ ih => exact ih h
  | case6 _ _ _ _ _ _ _ _ _ hr => exact absurd h hr

end Call

/-- A call drains what is pending and then sends the message. -/
theorem Chain.process_eq [Behaviour σ] (patience : Nat) (moment : Moment) (c : Chain σ)
    (m : Message) :
    c.process patience moment m =
      (Call.drain moment.clock patience ((Call.opening moment c).atop c.pending)).andThen fun call ↦
        (call.send moment.clock 0 (.ofMessage m)).andThen (Call.drain moment.clock patience) := rfl

end Conduit
