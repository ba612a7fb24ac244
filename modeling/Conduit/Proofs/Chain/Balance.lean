import Conduit.Proofs.Chain.Call
import Conduit.Stage.Kind
import Mathlib.Algebra.BigOperators.Group.List.Basic
import Mathlib.Algebra.Order.Ring.Int

/-!
# Nothing is lost on the way

Every walk ends in one outcome (a message delivered, dropped, held or in error) or in a family of
pieces, which then have to be walked in its place. So a call with nothing pending has one outcome,
plus one for each piece beyond the first of the families that were made, less one for each family
without a piece (`outcomes_process`).

The invariant of the drain is the balance of a call: the outcomes so far and the pieces still
pending, less what the families made so far have added. A step of the drain takes a piece off the
stack and walks it, so the balance stays (`balance_drain`); only the message of the call itself
adds one (`balance_send`).
-/

namespace Conduit

open Stage

variable {σ : Type}

/-! ## Outcomes -/

namespace Output

/-- How many messages have come to an end. -/
def outcomes (o : Output) : Nat := o.delivered.length + o.dropped + o.held + o.errors.length

@[simp] theorem outcomes_append (a b : Output) :
    (a ++ b).outcomes = a.outcomes + b.outcomes := by
  change (a.append b).outcomes = _
  simp only [outcomes, append, List.length_append]
  omega

end Output

/-! ## Families made on the way -/

/-- The family of pieces that a stage made on a visit. -/
def Visit.family? (v : Visit) : Option Generation :=
  match v.next with
  | .done (.generated g) => some g
  | _ => none

/-- How many messages a family adds, its pieces in place of the message that they were made of. -/
def Generation.surplus (g : Generation) : Int := g.pieces.length - 1

namespace Call

/-- All families that were made, in order. -/
def families (c : Call σ) : List Generation := c.visits.filterMap Visit.family?

/-- What the families of a call have added. -/
def surplus (c : Call σ) : Int := (c.families.map Generation.surplus).sum

/-- How many pieces are pending. -/
def pendingPieces (c : Call σ) : Nat := (c.chain.pending.map (·.pieces.length)).sum

/-- The outcomes and the pending pieces, less what the families have added. -/
def balance (c : Call σ) : Int := c.output.outcomes + c.pendingPieces - c.surplus

/-- With no family pending, the balance is a matter of outcomes and families only. -/
theorem outcomes_of_balance {c : Call σ} (hp : c.chain.pending = []) :
    (c.output.outcomes : Int) = c.balance + c.surplus := by
  simp [balance, pendingPieces, hp]

end Call

/-- The families that a walk makes are the one that it ends in, if any. -/
theorem Chain.family_walkFrom [Behaviour σ] (moment : Moment) (hops : Nat) (c : Chain σ) (i : Nat)
    (w : Wrapper) :
    (walkFrom moment hops c i w).visits.filterMap Visit.family? =
      Call.pendingOf (walkFrom moment hops c i w).ending := by
  fun_induction walkFrom moment hops c i w with
  | case1 moment hops c i w hs => cases w.accepted <;> rfl
  | case2 => rfl
  | case3 moment c i w slot hs hops s ending hn =>
    cases ending <;> simp [Visit.family?, hn, Call.pendingOf]
  | case4 moment c i w slot hs hops s j w' hn rest ih =>
    simpa [Visit.family?, hn] using ih

namespace Call

variable [Behaviour σ] {clock : Clock}

/-- An ending is one outcome, or a family in place of it. -/
theorem outcomes_outputOf {e : Ending} (he : e ≠ .crashed) :
    ((outputOf e).outcomes : Int) + ((pendingOf e).map (·.pieces.length)).sum -
      ((pendingOf e).map Generation.surplus).sum = 1 := by
  cases e <;> simp_all [outputOf, pendingOf, Output.outcomes, Generation.surplus]

theorem outcomes_send (c : Call σ) (i : Nat) (w : Wrapper) :
    (c.send clock i w).output.outcomes =
      c.output.outcomes + (outputOf (c.walk clock i w).ending).outcomes :=
  Output.outcomes_append _ _

theorem pendingPieces_send (c : Call σ) (i : Nat) (w : Wrapper) :
    (c.send clock i w).pendingPieces =
      ((pendingOf (c.walk clock i w).ending).map (·.pieces.length)).sum + c.pendingPieces := by
  change ((pendingOf (c.walk clock i w).ending ++ (c.walk clock i w).chain.pending).map
    (·.pieces.length)).sum = _
  rw [Chain.pending_walk, List.map_append, List.sum_append]
  rfl

theorem families_send (c : Call σ) (i : Nat) (w : Wrapper) :
    (c.send clock i w).families = c.families ++ pendingOf (c.walk clock i w).ending := by
  change (c.visits ++ (c.walk clock i w).visits).filterMap Visit.family? = _
  rw [List.filterMap_append]
  exact congrArg (c.families ++ ·) (Chain.family_walkFrom _ _ _ i w)

theorem surplus_send (c : Call σ) (i : Nat) (w : Wrapper) :
    (c.send clock i w).surplus =
      c.surplus + ((pendingOf (c.walk clock i w).ending).map Generation.surplus).sum := by
  rw [surplus, families_send, List.map_append, List.sum_append, surplus]

/-- A message that is sent adds one to the balance. -/
theorem balance_send (c : Call σ) (i : Nat) (w : Wrapper)
    (h : (c.send clock i w).progress = .returned) :
    (c.send clock i w).balance = c.balance + 1 := by
  have he : (c.walk clock i w).ending ≠ .crashed := by
    intro he
    have hp : (c.send clock i w).progress = .crashed := if_pos he
    rw [hp] at h
    cases h
  have hone := outcomes_outputOf he
  simp only [balance, outcomes_send, pendingPieces_send, surplus_send]
  omega

/-- The pieces that are taken off are those that are sent, so a drain keeps the balance. -/
theorem balance_drain {patience : Nat} {c : Call σ}
    (h : (drain clock patience c).progress = .returned) :
    (drain clock patience c).balance = c.balance := by
  fun_induction drain clock patience c with
  | case1 => rfl
  | case2 => rfl
  | case3 => rfl
  | case4 patience c i rest hp ih =>
    rw [ih h]
    simp only [balance, surplus, families, pendingPieces, hp, List.map_cons, List.sum_cons,
      List.length_nil, Nat.zero_add]
  | case5 patience c i m more rest hp popped sent hs ih =>
    have hpop : popped.balance + 1 = c.balance := by
      simp only [balance, surplus, families, pendingPieces, popped, hp, List.map_cons,
        List.sum_cons, List.length_cons]
      omega
    rw [ih h, ← hpop]
    exact balance_send popped i _ hs
  | case6 patience c i m more rest hp popped sent hs => exact absurd h hs

/-- A message that is made into no pieces leaves the drain where it was. -/
theorem drain_send_of_no_pieces {patience i k : Nat} {c : Call σ} {w : Wrapper}
    (he : (c.walk clock i w).ending = .generated ⟨k, []⟩) (families : List Generation) :
    drain clock (patience + 1) ((c.atop families).send clock i w) =
      drain clock patience ((c.record (c.walk clock i w)).atop families) := by
  rw [send_atop, he]
  exact drain_atop_used patience k _ families

end Call

namespace Chain

open Call

variable [Behaviour σ] {patience : Nat} {moment : Moment} {c : Chain σ} {m : Message}

/-- With no family pending, a call sends its message and drains what comes of it. -/
theorem process_of_pending_nil (hp : c.pending = []) :
    c.process patience moment m =
      ((opening moment c).send moment.clock 0 (.ofMessage m)).andThen
        (drain moment.clock patience) := by
  rw [process_eq, hp, drain_atop_nil, atop_andThen (clear_opening moment c),
    atop_nil (clear_opening moment c)]

theorem balance_process (hp : c.pending = [])
    (h : (c.process patience moment m).progress = .returned) :
    (c.process patience moment m).balance = 1 ∧
      (c.process patience moment m).chain.pending = [] := by
  rw [process_of_pending_nil hp] at h ⊢
  have hs := returned_of_andThen h
  rw [andThen_of_returned _ hs] at h ⊢
  refine ⟨?_, pending_drain h⟩
  rw [balance_drain h, balance_send _ _ _ hs]
  rfl

/-- A message that is made into no pieces is used up without an outcome. -/
theorem output_process_of_no_pieces {k : Nat} (hp : c.pending = [])
    (h : (c.process patience moment m).progress = .returned)
    (hk : (c.walk (moment.next 0) 0 (.ofMessage m)).ending = .generated ⟨k, []⟩) :
    (c.process patience moment m).output = {} := by
  have hw : ((opening moment c).walk moment.clock 0 (.ofMessage m)).ending =
      .generated ⟨k, []⟩ := by
    rw [← hk, ← withPending_pending c, hp]
    rfl
  rw [process_of_pending_nil hp] at h ⊢
  have hs := returned_of_andThen h
  rw [andThen_of_returned _ hs, ← atop_nil (clear_opening moment c)] at h ⊢
  cases patience with
  | zero =>
    rw [send_atop, hw] at h
    cases h
  | succ patience =>
    rw [drain_send_of_no_pieces hw, drain_atop_nil]
    change ({} : Output) ++
      outputOf ((opening moment c).walk moment.clock 0 (.ofMessage m)).ending = _
    rw [hw]
    rfl

/-- A call with nothing pending has one outcome for its message, and for each family of pieces that
was made on the way as many more as the family has pieces beyond the first. So a call in which no
family was made has exactly one outcome, and one whose message was made into no pieces has none. -/
theorem outcomes_process (hp : c.pending = [])
    (h : (c.process patience moment m).progress = .returned) :
    ((c.process patience moment m).output.outcomes : Int) =
        1 + ((c.process patience moment m).families.map fun g ↦ (g.pieces.length : Int) - 1).sum ∧
      ((c.process patience moment m).families = [] →
        (c.process patience moment m).output.outcomes = 1) ∧
      (∀ i, (c.walk (moment.next 0) 0 (.ofMessage m)).ending = .generated ⟨i, []⟩ →
        (c.process patience moment m).output = {}) := by
  obtain ⟨hb, hr⟩ := balance_process hp h
  have hone := outcomes_of_balance hr
  refine ⟨?_, ?_, fun i hi ↦ output_process_of_no_pieces hp h hi⟩
  · rw [hone, hb]
    rfl
  · intro hf
    rw [hb, surplus, hf, List.map_nil, List.sum_nil] at hone
    exact_mod_cast hone

/-- A chain that cuts payloads in chunks of two bytes, and then in single bytes. -/
def cutTwice : Chain Builtin where
  id := "cuts"
  slots := [⟨{}, .splitter { size := 2 }⟩, ⟨{}, .splitter { size := 1 }⟩]
  plan := { routes := [{}, {}] }

/-- Three bytes make a family of two chunks, and the chunks make families of two and one. -/
theorem outcomes_process_cutTwice :
    cutTwice.pending = [] ∧
      (cutTwice.process 9 ⟨0, 0⟩ (.ofRaw "t" [1, 2, 3])).progress = .returned ∧
      ((cutTwice.process 9 ⟨0, 0⟩ (.ofRaw "t" [1, 2, 3])).output.outcomes : Int) =
        1 + ((cutTwice.process 9 ⟨0, 0⟩ (.ofRaw "t" [1, 2, 3])).families.map
          fun g ↦ (g.pieces.length : Int) - 1).sum := by
  have h : (cutTwice.process 9 ⟨0, 0⟩ (.ofRaw "t" [1, 2, 3])).progress = .returned := by
    decide +kernel
  exact ⟨rfl, h, (outcomes_process rfl h).1⟩

end Chain

end Conduit
