import Conduit.Proofs.Pipeline.Phases
import Mathlib.Data.Prod.Lex
import Mathlib.Order.WellFounded

/-!
# Tearing down comes to an end

When the workers of a run have been told not to go on, only finitely many moves can be made until
the run is cleared (`Machine.exists_clear`). What is left to do is measured by the phases to come,
what the processor has in hand, and the steps that the receiver, the sender and the alarms can still
make, in this order: every move makes less of one of them and leaves those before it alone
(`Machine.Does.left_lt`). The processor comes before the sender and the alarms, since it is the one
that can give them more to do, by as much as a chain makes of a message.
-/

namespace Conduit

open Stage

variable {σ : Type}

/-! ## What is left to do -/

/-- How many steps a worker is away from being gone. -/
def Exit.left : Exit → Nat
  | .failing .. => 2
  | .reporting _ => 1
  | .gone _ => 0

/-- How many steps the receiver can still make when it is not to go on, at most. -/
def Receiver.left : Receiver → Nat
  | .receiving => 6
  | .queueing _ => 5
  | .waking => 4
  | .testing | .refused _ => 3
  | .leaving exit => exit.left

def Sender.left : Sender → Nat
  | .sending _ => 4
  | .waiting | .refused _ => 3
  | .leaving exit => exit.left

/-- The part of its round that the processor comes back to, and how much it finds there. -/
def Errand.left : Errand → Nat × Nat
  | .alarms rest => (3, 3 * rest.length)
  | .messages => (2, 0)

/-- What the processor still does when it is not to go on: by the part of its round, in it by the
alarms or the message in hand, and then by the wrappers in hand. -/
def Processor.left : Processor → Nat ×ₗ Nat ×ₗ Nat
  | .gathering => toLex (4, toLex (0, 0))
  | .handling alarms => toLex (3, toLex (3 * alarms.length, 0))
  | .taking => toLex (2, toLex (4, 0))
  | .running _ => toLex (2, toLex (3, 0))
  | .counting _ next => toLex (next.left.1, toLex (next.left.2 + 2, 0))
  | .queueing ws next => toLex (next.left.1, toLex (next.left.2 + 1, ws.length))
  | .testing => toLex (1, toLex (2, 0))
  | .waiting => toLex (1, toLex (1, 0))
  | .woken => toLex (1, toLex (0, 0))
  | .leaving exit => toLex (0, toLex (exit.left, 0))

/-- How many steps the receiver, the sender and the alarms can still make, at most, if the processor
makes none. -/
def Run.left (r : Run) : Nat :=
  r.receiver.left + (5 * r.outbound.items.length + r.sender.left) +
    (2 * r.timers.length + r.ringing)

namespace Machine

/-- What is left to do until the run is cleared. -/
def left (m : Machine σ) : Nat ×ₗ (Nat ×ₗ Nat ×ₗ Nat) ×ₗ Nat :=
  match m.control, m.run with
  | .tearing _ phase, some r => toLex (10 - phase.rank, toLex (r.processor.left, r.left))
  | _, _ => toLex (0, toLex (toLex (0, toLex (0, 0)), 0))

end Machine

/-! ## Moves -/

theorem Exit.Does.left_lt {board board' : Board} {failure failure' : Bool} {exit exit' : Exit}
    (h : exit.Does board failure board' failure' exit') : exit'.left < exit.left := by
  cases h <;> simp [left]

section

variable {type : String} {deed : Option (Deed σ)}

theorem Receiver.Does.left_lt {s s' : Receiver.Share} (h : Receiver.Does type s deed s')
    (ha : s.board.active = false) : s'.receiver.left < s.receiver.left := by
  cases h with
  | leave h he => simpa [h, left] using he.left_lt
  | _ => simp_all [left, Exit.left, Exit.quiet, Exit.broken]

theorem Sender.Does.left_lt {s s' : Sender.Share} (h : Sender.Does type s deed s')
    (ha : s.board.active = false) :
    5 * s'.outbound.items.length + s'.sender.left <
      5 * s.outbound.items.length + s.sender.left := by
  cases h with
  | leave h he => simpa [h, left] using he.left_lt
  | take w rest h hi =>
    simp [h, hi, left]
    omega
  | _ => simp_all [left, Exit.left, Exit.quiet, Exit.broken]

theorem Processor.left_lt_of_input {p : Processor} {patience : Nat} {moment : Moment} {x : Input}
    (h : p.input? patience moment = some x) (exit : Exit) :
    (Processor.leaving exit).left < p.left := by
  cases p with
  | running m => simp [left, Prod.Lex.toLex_lt_toLex]
  | handling alarms => simp [left, Prod.Lex.toLex_lt_toLex]
  | _ => cases h

theorem Processor.Does.left_lt [Behaviour σ] {s s' : Processor.Share σ}
    (h : Processor.Does s deed s') (ha : s.board.active = false) :
    s'.processor.left < s.processor.left := by
  cases h with
  | leave h he => simpa [h, left, Prod.Lex.toLex_lt_toLex] using he.left_lt
  | breakDown patience moment h => exact Processor.left_lt_of_input h _
  | answerAlarm patience moment h =>
    simp only [h, left, Errand.left, Prod.Lex.toLex_lt_toLex, List.length_cons]
    exact .inr ⟨trivial, .inl (by omega)⟩
  | @resume next h =>
    cases next <;> simp [h, left, Errand.left, Errand.resume, Prod.Lex.toLex_lt_toLex]
  | _ => simp_all [left, Errand.left, Exit.left, Exit.quiet, Prod.Lex.toLex_lt_toLex]

end

theorem Run.Rings.left_lt {r r' : Run} (h : r.Rings r') : r'.left < r.left := by
  cases h with
  | ring h hf =>
    have hi := (List.getElem?_eq_some_iff.1 h).1
    simp only [Run.left, List.length_eraseIdx_of_lt hi]
    omega
  | lose h hf =>
    have hi := (List.getElem?_eq_some_iff.1 h).1
    simp only [Run.left, List.length_eraseIdx_of_lt hi]
    omega
  | signal h =>
    simp only [Run.left]
    omega

/-! ## The machine -/

namespace Phase

theorem rank_le (phase : Phase) : phase.rank ≤ 9 := by
  unfold rank
  split <;> decide

theorem one_le_rank {phase : Phase} (h : phase ≠ .deactivating) : 1 ≤ phase.rank := by
  unfold rank
  split
  · exact absurd rfl h
  all_goals decide

end Phase

namespace Machine

variable {m m' : Machine σ} {r : Run} {reason : Reason} {phase : Phase}

theorem left_of_tearing (hc : m.control = .tearing reason phase) (hr : m.run = some r) :
    m.left = toLex (10 - phase.rank, toLex (r.processor.left, r.left)) := by
  rw [left, hc, hr]

theorem left_of_no_run (hr : m.run = none) :
    m.left = toLex (0, toLex (toLex (0, toLex (0, 0)), 0)) := by
  unfold left
  split
  · rename_i h
    cases hr.symm.trans h
  · rfl

/-- Workers and alarms leave less to do in the same phase. -/
theorem left_lt_of_run {r' : Run} (hc : m.control = .tearing reason phase) (hr : m.run = some r)
    (hc' : m'.control = m.control) (hr' : m'.run = some r')
    (h : r'.processor.left < r.processor.left ∨ r'.processor = r.processor ∧ r'.left < r.left) :
    m'.left < m.left := by
  rw [left_of_tearing hc hr, left_of_tearing (hc'.trans hc) hr']
  refine Prod.Lex.toLex_lt_toLex.2 (.inr ⟨rfl, Prod.Lex.toLex_lt_toLex.2 ?_⟩)
  exact h.imp_right fun hrest ↦ ⟨congrArg Processor.left hrest.1, hrest.2⟩

variable [Behaviour σ]

/-- Every move leaves less to do. -/
theorem Does.left_lt {deed : Option (Deed σ)} (h : m.Orderly)
    (hc : m.control = .tearing reason phase) (hp : 1 ≤ phase.rank) (hd : m.Does deed m') :
    m'.left < m.left := by
  obtain ⟨r, hr, ht⟩ := h.torn reason phase hc
  have ha : m.board.active = false := ht.inactive hp
  have hsame {r₁ : Run} (hr₁ : m.run = some r₁) : r = r₁ := Option.some.inj (hr.symm.trans hr₁)
  cases hd with
  | receiver hr₁ hd =>
    obtain rfl := hsame hr₁
    have hless := hd.left_lt ha
    refine left_lt_of_run hc hr rfl rfl (.inr ⟨rfl, ?_⟩)
    simp only [Run.left, Run.withReceiver, receiverShare] at hless ⊢
    omega
  | sender hr₁ hd =>
    obtain rfl := hsame hr₁
    have hless := hd.left_lt ha
    refine left_lt_of_run hc hr rfl rfl (.inr ⟨rfl, ?_⟩)
    simp only [Run.left, Run.withSender, senderShare] at hless ⊢
    omega
  | processor hr₁ hd =>
    obtain rfl := hsame hr₁
    exact left_lt_of_run hc hr rfl rfl (.inl (hd.left_lt ha))
  | alarms hr₁ hd =>
    obtain rfl := hsame hr₁
    exact left_lt_of_run hc hr rfl rfl (.inr ⟨hd.processor, hd.left_lt⟩)
  | controller hd =>
    rw [left_of_tearing hc hr]
    rcases hd.of_tearing hc with ⟨r₁, m₁, phase', hr₁, hts, rfl⟩ | ⟨rfl, r₁, hr₁, rfl⟩
    · obtain rfl := hsame hr₁
      obtain ⟨r', hr', -⟩ := ht.of_tears hr hts
      have hleft : ({ m₁ with control := .tearing reason phase' } : Machine σ).left = _ :=
        left_of_tearing rfl hr'
      rw [hleft]
      have hrank := hts.rank_lt
      have hle := phase'.rank_le
      exact Prod.Lex.toLex_lt_toLex.2 (.inl (by dsimp only; omega))
    · have hnone : ((m.clear r₁).afterwards reason).run = none :=
        (rests_afterwards (m := m.clear r₁) rfl reason).run
      rw [left_of_no_run hnone]
      exact Prod.Lex.toLex_lt_toLex.2 (.inl Nat.one_pos)

/-- Once the workers have been told not to go on, the run is cleared after finitely many moves,
whoever makes them in whatever order, and whatever the host does meanwhile. -/
theorem exists_clear {ms : Nat → Machine σ} (h : (ms 0).Orderly)
    (hc : (ms 0).control = .tearing reason phase) (hp : phase ≠ .deactivating)
    (hstep : ∀ n, ∃ requests replies patience moment move out,
      ({ ms n with requests, replies } : Machine σ).step patience moment move = some out ∧
        ms (n + 1) = out.machine) :
    ∃ n r, (ms n).run = some r ∧ (ms n).control = .tearing reason .clearing ∧
      (ms (n + 1)).run = none := by
  by_contra hno
  have hdoes (n : Nat) : ∃ requests replies deed,
      ({ ms n with requests, replies } : Machine σ).Does deed (ms (n + 1)) := by
    obtain ⟨requests, replies, patience, moment, move, out, hs, he⟩ := hstep n
    exact ⟨requests, replies, _, he ▸ does_of_step hs⟩
  -- as long as the run is not cleared it is torn down, with the workers told not to go on
  have hall (n : Nat) : (ms n).Orderly ∧
      ∃ phase, (ms n).control = .tearing reason phase ∧ 1 ≤ phase.rank := by
    induction n with
    | zero => exact ⟨h, phase, hc, Phase.one_le_rank hp⟩
    | succ n ih =>
      obtain ⟨ho, phase, hc, hp⟩ := ih
      obtain ⟨requests, replies, deed, hd⟩ := hdoes n
      refine ⟨(ho.of_host requests replies).of_does hd, ?_⟩
      rcases tearing_or_cleared (m := { ms n with requests, replies }) hc hd with
        ⟨phase', hc', hle⟩ | ⟨rfl, r, hr, he⟩
      · exact ⟨phase', hc', hp.trans hle⟩
      · exact absurd ⟨n, r, hr, hc, he ▸ (rests_afterwards rfl reason).run⟩ hno
  obtain ⟨n, hn⟩ := WellFounded.not_rel_apply_succ (r := (· < ·)) fun n ↦ (ms n).left
  obtain ⟨ho, phase, hc, hp⟩ := hall n
  obtain ⟨requests, replies, deed, hd⟩ := hdoes n
  have hless : (ms (n + 1)).left < ({ ms n with requests, replies } : Machine σ).left :=
    Does.left_lt (ho.of_host requests replies) hc hp hd
  exact hn hless

end Machine

end Conduit
