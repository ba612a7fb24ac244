import Conduit.Proofs.Pipeline.Board
import Conduit.Proofs.Pipeline.Moves

/-!
# What the controller leaves alone

Between two runs, and while a run goes on, the controller takes up requests and failures. As far as
messages are concerned it then does nothing: the run, the counts and the chain stay, unless the
chain is given up for good with no run live (`Machine.Rests`). Apart from this it begins runs, and
tears them down phase by phase (`Machine.controls_cases`).
-/

namespace Conduit

open Stage

variable {σ : Type}

/-- Whether the controller may be where it is: it only begins a run, or ends, with no run live, and
it begins to tear down a run that is live. -/
structure Control.Fits (control : Control) (run : Option Run) : Prop where
  resting : control = .starting ∨ control = .ended → run = none
  tearing : ∀ reason phase, control = .tearing reason phase →
    phase = .deactivating ∧ ∃ r, run = some r

namespace Machine

/-- The second machine has the run, the chain and the counts of the first. -/
structure Rests (m m' : Machine σ) : Prop where
  run : m'.run = m.run
  chain : m'.chain = m.chain ∨ m.run = none ∧ m'.chain = none
  active : m'.board.active = m.board.active
  received : m'.board.received = m.board.received
  settled : m'.board.settled = m.board.settled
  fits : m'.control.Fits m'.run

theorem fits_idle (run : Option Run) : Control.Fits .idle run where
  resting h := by rcases h with h | h <;> cases h
  tearing _ _ h := by cases h

/-- With no run live, whatever the controller was up to leaves things alone. -/
theorem rests_afterwards {m : Machine σ} (h : m.run = none) (reason : Reason) :
    m.Rests (m.afterwards reason) := by
  have hfits {control : Control} (hc : ∀ reason phase, control ≠ .tearing reason phase) :
      control.Fits m.run := ⟨fun _ ↦ h, fun reason phase he ↦ absurd he (hc reason phase)⟩
  cases reason with
  | failure => exact ⟨rfl, .inl rfl, rfl, rfl, rfl, fits_idle _⟩
  | request r =>
    cases r with
    | start => exact ⟨rfl, .inl rfl, rfl, rfl, rfl, hfits fun _ _ hc ↦ by cases hc⟩
    | terminate => exact ⟨rfl, .inr ⟨h, rfl⟩, rfl, rfl, rfl, hfits fun _ _ hc ↦ by cases hc⟩
    | stop =>
      unfold afterwards
      dsimp only
      split <;> exact ⟨rfl, .inl rfl, rfl, rfl, rfl, fits_idle _⟩
    | restart =>
      unfold afterwards
      dsimp only
      split <;> exact ⟨rfl, .inl rfl, rfl, rfl, rfl, hfits fun _ _ hc ↦ by cases hc⟩

theorem rests_tearDown (m : Machine σ) (reason : Reason) : m.Rests (m.tearDown reason) := by
  unfold tearDown
  split
  · rename_i hl
    refine ⟨rfl, .inl rfl, rfl, rfl, rfl, ?_, fun _ _ h ↦ ?_⟩
    · rintro (h | h) <;> cases h
    · cases h
      exact ⟨rfl, Option.isSome_iff_exists.1 hl⟩
  · rename_i hl
    exact rests_afterwards (Option.not_isSome_iff_eq_none.1 hl) reason

/-- A request is answered at once, or the run, if any, is torn down for it. -/
theorem take_cases (m : Machine σ) (request : Request) :
    (∃ answer, m.take request = m.reply answer) ∨
      ∃ q, m.take request = m.tearDown (.request q) := by
  unfold take
  split
  all_goals first
    | exact .inl ⟨_, rfl⟩
    | exact .inr ⟨_, rfl⟩

/-- While it tears a run down the controller does nothing else, and in the last phase it clears the
run. -/
theorem Controls.of_tearing [Behaviour σ] {m m' : Machine σ} {deed : Option (Deed σ)}
    {reason : Reason} {phase : Phase} (hc : m.control = .tearing reason phase)
    (h : m.Controls deed m') :
    (∃ r m₁ phase', m.run = some r ∧ m.Tears r phase m₁ phase' ∧
        m' = { m₁ with control := .tearing reason phase' }) ∨
      phase = .clearing ∧ ∃ r, m.run = some r ∧ m' = (m.clear r).afterwards reason := by
  have hbusy {control : Control} (h : m.control = control)
      (hne : ∀ reason phase, control ≠ .tearing reason phase) : False :=
    hne reason phase (h.symm.trans hc)
  cases h with
  | accept h => exact (hbusy h fun _ _ he ↦ by cases he).elim
  | notice h => exact (hbusy h fun _ _ he ↦ by cases he).elim
  | ignore h => exact (hbusy h fun _ _ he ↦ by cases he).elim
  | giveUp _ h => exact (hbusy h fun _ _ he ↦ by cases he).elim
  | begin _ h => exact (hbusy h fun _ _ he ↦ by cases he).elim
  | tear h hr ht =>
    cases hc.symm.trans h
    exact .inl ⟨_, _, _, hr, ht, rfl⟩
  | clear h hr =>
    cases hc.symm.trans h
    exact .inr ⟨rfl, _, hr, rfl⟩

/-- What the controller does: nothing to messages, or it begins a run, tears one down, or clears
what is left of it. -/
theorem controls_cases [Behaviour σ] {m m' : Machine σ} {deed : Option (Deed σ)}
    (h : m.Controls deed m') :
    (deed = none ∧ m.Rests m') ∨
      (∃ c now, deed = some (.began (c.start now)) ∧ m.control = .starting ∧ m.chain = some c ∧
        m'.chain = some (c.start now) ∧ m'.control = .idle ∧
        m'.board.received = m.board.received ∧ m'.board.settled = m.board.settled ∧
        m'.run = some {
          raw := { capacity := m.sizing.inbound }
          alarms := { capacity := m.sizing.events }
          outbound := { capacity := m.sizing.outbound } }) ∨
      (∃ reason phase phase' r m₁, deed = none ∧ m.control = .tearing reason phase ∧
        m.run = some r ∧ m.Tears r phase m₁ phase' ∧
        m' = { m₁ with control := .tearing reason phase' }) ∨
      ∃ reason r, deed = none ∧ m.control = .tearing reason .clearing ∧ m.run = some r ∧
        (m.clear r).Rests m' := by
  cases h with
  | accept h hq =>
    rename_i request rest
    refine .inl ⟨rfl, ?_⟩
    rcases take_cases { m with requests := rest } request with ⟨answer, ha⟩ | ⟨q, hr⟩
    · rw [ha]
      exact ⟨rfl, .inl rfl, rfl, rfl, rfl, fits_idle _⟩
    · rw [hr]
      obtain ⟨h₁, h₂, h₃, h₄, h₅, h₆⟩ := rests_tearDown { m with requests := rest } (.request q)
      exact ⟨h₁, h₂, h₃, h₄, h₅, h₆⟩
  | notice h hf hl hs =>
    obtain ⟨h₁, h₂, h₃, h₄, h₅, h₆⟩ := rests_tearDown { m with failure := false } .failure
    exact .inl ⟨rfl, h₁, h₂, h₃, h₄, h₅, h₆⟩
  | ignore h hf hl => exact .inl ⟨rfl, rfl, .inl rfl, rfl, rfl, rfl, h ▸ fits_idle _⟩
  | giveUp text h =>
    refine .inl ⟨rfl, rfl, .inl rfl, ?_, ?_, ?_, fits_idle _⟩
    · exact Board.active_fail _ _
    · exact Board.received_fail _ _
    · exact Board.settled_fail _ _
  | begin now h hw hc => exact .inr (.inl ⟨_, now, rfl, h, hc, rfl, rfl, rfl, rfl, rfl⟩)
  | tear h hr ht => exact .inr (.inr (.inl ⟨_, _, _, _, _, rfl, h, hr, ht, rfl⟩))
  | clear h hr => exact .inr (.inr (.inr ⟨_, _, rfl, h, hr, rests_afterwards rfl _⟩))

end Machine

end Conduit
