import Conduit.Proofs.Pipeline.Phases

/-!
# How workers leave

A worker leaves a run by its exit: it shows its failure if it has one, reports it, and is gone. All
that is told of failures while a run is live is told on the way out (`Exit.Tells`): a worker that is
not leaving tells nothing, and no worker touches the exit of another. So a move of the machine is a
step of one worker on its way, or at its work, or it is nobody's and leaves all exits alone, or it is
the controller's (`Machine.DoesBy.cases`).
-/

namespace Conduit

open Stage

variable {σ : Type}

/-! ## Exits -/

def Receiver.exit? : Receiver → Option Exit
  | .leaving exit => some exit
  | _ => none

def Processor.exit? : Processor → Option Exit
  | .leaving exit => some exit
  | _ => none

def Sender.exit? : Sender → Option Exit
  | .leaving exit => some exit
  | _ => none

/-- The exit of a worker that is leaving. -/
def Run.exit? (r : Run) : Worker → Option Exit
  | .receive => r.receiver.exit?
  | .process => r.processor.exit?
  | .send => r.sender.exit?

namespace Exit

def isBroken : Exit → Bool
  | .failing _ broken | .reporting broken | .gone broken => broken

theorem Does.isBroken {board board' : Board} {failure failure' : Bool} {exit exit' : Exit}
    (h : exit.Does board failure board' failure' exit') : exit'.isBroken = exit.isBroken := by
  cases h <;> rfl

/-- What a move of a worker tells of failures, from its exit, if any, to the one that it has
afterwards. -/
inductive Tells (w : Worker) (deed : Option (Deed σ)) (board : Board) (failure : Bool) :
    Option Exit → Board → Bool → Option Exit → Prop
  /-- A worker that is leaving goes on with it. -/
  | leaving {exit exit' : Exit} {board' : Board} {failure' : Bool}
      (h : exit.Does board failure board' failure' exit') :
    Tells w deed board failure (some exit) board' failure' (some exit')
  /-- Any other worker tells nothing, and if it begins to leave it has nothing to report yet. -/
  | working {board' : Board} {exit' : Option Exit} (hb : board'.health = board.health)
      (hr : ∀ broken, exit' ≠ some (.reporting broken))
      (hx : ∀ exit ∈ exit', exit.isBroken = true → deed = some (.broke w)) :
    Tells w deed board failure none board' failure exit'

section

variable {w : Worker} {deed : Option (Deed σ)} {board board' : Board} {failure failure' : Bool}
  {exit? exit?' : Option Exit} (h : Tells w deed board failure exit? board' failure' exit?')

include h

/-- No worker shows another state than that the run has failed. -/
theorem Tells.state : board'.state = .failed ∨ board'.state = board.state := by
  cases h with
  | leaving he =>
    cases he with
    | fail => exact .inl (Board.state_fail _ _)
    | report => exact .inr rfl
  | working hb => exact .inr (congrArg Prod.fst hb)

theorem Tells.state_eq_failed (hs : board.state = .failed) : board'.state = .failed := by
  rcases h.state with hf | he
  · exact hf
  · exact he.trans hs

/-- A worker that does not break down is not broken when it leaves. -/
theorem Tells.isBroken (hd : deed ≠ some (.broke w))
    (hx : ∀ exit, exit? = some exit → exit.isBroken = false) {exit' : Exit}
    (hx' : exit?' = some exit') : exit'.isBroken = false := by
  cases h with
  | leaving he =>
    cases hx'
    exact he.isBroken.trans (hx _ rfl)
  | working _ _ hbroken =>
    cases hb : exit'.isBroken with
    | false => rfl
    | true => exact absurd (hbroken exit' hx' hb) hd

/-- Who is to report a failure has shown it just before. -/
theorem Tells.exists_failing {broken : Bool} (hx : exit?' = some (.reporting broken)) :
    ∃ text, exit? = some (.failing text broken) := by
  cases h with
  | leaving he =>
    cases he with
    | fail text => cases hx; exact ⟨text, rfl⟩
    | report => cases hx
  | working hb hr => exact absurd hx (hr broken)

/-- A failure that is shown is reported, or is to be reported, or was shown before. -/
theorem Tells.reported_or (hs : board'.state = .failed) :
    failure' = true ∨ (∃ broken, exit?' = some (.reporting broken)) ∨
      board.state = .failed ∧ failure' = failure ∧ exit? = none := by
  cases h with
  | leaving he =>
    cases he with
    | fail text broken => exact .inr (.inl ⟨broken, rfl⟩)
    | report => exact .inl rfl
  | working hb => exact .inr (.inr ⟨(congrArg Prod.fst hb).symm.trans hs, rfl, rfl⟩)

end

end Exit

theorem Receiver.exit?_eq_some_iff {p : Receiver} {exit : Exit} :
    p.exit? = some exit ↔ p = .leaving exit := by
  cases p <;> simp [exit?]

theorem Processor.exit?_eq_some_iff {p : Processor} {exit : Exit} :
    p.exit? = some exit ↔ p = .leaving exit := by
  cases p <;> simp [exit?]

theorem Sender.exit?_eq_some_iff {p : Sender} {exit : Exit} :
    p.exit? = some exit ↔ p = .leaving exit := by
  cases p <;> simp [exit?]

theorem Machine.gone?_eq_some_iff {r : Run} {w : Worker} {broken : Bool} :
    gone? r w = some broken ↔ r.exit? w = some (.gone broken) := by
  cases w with
  | receive =>
    rw [Run.exit?, Receiver.exit?_eq_some_iff]
    exact ⟨gone?_receive, fun h ↦ by simp [gone?, h]⟩
  | process =>
    rw [Run.exit?, Processor.exit?_eq_some_iff]
    exact ⟨gone?_process, fun h ↦ by simp [gone?, h]⟩
  | send =>
    rw [Run.exit?, Sender.exit?_eq_some_iff]
    exact ⟨gone?_send, fun h ↦ by simp [gone?, h]⟩

section Workers

variable {type : String} {deed : Option (Deed σ)}

theorem Receiver.Does.tells {s s' : Receiver.Share} (h : Receiver.Does type s deed s') :
    Exit.Tells .receive deed s.board s.failure s.receiver.exit? s'.board s'.failure
      s'.receiver.exit? := by
  cases h with
  | leave h he =>
    rw [h]
    exact .leaving he
  | breakDown h =>
    rw [h]
    exact .working rfl nofun fun _ _ _ ↦ rfl
  | quit h =>
    rw [h]
    exact .working rfl nofun (by rintro _ ⟨⟩ ⟨⟩)
  | giveUp e h =>
    rw [h]
    exact .working rfl nofun (by rintro _ ⟨⟩ ⟨⟩)
  | fail e h =>
    rw [h]
    exact .working rfl nofun (by rintro _ ⟨⟩ ⟨⟩)
  | _ =>
    simp_all only
    exact .working rfl nofun nofun

theorem Sender.Does.tells {s s' : Sender.Share} (h : Sender.Does type s deed s') :
    Exit.Tells .send deed s.board s.failure s.sender.exit? s'.board s'.failure s'.sender.exit? := by
  cases h with
  | leave h he =>
    rw [h]
    exact .leaving he
  | breakDown w h =>
    rw [h]
    exact .working rfl nofun fun _ _ _ ↦ rfl
  | quit h =>
    rw [h]
    exact .working rfl nofun (by rintro _ ⟨⟩ ⟨⟩)
  | giveUp e h =>
    rw [h]
    exact .working rfl nofun (by rintro _ ⟨⟩ ⟨⟩)
  | fail e h =>
    rw [h]
    exact .working rfl nofun (by rintro _ ⟨⟩ ⟨⟩)
  | _ =>
    simp_all only
    exact .working rfl nofun nofun

theorem Processor.Does.tells [Behaviour σ] {s s' : Processor.Share σ} (h : Processor.Does s deed s') :
    Exit.Tells .process deed s.board s.failure s.processor.exit? s'.board s'.failure
      s'.processor.exit? := by
  cases h with
  | leave h he =>
    rw [h]
    exact .leaving he
  | breakDown patience moment hx hc hp =>
    have hnone : s.processor.exit? = none := by
      cases hpos : s.processor <;> simp_all [exit?, input?]
    rw [hnone]
    exact .working rfl nofun fun _ _ _ ↦ rfl
  | quit h =>
    rw [h]
    exact .working rfl nofun (by rintro _ ⟨⟩ ⟨⟩)
  | @resume next h =>
    rw [h]
    cases next <;> exact .working rfl nofun nofun
  | look h =>
    rw [h]
    cases ha : s.board.active <;> exact .working rfl nofun nofun
  | count h =>
    rw [h]
    exact .working (Board.health_count _ _) nofun nofun
  | _ =>
    simp_all only
    exact .working rfl nofun nofun

end Workers

/-! ## Moves -/

theorem Processor.Does.isSome_chain [Behaviour σ] {s s' : Processor.Share σ}
    {deed : Option (Deed σ)} (h : Processor.Does s deed s') (hc : s.chain.isSome = true) :
    s'.chain.isSome = true := by
  cases h with
  | answerMessage => rfl
  | answerAlarm => rfl
  | breakDown => rfl
  | _ => exact hc

namespace Machine

variable [Behaviour σ] {m m' : Machine σ}

/-- What a worker does changes the board, the failure that is reported, the chain and the run, and
in the run no exit but its own. -/
theorem DoesBy.cases {move : Move} {deed : Option (Deed σ)} (h : m.DoesBy move deed m') :
    (∃ w r r', move.worker? = some w ∧ m.run = some r ∧
        m' = { m with
          board := m'.board, failure := m'.failure, chain := m'.chain, run := some r' } ∧
        (m.chain.isSome = true → m'.chain.isSome = true) ∧
        (∀ w', w' ≠ w → r'.exit? w' = r.exit? w') ∧
        Exit.Tells w deed m.board m.failure (r.exit? w) m'.board m'.failure (r'.exit? w)) ∨
      (∃ r r', move.worker? = none ∧ (∀ control : Control, ¬ control.Admits move) ∧ deed = none ∧
        m.run = some r ∧ m' = m.setRun r' ∧ ∀ w, r'.exit? w = r.exit? w) ∨
      move.worker? = none ∧ m.control.Admits move ∧ m.Controls deed m' := by
  cases h with
  | @receiver move r deed s hw hr h =>
    refine .inl ⟨.receive, r, r.withReceiver s, hw, hr, rfl, id, ?_, h.tells⟩
    rintro (_ | _ | _) hne
    · exact absurd rfl hne
    · rfl
    · rfl
  | @sender move r deed s hw hr h =>
    refine .inl ⟨.send, r, r.withSender s, hw, hr, rfl, id, ?_, h.tells⟩
    rintro (_ | _ | _) hne
    · rfl
    · rfl
    · exact absurd rfl hne
  | @processor move r deed s hw hr h =>
    refine .inl ⟨.process, r, r.withProcessor s, hw, hr, rfl, h.isSome_chain, ?_, h.tells⟩
    rintro (_ | _ | _) hne
    · rfl
    · exact absurd rfl hne
    · rfl
  | ring hr ha hf => exact .inr (.inl ⟨_, _, rfl, nofun, rfl, hr, rfl, fun w ↦ by cases w <;> rfl⟩)
  | lose hr ha hf => exact .inr (.inl ⟨_, _, rfl, nofun, rfl, hr, rfl, fun w ↦ by cases w <;> rfl⟩)
  | signal hr h => exact .inr (.inl ⟨_, _, rfl, nofun, rfl, hr, rfl, fun w ↦ by cases w <;> rfl⟩)
  | controller hc h => exact .inr (.inr ⟨hc.worker?_eq_none, hc, h⟩)

omit [Behaviour σ] in
/-- To tear a run down leaves its exits alone. -/
theorem exits_of_tears {r : Run} {phase phase' : Phase} (hr : m.run = some r)
    (ht : m.Tears r phase m' phase') :
    ∃ r', m'.run = some r' ∧ ∀ w, r'.exit? w = r.exit? w := by
  cases ht with
  | mark failed => exact ⟨r, by cases failed <;> exact hr, fun _ ↦ rfl⟩
  | close => exact ⟨_, rfl, fun w ↦ by cases w <;> rfl⟩
  | wake => exact ⟨_, rfl, fun w ↦ by cases w <;> rfl⟩
  | joinReceiver => exact ⟨r, (run_join m _ _).trans hr, fun _ ↦ rfl⟩
  | joinProcessor => exact ⟨r, (run_join m _ _).trans hr, fun _ ↦ rfl⟩
  | joinSender => exact ⟨r, (run_join m _ _).trans hr, fun _ ↦ rfl⟩
  | _ => exact ⟨r, hr, fun _ ↦ rfl⟩

end Machine

end Conduit
