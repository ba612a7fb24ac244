import Conduit.Proofs.Pipeline.Controller
import Conduit.Proofs.Pipeline.History

/-!
# Order in tearing down

A run is torn down in phases, and what a phase has brought about stays: the workers have been told
not to go on, the outbound queue is closed, and one worker after the other is gone. The processor
is woken up when no receiver is left, and from then on it has the signal, has taken it, or is on
its way out, whatever alarms do (`Machine.Torn`). This is so in all machines, in any order of moves
(`History.orderly`).
-/

namespace Conduit

open Stage

variable {σ : Type}

/-- How far a run is torn down. -/
def Phase.rank : Phase → Nat
  | .deactivating => 0
  | .looking => 1
  | .marking _ => 2
  | .stopping => 3
  | .closing => 4
  | .joining .receive => 5
  | .waking => 6
  | .joining .process => 7
  | .joining .send => 8
  | .clearing => 9

/-- The processor has found out that it is not to go on, or will, once it waits for the signal. -/
def Processor.Knows (p : Processor) (signal : Latch) : Prop :=
  signal.isSet = true ∨ p = .woken ∨ ∃ exit, p = .leaving exit

/-- The processor has a chain, unless it leaves. -/
def Processor.Has (p : Processor) (chain : Option (Chain σ)) : Prop :=
  chain.isSome = true ∨ ∃ exit, p = .leaving exit

namespace Machine

/-- What has been brought about when a run is torn down up to a phase. -/
structure Torn (rank : Nat) (m : Machine σ) (r : Run) : Prop where
  inactive : 1 ≤ rank → m.board.active = false
  closed : 5 ≤ rank → r.outbound.closed = true
  receiver : 6 ≤ rank → ∃ broken, r.receiver = .leaving (.gone broken)
  woken : 7 ≤ rank → r.processor.Knows r.signal
  processor : 8 ≤ rank → ∃ broken, r.processor = .leaving (.gone broken)
  sender : 9 ≤ rank → ∃ broken, r.sender = .leaving (.gone broken)

/-- A run is live while it is torn down, and not while one begins; the processor has the chain. -/
structure Orderly (m : Machine σ) : Prop where
  resting : m.control = .starting ∨ m.control = .ended → m.run = none
  torn : ∀ reason phase, m.control = .tearing reason phase →
    ∃ r, m.run = some r ∧ m.Torn phase.rank r
  lent : ∀ r, m.run = some r → r.processor.Has m.chain

end Machine

/-! ## Workers -/

theorem Exit.Does.active {board board' : Board} {failure failure' : Bool} {exit exit' : Exit}
    (h : exit.Does board failure board' failure' exit') : board'.active = board.active := by
  cases h with
  | fail => exact Board.active_fail _ _
  | report => rfl

theorem Exit.Does.ne_gone {board board' : Board} {failure failure' : Bool} {exit exit' : Exit}
    (h : exit.Does board failure board' failure' exit') (broken : Bool) : exit ≠ .gone broken := by
  cases h <;> exact fun he ↦ by cases he

section Frames

variable {type : String} {deed : Option (Deed σ)}

namespace Receiver

variable {s s' : Share} (h : Does type s deed s')

include h

theorem Does.active : s'.board.active = s.board.active := by
  cases h with
  | leave _ he => exact he.active
  | _ => rfl

theorem Does.isSet (hs : s.signal.isSet = true) : s'.signal.isSet = true := by
  cases h with
  | wake => rfl
  | _ => exact hs

/-- A receiver that is gone does nothing. -/
theorem Does.ne_gone (broken : Bool) : s.receiver ≠ .leaving (.gone broken) := by
  intro hg
  cases h with
  | leave h he => exact he.ne_gone broken (Receiver.leaving.inj (h.symm.trans hg))
  | _ => simp_all

end Receiver

namespace Sender

variable {s s' : Share} (h : Does type s deed s')

include h

theorem Does.active : s'.board.active = s.board.active := by
  cases h with
  | leave _ he => exact he.active
  | _ => rfl

theorem Does.closed : s'.outbound.closed = s.outbound.closed := by
  cases h <;> rfl

theorem Does.ne_gone (broken : Bool) : s.sender ≠ .leaving (.gone broken) := by
  intro hg
  cases h with
  | leave h he => exact he.ne_gone broken (Sender.leaving.inj (h.symm.trans hg))
  | _ => simp_all

end Sender

namespace Processor

variable [Behaviour σ] {s s' : Share σ} (h : Does s deed s')

include h

theorem Does.active : s'.board.active = s.board.active := by
  cases h with
  | count => exact Board.active_count _ _
  | leave _ he => exact he.active
  | _ => rfl

theorem Does.closed : s'.outbound.closed = s.outbound.closed := by
  cases h <;> rfl

theorem Does.ne_gone (broken : Bool) : s.processor ≠ .leaving (.gone broken) := by
  intro hg
  cases h with
  | leave h he => exact he.ne_gone broken (Processor.leaving.inj (h.symm.trans hg))
  | breakDown _ _ hx =>
    rw [hg] at hx
    cases hx
  | _ => simp_all

/-- A processor that is not to go on and knows it does not forget it. -/
theorem Does.knows (ha : s.board.active = false) (hk : s.processor.Knows s.signal) :
    s'.processor.Knows s'.signal := by
  cases h with
  | wake => exact .inr (.inl rfl)
  | quit => exact .inr (.inr ⟨_, rfl⟩)
  | breakDown => exact .inr (.inr ⟨_, rfl⟩)
  | leave => exact .inr (.inr ⟨_, rfl⟩)
  | goOn _ ha' => exact absurd (ha.symm.trans ha') (by decide)
  | _ =>
    rcases hk with hs | hp | ⟨exit, hp⟩
    · exact .inl hs
    · simp_all
    · simp_all

/-- The processor has the chain as long as it does not leave. -/
theorem Does.lent (hl : s.processor.Has s.chain) : s'.processor.Has s'.chain := by
  cases h with
  | answerAlarm => exact .inl rfl
  | answerMessage => exact .inl rfl
  | breakDown => exact .inl rfl
  | quit => exact .inr ⟨_, rfl⟩
  | leave => exact .inr ⟨_, rfl⟩
  | _ =>
    refine .inl (hl.resolve_right ?_)
    rintro ⟨exit, he⟩
    simp_all

end Processor

end Frames

namespace Run

variable {r r' : Run} (h : r.Rings r')

include h

theorem Rings.raw : r'.raw = r.raw := by cases h <;> rfl

theorem Rings.outbound : r'.outbound = r.outbound := by cases h <;> rfl

theorem Rings.receiver : r'.receiver = r.receiver := by cases h <;> rfl

theorem Rings.processor : r'.processor = r.processor := by cases h <;> rfl

theorem Rings.sender : r'.sender = r.sender := by cases h <;> rfl

theorem Rings.isSet (hs : r.signal.isSet = true) : r'.signal.isSet = true := by
  cases h with
  | signal => rfl
  | _ => exact hs

end Run

/-! ## Phases -/

namespace Machine

variable {m m' : Machine σ} {r : Run} {n : Nat}

theorem Tears.rank_lt {phase phase' : Phase} (h : m.Tears r phase m' phase') :
    phase.rank < phase'.rank := by
  cases h <;> simp [Phase.rank]

theorem gone?_receive {broken : Bool} (h : gone? r .receive = some broken) :
    r.receiver = .leaving (.gone broken) := by
  unfold gone? at h
  dsimp only at h
  split at h
  · rename_i hpos
    rw [hpos, Option.some.inj h]
  · cases h

theorem gone?_process {broken : Bool} (h : gone? r .process = some broken) :
    r.processor = .leaving (.gone broken) := by
  unfold gone? at h
  dsimp only at h
  split at h
  · rename_i hpos
    rw [hpos, Option.some.inj h]
  · cases h

theorem gone?_send {broken : Bool} (h : gone? r .send = some broken) :
    r.sender = .leaving (.gone broken) := by
  unfold gone? at h
  dsimp only at h
  split at h
  · rename_i hpos
    rw [hpos, Option.some.inj h]
  · cases h

@[simp] theorem run_join (m : Machine σ) (w : Worker) (broken : Bool) :
    (m.join w broken).run = m.run := by
  cases broken <;> cases w <;> rfl

@[simp] theorem active_join (m : Machine σ) (w : Worker) (broken : Bool) :
    (m.join w broken).board.active = m.board.active := by
  cases broken with
  | false => rfl
  | true => cases w <;> exact Board.active_fail _ _

theorem chain_join (m : Machine σ) {w : Worker} (hw : w ≠ .process) (broken : Bool) :
    (m.join w broken).chain = m.chain := by
  cases broken with
  | false => rfl
  | true =>
    cases w with
    | process => exact absurd rfl hw
    | receive => rfl
    | send => rfl

/-- What was brought about for a run does not depend on the rest of the machine. -/
theorem Torn.of_active (h : m.Torn n r) (ha : m'.board.active = m.board.active) : m'.Torn n r :=
  { h with inactive := fun hn ↦ ha.trans (h.inactive hn) }

theorem Torn.of_alarms {r' : Run} (h : m.Torn n r) (hr : r.Rings r') : (m.setRun r').Torn n r' where
  inactive := h.inactive
  closed hn := hr.outbound ▸ h.closed hn
  receiver hn := hr.receiver ▸ h.receiver hn
  woken hn := (h.woken hn).imp hr.isSet fun hk ↦ hr.processor ▸ hk
  processor hn := hr.processor ▸ h.processor hn
  sender hn := hr.sender ▸ h.sender hn

theorem Torn.of_receiver {type : String} {deed : Option (Deed σ)} {s : Receiver.Share}
    (h : m.Torn n r) (hd : Receiver.Does type (m.receiverShare r) deed s) :
    (m.withReceiver r s).Torn n (r.withReceiver s) where
  inactive hn := hd.active.trans (h.inactive hn)
  closed := h.closed
  receiver hn := (h.receiver hn).elim fun broken hg ↦ absurd hg (hd.ne_gone broken)
  woken hn := (h.woken hn).imp_left hd.isSet
  processor := h.processor
  sender := h.sender

theorem Torn.of_sender {type : String} {deed : Option (Deed σ)} {s : Sender.Share}
    (h : m.Torn n r) (hd : Sender.Does type (m.senderShare r) deed s) :
    (m.withSender r s).Torn n (r.withSender s) where
  inactive hn := hd.active.trans (h.inactive hn)
  closed hn := hd.closed.trans (h.closed hn)
  receiver := h.receiver
  woken := h.woken
  processor := h.processor
  sender hn := (h.sender hn).elim fun broken hg ↦ absurd hg (hd.ne_gone broken)

/-- A phase adds what it brings about. -/
theorem Torn.of_tears {phase phase' : Phase} (h : m.Torn phase.rank r) (hr : m.run = some r)
    (ht : m.Tears r phase m' phase') : ∃ r', m'.run = some r' ∧ m'.Torn phase'.rank r' := by
  cases ht with
  | deactivate =>
    refine ⟨r, hr, fun _ ↦ rfl, ?_, ?_, ?_, ?_, ?_⟩
    all_goals exact fun hn ↦ absurd hn (by decide)
  | look =>
    refine ⟨r, hr, fun _ ↦ h.inactive (by decide), ?_, ?_, ?_, ?_, ?_⟩
    all_goals exact fun hn ↦ absurd hn (by simp [Phase.rank])
  | mark failed =>
    refine ⟨r, by cases failed <;> exact hr, ?_⟩
    have ha : m.board.active = false := h.inactive (by simp [Phase.rank])
    refine ⟨fun _ ↦ by cases failed <;> exact ha, ?_, ?_, ?_, ?_, ?_⟩
    all_goals exact fun hn ↦ absurd hn (by decide)
  | stop =>
    refine ⟨r, hr, fun _ ↦ h.inactive (by decide), ?_, ?_, ?_, ?_, ?_⟩
    all_goals exact fun hn ↦ absurd hn (by decide)
  | close =>
    refine ⟨_, rfl, fun _ ↦ h.inactive (by decide), fun _ ↦ rfl, ?_, ?_, ?_, ?_⟩
    all_goals exact fun hn ↦ absurd hn (by decide)
  | joinReceiver hg =>
    refine ⟨r, (run_join m _ _).trans hr,
      fun _ ↦ (active_join m _ _).trans (h.inactive (by decide)),
      fun _ ↦ h.closed (by decide), fun _ ↦ ⟨_, gone?_receive hg⟩, ?_, ?_, ?_⟩
    all_goals exact fun hn ↦ absurd hn (by decide)
  | wake =>
    refine ⟨_, rfl, fun _ ↦ h.inactive (by decide), fun _ ↦ h.closed (by decide),
      fun _ ↦ h.receiver (by decide), fun _ ↦ .inl rfl, ?_, ?_⟩
    all_goals exact fun hn ↦ absurd hn (by decide)
  | joinProcessor hg =>
    refine ⟨r, (run_join m _ _).trans hr,
      fun _ ↦ (active_join m _ _).trans (h.inactive (by decide)),
      fun _ ↦ h.closed (by decide), fun _ ↦ h.receiver (by decide), fun _ ↦ h.woken (by decide),
      fun _ ↦ ⟨_, gone?_process hg⟩, fun hn ↦ absurd hn (by decide)⟩
  | joinSender hg =>
    exact ⟨r, (run_join m _ _).trans hr, fun _ ↦ (active_join m _ _).trans (h.inactive (by decide)),
      fun _ ↦ h.closed (by decide), fun _ ↦ h.receiver (by decide), fun _ ↦ h.woken (by decide),
      fun _ ↦ h.processor (by decide), fun _ ↦ ⟨_, gone?_send hg⟩⟩

/-- The processor has the chain back to itself, or has given it back. -/
theorem lent_of_tears {phase phase' : Phase} (hr : m.run = some r) (hl : r.processor.Has m.chain)
    (ht : m.Tears r phase m' phase') : ∀ r', m'.run = some r' → r'.processor.Has m'.chain := by
  have hstay {m₁ : Machine σ} (hr₁ : m₁.run = m.run) (hc : m₁.chain = m.chain) :
      ∀ r', m₁.run = some r' → r'.processor.Has m₁.chain := by
    intro r' hr'
    obtain rfl : r = r' := Option.some.inj (hr.symm.trans (hr₁ ▸ hr'))
    rwa [hc]
  cases ht with
  | deactivate => exact hstay rfl rfl
  | look => exact hstay rfl rfl
  | mark failed => cases failed <;> exact hstay rfl rfl
  | stop => exact hstay rfl rfl
  | close =>
    intro r' hr'
    cases hr'
    exact hl
  | joinReceiver hg => exact hstay (run_join m _ _) (chain_join m (by decide) _)
  | wake =>
    intro r' hr'
    cases hr'
    exact hl
  | joinProcessor hg =>
    intro r' hr'
    rw [run_join, hr] at hr'
    cases hr'
    exact .inr ⟨_, gone?_process hg⟩
  | joinSender hg => exact hstay (run_join m _ _) (chain_join m (by decide) _)

/-! ## Order -/

/-- What a worker or an alarm does keeps a run in order. -/
theorem Orderly.of_run {r' : Run} (h : m.Orderly) (hr : m.run = some r) (hr' : m'.run = some r')
    (hcontrol : m'.control = m.control)
    (htorn : ∀ n, m.Torn n r → m'.Torn n r')
    (hlent : r.processor.Has m.chain → r'.processor.Has m'.chain) : m'.Orderly where
  resting hc := by
    have := h.resting (hcontrol ▸ hc)
    rw [hr] at this
    cases this
  torn reason phase hc := by
    obtain ⟨r₁, hr₁, ht⟩ := h.torn reason phase (hcontrol ▸ hc)
    obtain rfl : r = r₁ := Option.some.inj (hr.symm.trans hr₁)
    exact ⟨r', hr', htorn _ ht⟩
  lent r₁ hr₁ := by
    obtain rfl : r' = r₁ := Option.some.inj (hr'.symm.trans hr₁)
    exact hlent (h.lent r hr)

theorem Orderly.of_rests (h : ∀ r, m.run = some r → r.processor.Has m.chain) (hm : m.Rests m') :
    m'.Orderly where
  resting hc := hm.fits.resting hc
  torn reason phase hc := by
    obtain ⟨rfl, r, hr⟩ := hm.fits.tearing reason phase hc
    refine ⟨r, hr, ?_⟩
    constructor <;> intro hn <;> exact absurd hn (by decide)
  lent r hr := by
    have hr₀ : m.run = some r := hm.run ▸ hr
    rcases hm.chain with hc | ⟨hnone, -⟩
    · exact hc ▸ h r hr₀
    · exact absurd (hr₀.symm.trans hnone) (by simp)

variable [Behaviour σ]

theorem Torn.of_processor {deed : Option (Deed σ)} {s : Processor.Share σ} (h : m.Torn n r)
    (hd : Processor.Does (m.processorShare r) deed s) :
    (m.withProcessor r s).Torn n (r.withProcessor s) where
  inactive hn := hd.active.trans (h.inactive hn)
  closed hn := hd.closed.trans (h.closed hn)
  receiver := h.receiver
  woken hn := hd.knows (h.inactive (by omega)) (h.woken hn)
  processor hn := (h.processor hn).elim fun broken hg ↦ absurd hg (hd.ne_gone broken)
  sender := h.sender

/-- Whatever a machine does, its run stays in order. -/
theorem Orderly.of_does {deed : Option (Deed σ)} (h : m.Orderly) (hd : m.Does deed m') :
    m'.Orderly := by
  cases hd with
  | receiver hr hd => exact h.of_run hr rfl rfl (fun _ ht ↦ ht.of_receiver hd) id
  | sender hr hd => exact h.of_run hr rfl rfl (fun _ ht ↦ ht.of_sender hd) id
  | processor hr hd => exact h.of_run hr rfl rfl (fun _ ht ↦ ht.of_processor hd) hd.lent
  | alarms hr hd =>
    exact h.of_run hr rfl rfl (fun _ ht ↦ ht.of_alarms hd) (hd.processor ▸ id)
  | controller hd =>
    rcases controls_cases hd with ⟨-, hm⟩ | ⟨c, now, -, -, hc, hc', hi, -, -, hr'⟩ |
      ⟨reason, phase, phase', r, m₁, -, hc, hr, ht, rfl⟩ | ⟨reason, r, -, hc, hr, hm⟩
    · exact .of_rests h.lent hm
    · refine ⟨?_, ?_, fun r hr ↦ .inl (by rw [hc']; rfl)⟩
      · rw [hi]
        rintro (h | h) <;> cases h
      · rw [hi]
        exact fun _ _ h ↦ by cases h
    · obtain ⟨r₀, hr₀, htorn⟩ := h.torn reason phase hc
      obtain rfl : r = r₀ := Option.some.inj (hr.symm.trans hr₀)
      obtain ⟨r', hr', htorn'⟩ := htorn.of_tears hr ht
      have hlent := lent_of_tears hr (h.lent r hr) ht
      refine ⟨?_, fun _ _ he ↦ ?_, hlent⟩
      · rintro (h | h) <;> cases h
      · cases he
        exact ⟨r', hr', htorn'.of_active rfl⟩
    · exact .of_rests (fun r hr ↦ by cases hr) hm

/-- Nothing but the controller, and it only when it clears the run, ends a teardown, and no phase
comes before one that has been. -/
theorem tearing_or_cleared {deed : Option (Deed σ)} {reason : Reason} {phase : Phase}
    (hc : m.control = .tearing reason phase) (hd : m.Does deed m') :
    (∃ phase', m'.control = .tearing reason phase' ∧ phase.rank ≤ phase'.rank) ∨
      phase = .clearing ∧ ∃ r, m.run = some r ∧ m' = (m.clear r).afterwards reason := by
  cases hd with
  | receiver => exact .inl ⟨phase, hc, Nat.le_refl _⟩
  | sender => exact .inl ⟨phase, hc, Nat.le_refl _⟩
  | processor => exact .inl ⟨phase, hc, Nat.le_refl _⟩
  | alarms => exact .inl ⟨phase, hc, Nat.le_refl _⟩
  | controller hd =>
    refine (hd.of_tearing hc).imp_left ?_
    rintro ⟨_, _, phase', -, ht, rfl⟩
    exact ⟨phase', rfl, Nat.le_of_lt ht.rank_lt⟩

end Machine

theorem Machine.Orderly.of_host {m : Machine σ} (h : m.Orderly) (requests : List Request)
    (replies : List (Except PipelineError Lifecycle)) :
    ({ m with requests, replies } : Machine σ).Orderly where
  resting := h.resting
  torn reason phase hc := (h.torn reason phase hc).imp fun _ ht ↦ ⟨ht.1, ht.2.of_active rfl⟩
  lent := h.lent

theorem History.orderly {m : Machine σ} [Behaviour σ] (h : m.Orderly) (acts : List Act) :
    (m.history.after acts).machine.Orderly :=
  after_induction (P := fun h ↦ h.machine.Orderly) acts h
    (fun _ requests replies h ↦ h.of_host requests replies) fun _ _ _ h hd ↦ h.of_does hd

theorem Machine.orderly_ready (sizing : Config.Sizing) (inboundType outboundType : String)
    (c : Chain σ) : (Machine.ready sizing inboundType outboundType c).Orderly where
  resting _ := rfl
  torn _ _ h := by cases h
  lent _ h := by cases h

/-- What is true of a machine that is ready and of what is noted at first, and is kept by the host
and by every move of an orderly machine, is true after all acts. -/
theorem History.ready_noted [Behaviour σ] {γ : Type} {f : Machine σ → Move → γ → γ} {g : γ}
    {P : History σ → γ → Prop} (sizing : Config.Sizing) (inboundType outboundType : String)
    (c : Chain σ) (acts : List Act)
    (ready : P (Machine.ready sizing inboundType outboundType c).history g)
    (host : ∀ h g requests replies, P h g →
      P { h with machine := { h.machine with requests, replies } } g)
    (does : ∀ h g patience moment move m, h.machine.Orderly → P h g →
      h.machine.DoesBy move (h.machine.deed patience moment move) m →
      P ⟨m, Journal.noteAll h.journals (h.machine.deed patience moment move)⟩
        (f h.machine move g)) :
    let h := (Machine.ready sizing inboundType outboundType c).history
    (h.after acts).machine.Orderly ∧ P (h.after acts) (noted f h g acts) := by
  refine noted_induction (P := fun h g ↦ h.machine.Orderly ∧ P h g) acts ⟨?_, ready⟩ ?_ ?_
  · exact Machine.orderly_ready sizing inboundType outboundType c
  · rintro h g requests replies ⟨hm, hp⟩
    exact ⟨hm.of_host requests replies, host h g requests replies hp⟩
  · rintro h g patience moment move m ⟨hm, hp⟩ hd
    exact ⟨hm.of_does hd.does, does h g patience moment move m hm hp hd⟩

end Conduit
