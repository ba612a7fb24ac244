import Conduit.Proofs.Chain.Plain
import Conduit.Proofs.Pipeline.Order

/-!
# The counts on the board

In a pipeline with a plain chain a message that was received is in the hand of a worker or in a
queue, or has settled: it was sent, dropped or ended in an error, as the board shows, or the
outbound connector refused it. Every move keeps this balance (`Receiver.Does.balance`, `Sender.Does.balance`,
`Processor.Does.balance`), and so does the end of a run, which drops what is left in the queues when
no worker has anything in hand. So with no run live the counts account for every message
(`History.counts_account`).

A worker that breaks down takes what it has in hand with it, so no worker may have broken down.
-/

namespace Conduit

open Stage

variable {σ : Type}

/-! ## What is in flight -/

/-- The messages that the processor knows to have settled and has not counted. -/
def Processor.uncounted : Processor → Nat
  | .counting o _ => o.settled
  | _ => 0

/-- The wrapper that the sender has in hand. -/
def Sender.inHand : Sender → List Wrapper
  | .sending w => [w]
  | _ => []

/-- How many messages of a run have not settled. -/
def Run.inFlight (r : Run) : Nat :=
  r.incoming.length + r.outgoing.length + r.processor.uncounted + r.sender.inHand.length

namespace Deed

/-- How many wrappers the outbound connector refused. -/
def refusals : Option (Deed σ) → Nat
  | some .refused => 1
  | _ => 0

/-- The worker that broke down. -/
def broken : Option (Deed σ) → List Worker
  | some (.broke w) => [w]
  | _ => []

end Deed

namespace Journal

variable (j : Journal σ) (deed : Option (Deed σ))

theorem refused_note : (j.note deed).refused = j.refused + Deed.refusals deed := by
  rcases deed with _ | d
  · rfl
  · cases d <;> rfl

theorem broken_note : (j.note deed).broken = j.broken ++ Deed.broken deed := by
  rcases deed with _ | d
  · simp [note, Deed.broken]
  · cases d <;> simp [note, Deed.broken]

end Journal

/-! ## Workers keep the balance -/

theorem Exit.Does.counts {board board' : Board} {failure failure' : Bool} {exit exit' : Exit}
    (h : exit.Does board failure board' failure' exit') :
    board'.received = board.received ∧ board'.settled = board.settled := by
  cases h with
  | fail => exact ⟨Board.received_fail _ _, Board.settled_fail _ _⟩
  | report => exact ⟨rfl, rfl⟩

section Workers

variable {type : String} {deed : Option (Deed σ)}

theorem Receiver.Does.balance {s s' : Receiver.Share} (h : Receiver.Does type s deed s') :
    s'.board.received + (s.board.settled + (s.raw.items.length + s.receiver.inHand.length)) =
      s.board.received +
        (s'.board.settled + (s'.raw.items.length + s'.receiver.inHand.length)) := by
  cases h with
  | leave h he =>
    obtain ⟨hr, hs⟩ := he.counts
    simp [h, hr, hs, inHand]
  | receive m h =>
    simp [h, inHand, Board.settled]
    omega
  | queue m h => simp [h, inHand]
  | overflow m h =>
    have hreceived : (s.board.drop 1).received = s.board.received := rfl
    simp [h, inHand]
    omega
  | _ => simp_all [inHand]

theorem Sender.Does.balance {s s' : Sender.Share} (h : Sender.Does type s deed s')
    (hb : Deed.broken deed = []) :
    s'.board.received = s.board.received ∧
      s.board.settled + (s.outbound.items.length + s.sender.inHand.length) =
        s'.board.settled + Deed.refusals deed +
          (s'.outbound.items.length + s'.sender.inHand.length) := by
  cases h with
  | leave h he =>
    obtain ⟨hr, hs⟩ := he.counts
    simp [h, hr, hs, inHand, Deed.refusals]
  | send w h =>
    simp [h, inHand, Board.settled, Deed.refusals]
    omega
  | refuse w e h =>
    simp [h, inHand, Deed.refusals]
    omega
  | breakDown => cases hb
  | _ => simp_all [inHand, Deed.refusals]

variable [Behaviour σ] {P : σ → Prop}

/-- The answer of a plain chain has one outcome for a message and none for an alarm. -/
theorem Chain.Plain.respond (hP : Stage.Plain P) {c : Chain σ} (h : c.Plain P) (x : Input) :
    (c.respond x).chain.Plain P ∧
      ((c.respond x).progress = .returned →
        (c.respond x).output.delivered.length + (c.respond x).output.settled =
          x.message?.toList.length) := by
  cases x with
  | message patience moment m => exact h.process hP patience moment m
  | alarm patience moment a =>
    obtain ⟨hplain, hnone⟩ := h.expire hP patience moment a.stage a.token
    refine ⟨hplain, fun _ ↦ ?_⟩
    change (c.expire patience moment a.stage a.token).output.delivered.length +
      (c.expire patience moment a.stage a.token).output.settled = 0
    rw [hnone]
    rfl

namespace Processor

variable {s s' : Share σ}

/-- What the processor counts is what becomes of the messages that it takes, in a plain chain. -/
theorem Does.balance (hP : Stage.Plain P) (hc : ∀ c, s.chain = some c → c.Plain P)
    (h : Does s deed s') (hb : Deed.broken deed = []) :
    s'.board.received = s.board.received ∧
      s.board.settled + (s.processor.inHand.length + s.raw.items.length +
          (s.outbound.items.length + s.processor.leftover.length) + s.processor.uncounted) =
        s'.board.settled + (s'.processor.inHand.length + s'.raw.items.length +
          (s'.outbound.items.length + s'.processor.leftover.length) + s'.processor.uncounted) := by
  cases h with
  | leave h he =>
    obtain ⟨hr, hs⟩ := he.counts
    simp [h, hr, hs, inHand, leftover, uncounted]
  | answerMessage patience moment h hc' hp =>
    have hone := ((hc _ hc').respond hP _).2 hp
    change _ = 1 at hone
    simp [h, inHand, leftover, uncounted, Share.answered, Board.settled]
    omega
  | answerAlarm patience moment h hc' hp =>
    have hnone := ((hc _ hc').respond hP _).2 hp
    change _ = 0 at hnone
    simp [h, inHand, leftover, uncounted, Share.answered]
    omega
  | breakDown => cases hb
  | take h hi =>
    simp [h, hi, inHand, leftover, uncounted]
    omega
  | count h =>
    simp [h, inHand, leftover, uncounted]
    omega
  | @resume next h => cases next <;> simp [h, Errand.resume, inHand, leftover, uncounted]
  | queue h =>
    simp [h, inHand, leftover, uncounted]
    omega
  | overflow h =>
    refine ⟨rfl, ?_⟩
    simp [h, inHand, leftover, uncounted]
    omega
  | look h => split <;> simp_all [inHand, leftover, uncounted]
  | _ => simp_all [inHand, leftover, uncounted]

/-- A plain chain stays plain. -/
theorem Does.plain (hP : Stage.Plain P) (hc : ∀ c, s.chain = some c → c.Plain P)
    (h : Does s deed s') : ∀ c, s'.chain = some c → c.Plain P := by
  cases h with
  | answerMessage _ _ _ hs =>
    rintro _ ⟨⟩
    exact ((hc _ hs).respond hP _).1
  | answerAlarm _ _ _ hs =>
    rintro _ ⟨⟩
    exact ((hc _ hs).respond hP _).1
  | breakDown _ _ _ hs =>
    rintro _ ⟨⟩
    exact ((hc _ hs).respond hP _).1
  | _ => exact hc

end Processor

end Workers

/-! ## The controller keeps the balance -/

namespace Machine

/-- How many messages have not settled. -/
def inFlight (m : Machine σ) : Nat := (m.run.map Run.inFlight).getD 0

variable {m m' : Machine σ} {r : Run}

theorem counts_join (m : Machine σ) (w : Worker) (broken : Bool) :
    (m.join w broken).board.received = m.board.received ∧
      (m.join w broken).board.settled = m.board.settled ∧
      ∀ c, (m.join w broken).chain = some c → m.chain = some c := by
  cases broken with
  | false => exact ⟨rfl, rfl, fun _ hc ↦ hc⟩
  | true =>
    cases w with
    | process => exact ⟨Board.received_fail _ _, Board.settled_fail _ _, fun _ hc ↦ by cases hc⟩
    | _ => exact ⟨Board.received_fail _ _, Board.settled_fail _ _, fun _ hc ↦ hc⟩

theorem counts_tears {phase phase' : Phase} (hr : m.run = some r)
    (ht : m.Tears r phase m' phase') :
    (∃ r', m'.run = some r' ∧ r'.inFlight = r.inFlight) ∧
      m'.board.received = m.board.received ∧ m'.board.settled = m.board.settled ∧
      ∀ c, m'.chain = some c → m.chain = some c := by
  cases ht with
  | deactivate => exact ⟨⟨r, hr, rfl⟩, rfl, rfl, fun _ hc ↦ hc⟩
  | look => exact ⟨⟨r, hr, rfl⟩, rfl, rfl, fun _ hc ↦ hc⟩
  | mark failed => cases failed <;> exact ⟨⟨r, hr, rfl⟩, rfl, rfl, fun _ hc ↦ hc⟩
  | stop => exact ⟨⟨r, hr, rfl⟩, rfl, rfl, fun _ hc ↦ hc⟩
  | close => exact ⟨⟨_, rfl, rfl⟩, rfl, rfl, fun _ hc ↦ hc⟩
  | joinReceiver => exact ⟨⟨r, (run_join m _ _).trans hr, rfl⟩, counts_join m _ _⟩
  | wake => exact ⟨⟨_, rfl, rfl⟩, rfl, rfl, fun _ hc ↦ hc⟩
  | joinProcessor => exact ⟨⟨r, (run_join m _ _).trans hr, rfl⟩, counts_join m _ _⟩
  | joinSender => exact ⟨⟨r, (run_join m _ _).trans hr, rfl⟩, counts_join m _ _⟩

variable [Behaviour σ]

/-- To clear a run drops what is left in its queues. -/
theorem counts_clear (m : Machine σ) (r : Run) :
    (m.clear r).board.received = m.board.received ∧
      (m.clear r).board.settled =
        m.board.settled + (r.raw.items.length + r.outbound.items.length) := by
  have hdrop : (m.board.drop (r.raw.size + r.outbound.size)).settled =
      m.board.settled + (r.raw.items.length + r.outbound.items.length) := Board.settled_drop _ _
  unfold clear
  dsimp only
  split
  · exact ⟨rfl, hdrop⟩
  · exact ⟨rfl, hdrop⟩

omit [Behaviour σ] in
/-- When all workers are gone, what is in flight is in the queues. -/
theorem Torn.inFlight (ht : m.Torn 9 r) :
    r.inFlight = r.raw.items.length + r.outbound.items.length := by
  obtain ⟨_, hreceiver⟩ := ht.receiver (by decide)
  obtain ⟨_, hprocessor⟩ := ht.processor (by decide)
  obtain ⟨_, hsender⟩ := ht.sender (by decide)
  simp [Run.inFlight, Run.incoming, Run.outgoing, hreceiver, hprocessor, hsender,
    Receiver.inHand, Processor.inHand, Processor.leftover, Processor.uncounted, Sender.inHand]

end Machine

/-! ## Histories -/

namespace History

variable [Behaviour σ] {P : σ → Prop}

omit [Behaviour σ] in
/-- How many wrappers the outbound connector refused, over all runs. -/
def refused (h : History σ) : Nat := (h.journals.map (·.refused)).sum

/-- The chain is plain, and the counts are in balance unless a worker broke down. -/
structure Balanced (P : σ → Prop) (h : History σ) : Prop where
  plain : ∀ c, h.machine.chain = some c → c.Plain P
  counts : (∀ j ∈ h.journals, j.broken = []) →
    h.machine.board.received = h.machine.board.settled + h.refused + h.machine.inFlight

variable {h : History σ} {m' : Machine σ} {r : Run}

omit [Behaviour σ] in
/-- A move of a worker is noted in the journal of the run, with what the connector refused. -/
theorem Balanced.of_run {r' : Run} {j : Journal σ} {earlier : List (Journal σ)}
    {deed : Option (Deed σ)} (hb : h.Balanced P) (hj : h.journals = j :: earlier)
    (hr : h.machine.run = some r) (hr' : m'.run = some r') (hdeed : ∀ d, deed ≠ some (.began d))
    (hplain : ∀ c, m'.chain = some c → c.Plain P)
    (hlaw : Deed.broken deed = [] →
      m'.board.received + (h.machine.board.settled + r.inFlight) =
        h.machine.board.received + (m'.board.settled + Deed.refusals deed + r'.inFlight)) :
    Balanced P ⟨m', Journal.noteAll h.journals deed⟩ := by
  refine ⟨hplain, fun hbroken ↦ ?_⟩
  have hnote : Journal.noteAll h.journals deed = j.note deed :: earlier := by
    rw [hj]
    exact Journal.noteAll_cons hdeed j earlier
  simp only [hnote] at hbroken ⊢
  obtain ⟨hlatest, hearlier⟩ := List.forall_mem_cons.1 hbroken
  rw [Journal.broken_note, List.append_eq_nil_iff] at hlatest
  have hbefore := hb.counts (hj ▸ List.forall_mem_cons.2 ⟨hlatest.1, hearlier⟩)
  have hlaw := hlaw hlatest.2
  simp only [refused, hj, List.map_cons, List.sum_cons, Journal.refused_note, Machine.inFlight, hr,
    hr', Option.map_some, Option.getD_some] at hbefore ⊢
  omega

omit [Behaviour σ] in
theorem Balanced.of_rests (hb : h.Balanced P) (hm : h.machine.Rests m') :
    Balanced P ⟨m', h.journals⟩ where
  plain c hc := by
    rcases hm.chain with he | he
    · exact hb.plain c (he ▸ hc)
    · cases he.2.symm.trans hc
  counts hbroken := by
    have hrun : m'.inFlight = h.machine.inFlight := by
      rw [Machine.inFlight, hm.run, Machine.inFlight]
    rw [hm.received, hm.settled, hrun]
    exact hb.counts hbroken

/-- Whatever a machine does keeps the balance. -/
theorem Balanced.of_does (hP : Stage.Plain P) {c : Chain σ} {deed : Option (Deed σ)}
    (hb : h.Balanced P) (hm : h.machine.Orderly) (ho : h.Ordered c) (hd : h.machine.Does deed m') :
    Balanced P ⟨m', Journal.noteAll h.journals deed⟩ := by
  cases hd with
  | receiver hr hd =>
    obtain ⟨j, earlier, hj, -⟩ := ho.live _ hr
    have hzero : Deed.refusals deed = 0 := by cases hd <;> rfl
    have hlaw := hd.balance
    refine hb.of_run hj hr rfl hd.ne_began hb.plain fun _ ↦ ?_
    simp only [Machine.receiverShare, Machine.withReceiver, Run.withReceiver, Run.inFlight,
      Run.incoming, Run.outgoing, List.length_append] at hlaw ⊢
    omega
  | sender hr hd =>
    obtain ⟨j, earlier, hj, -⟩ := ho.live _ hr
    refine hb.of_run hj hr rfl hd.ne_began hb.plain fun hq ↦ ?_
    have hlaw := hd.balance hq
    simp only [Machine.senderShare, Machine.withSender, Run.withSender, Run.inFlight,
      Run.incoming, Run.outgoing, List.length_append] at hlaw ⊢
    omega
  | processor hr hd =>
    obtain ⟨j, earlier, hj, -⟩ := ho.live _ hr
    have hzero : Deed.refusals deed = 0 := by cases hd <;> rfl
    refine hb.of_run hj hr rfl hd.ne_began
      (hd.plain hP hb.plain) fun hq ↦ ?_
    have hlaw := hd.balance hP hb.plain hq
    simp only [Machine.processorShare, Machine.withProcessor, Run.withProcessor, Run.inFlight,
      Run.incoming, Run.outgoing, List.length_append] at hlaw ⊢
    omega
  | alarms hr hd =>
    obtain ⟨j, earlier, hj, -⟩ := ho.live _ hr
    refine hb.of_run hj hr rfl (fun _ he ↦ by cases he) hb.plain fun _ ↦ ?_
    simp only [Machine.setRun, Run.inFlight, Run.incoming, Run.outgoing, hd.processor, hd.raw,
      hd.receiver, hd.outbound, hd.sender, Deed.refusals]
    omega
  | controller hd =>
    rcases Machine.controls_cases hd with ⟨rfl, hm'⟩ |
      ⟨e, now, rfl, hs, hc, hc', -, hreceived, hsettled, hr'⟩ |
      ⟨reason, phase, phase', r, m₁, rfl, -, hr, ht, rfl⟩ | ⟨reason, r, rfl, hc, hr, hm'⟩
    · rw [Journal.noteAll_none]
      exact hb.of_rests hm'
    · have hnone : h.machine.run = none := hm.resting (.inl hs)
      refine ⟨fun d hd ↦ ?_, fun hbroken ↦ ?_⟩
      · obtain rfl : e.start now = d := Option.some.inj (hc'.symm.trans hd)
        exact (hb.plain e hc).start hP now
      · have hbefore := hb.counts (List.forall_mem_cons.1 hbroken).2
        have hzero : h.machine.inFlight = 0 := by rw [Machine.inFlight, hnone]; rfl
        have hfresh : m'.inFlight = 0 := by rw [Machine.inFlight, hr']; rfl
        rw [hreceived, hsettled, hfresh, hbefore, hzero]
        exact congrArg (h.machine.board.settled + · + 0) (Nat.zero_add h.refused).symm
    · obtain ⟨j, earlier, hj, -⟩ := ho.live _ hr
      obtain ⟨⟨r', hr', hsame⟩, hreceived, hsettled, hchain⟩ := Machine.counts_tears hr ht
      refine hb.of_run hj hr hr' (fun _ he ↦ by cases he) (fun c hc ↦ hb.plain c (hchain c hc))
        fun _ ↦ ?_
      simp only [hreceived, hsettled, hsame, Deed.refusals, Nat.add_zero]
    · obtain ⟨r', hr', ht⟩ := hm.torn reason .clearing hc
      obtain rfl : r = r' := Option.some.inj (hr.symm.trans hr')
      obtain ⟨hreceived, hsettled⟩ := Machine.counts_clear h.machine r
      have hcleared : Balanced P ⟨h.machine.clear r, h.journals⟩ := by
        refine ⟨fun d hd ↦ ?_, fun hbroken ↦ ?_⟩
        · obtain ⟨e, he, rfl⟩ := Option.map_eq_some_iff.1 hd
          exact (hb.plain e he).stop hP
        · have hbefore := hb.counts hbroken
          have hflight : h.machine.inFlight = r.raw.items.length + r.outbound.items.length := by
            rw [Machine.inFlight, hr]
            exact ht.inFlight
          have hover : (h.machine.clear r).inFlight = 0 := rfl
          have hrefused : refused ⟨h.machine.clear r, h.journals⟩ = h.refused := rfl
          rw [hreceived, hsettled, hover, hrefused, hbefore, hflight]
          omega
      rw [Journal.noteAll_none]
      exact hcleared.of_rests hm'

/-- In a pipeline whose stages make no pieces and hold no messages, however it is started and
stopped, and in whatever order everybody does what: as long as no worker breaks down, the messages
that were received are those that were sent, dropped, ended in an error of a stage, were refused by
the outbound connector, or are in flight. When no run is live none is in flight. -/
theorem counts_account (hP : Stage.Plain P) (sizing : Config.Sizing)
    (inboundType outboundType : String) {c : Chain σ} (hc : c.Plain P) (acts : List Act) :
    let h := (Machine.ready sizing inboundType outboundType c).history.after acts
    (∀ j ∈ h.journals, j.broken = []) →
      h.machine.board.received =
          h.machine.board.sent + h.machine.board.dropped + h.machine.board.stageErrors +
            h.refused + h.machine.inFlight ∧
        (h.machine.run = none →
          h.machine.board.received =
            h.machine.board.sent + h.machine.board.dropped + h.machine.board.stageErrors +
              h.refused) := by
  intro h hbroken
  have hready : (Machine.ready sizing inboundType outboundType c).history.Balanced P := by
    refine ⟨fun d hd ↦ ?_, fun _ ↦ rfl⟩
    obtain rfl : c = d := Option.some.inj hd
    exact hc
  obtain ⟨-, -, hb⟩ := ready_induction (P := Balanced P) sizing inboundType outboundType c acts
    hready (fun h requests replies hb ↦ ⟨hb.plain, hb.counts⟩)
    fun h deed m hm ho hb hd ↦ hb.of_does hP hm ho hd
  have hcounts := hb.counts hbroken
  refine ⟨hcounts, fun hnone ↦ ?_⟩
  have hzero : h.machine.inFlight = 0 := by rw [Machine.inFlight, hnone]; rfl
  rwa [hzero] at hcounts

end History

/-- A chain with one stage, which lets everything through. -/
def Chain.through : Chain Builtin where
  id := "through"
  slots := [⟨{}, .pass {}⟩]
  plan := { routes := [{}] }

/-- A run that fails when the outbound connector refuses a message. Another message is received
meanwhile and goes through the chain when the sender is gone. -/
def Act.failedRun : List Act :=
  let move (m : Move) : Act := .move 9 ⟨0, 0⟩ m
  [.post .start, move .accept, move (.launch (.ok ()) (.ok ())), move (.work .receive),
    move (.receive (.ok (.ofRaw "t" [1]))), move (.work .receive), move (.work .receive)] ++
  List.replicate 10 (move (.work .process)) ++
  [move (.work .send), move (.send (.error (.transport "gone"))), move (.work .send),
    move (.work .send), move (.work .send), move (.work .receive),
    move (.receive (.ok (.ofRaw "t" [2]))), move .notice] ++
  List.replicate 5 (move .tear) ++ List.replicate 3 (move (.work .receive)) ++
  List.replicate 2 (move .tear) ++ List.replicate 12 (move (.work .process)) ++
  List.replicate 3 (move .tear)

/-- Of the two messages one was refused, and one was left in the outbound queue. -/
theorem History.counts_account_failedRun :
    let h := (Machine.ready {} "null" "null" .through).history.after Act.failedRun
    h.machine.run = none ∧ h.machine.board.received = 2 ∧ h.machine.board.dropped = 1 ∧
      h.refused = 1 ∧
      h.machine.board.received =
        h.machine.board.sent + h.machine.board.dropped + h.machine.board.stageErrors +
          h.refused := by
  have hplain : Chain.through.Plain Builtin.IsPlain :=
    ⟨by simp [Chain.through, Builtin.IsPlain], rfl⟩
  refine ⟨by decide +kernel, by decide +kernel, by decide +kernel, by decide +kernel, ?_⟩
  exact (counts_account Builtin.plain {} "null" "null" hplain Act.failedRun (by decide +kernel)).2
    (by decide +kernel)

end Conduit
