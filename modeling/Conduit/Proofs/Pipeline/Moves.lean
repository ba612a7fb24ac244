import Conduit.Pipeline.Step

/-!
# What a move does

Whoever makes a move changes its own share of the machine only. For each worker, for the alarms and
for the controller a relation lists what they can do to their share, and a step of the machine is
one of these, as `Conduit.Proofs.Pipeline.Inversion` shows. A step is known by its deed, if it does
something to messages or runs that is worth noting.
-/

namespace Conduit

open Stage

variable {σ : Type}

/-! ## Deeds -/

/-- What the processor shows to the chain, with what patience and when. -/
inductive Input
  | message (patience : Nat) (moment : Moment) (m : Message)
  | alarm (patience : Nat) (moment : Moment) (a : Alarm)

namespace Input

def moment : Input → Moment
  | .message _ moment _ | .alarm _ moment _ => moment

def message? : Input → Option Message
  | .message _ _ m => some m
  | .alarm .. => none

def alarm? : Input → Option Alarm
  | .message .. => none
  | .alarm _ _ a => some a

end Input

def Chain.respond [Behaviour σ] (c : Chain σ) : Input → Call σ
  | .message patience moment m => c.process patience moment m
  | .alarm patience moment a => c.expire patience moment a.stage a.token

inductive Deed (σ : Type)
  /-- The inbound connector returned a message. -/
  | received (m : Message)
  /-- The chain answered. -/
  | ran (x : Input)
  /-- A wrapper was handed to the outbound connector. -/
  | handed (w : Wrapper)
  /-- The outbound connector returned an error. -/
  | refused
  | broke (w : Worker)
  /-- A run began, with the chain in the state in which it is here. -/
  | began (c : Chain σ)

/-- What the processor is about to show to the chain. -/
def Processor.input? (patience : Nat) (moment : Moment) : Processor → Option Input
  | .running m => some (.message patience moment m)
  | .handling (a :: _) => some (.alarm patience moment a)
  | _ => none

/-- What the sender does when it takes a wrapper. -/
def Run.handing? (r : Run) : Option (Deed σ) :=
  match r.sender with
  | .waiting => r.outbound.items.head?.map .handed
  | _ => none

/-- What the processor does when the chain has been shown an input. -/
def Machine.answer? [Behaviour σ] (patience : Nat) (moment : Moment) (m : Machine σ) (r : Run) :
    Option (Deed σ) :=
  m.chain.bind fun c =>
    (r.processor.input? patience moment).map fun x =>
      if (c.respond x).progress = .crashed then .broke .process else .ran x

/-- The deed of a move that can be made. -/
def Machine.deed [Behaviour σ] (patience : Nat) (moment : Moment) (m : Machine σ) :
    Move → Option (Deed σ)
  | .receive (.ok message) => some (.received message)
  | .send (.error _) => some .refused
  | .breakdown w => some (.broke w)
  | .work .process => m.run.bind (m.answer? patience moment)
  | .work .send => m.run.bind Run.handing?
  | .launch (.ok ()) (.ok ()) =>
    if m.isWhole then m.chain.map fun c => .began (c.start moment.now) else none
  | _ => none

/-! ## Workers -/

/-- A worker on its way out shows its failure and reports it. -/
inductive Exit.Does (board : Board) (failure : Bool) : Exit → Board → Bool → Exit → Prop
  | fail (text : String) (broken : Bool) :
    Does board failure (.failing text broken) (board.fail text) failure (.reporting broken)
  | report (broken : Bool) :
    Does board failure (.reporting broken) board true (.gone broken)

namespace Receiver

/-- What the receiver sees and changes. -/
structure Share where
  board : Board
  failure : Bool
  raw : Queue Message
  signal : Latch
  receiver : Receiver

inductive Does (type : String) (s : Share) : Option (Deed σ) → Share → Prop
  | goOn (h : s.receiver = .testing) (ha : s.board.active = true) :
    Does type s none { s with receiver := .receiving }
  | quit (h : s.receiver = .testing) (ha : s.board.active = false) :
    Does type s none { s with receiver := .leaving .quiet }
  | receive (m : Message) (h : s.receiver = .receiving) :
    Does type s (some (.received m)) { s with
      board := { s.board with received := s.board.received + 1 }
      receiver := .queueing m }
  | retry (h : s.receiver = .receiving) : Does type s none { s with receiver := .testing }
  | refuse (e : ConnectorError) (h : s.receiver = .receiving) :
    Does type s none { s with receiver := .refused e }
  | breakDown (h : s.receiver = .receiving) :
    Does type s (some (.broke .receive)) { s with receiver := .leaving (.broken .receive) }
  | queue (m : Message) (h : s.receiver = .queueing m) (hf : s.raw.isFull = false) :
    Does type s none { s with
      raw := { s.raw with items := s.raw.items ++ [m], pushed := s.raw.pushed + 1 }
      receiver := .waking }
  | overflow (m : Message) (h : s.receiver = .queueing m) (hf : s.raw.isFull = true) :
    Does type s none { s with
      board := s.board.drop 1
      raw := { s.raw with rejected := s.raw.rejected + 1 }
      receiver := .waking }
  | wake (h : s.receiver = .waking) :
    Does type s none { s with signal := s.signal.notify, receiver := .testing }
  | giveUp (e : ConnectorError) (h : s.receiver = .refused e) (ha : s.board.active = false) :
    Does type s none { s with receiver := .leaving .quiet }
  | fail (e : ConnectorError) (h : s.receiver = .refused e) (ha : s.board.active = true) :
    Does type s none { s with
      receiver := .leaving (.failing ("inbound " ++ type ++ " connector: " ++ e.message) false) }
  | leave {exit exit' : Exit} {board : Board} {failure : Bool} (h : s.receiver = .leaving exit)
      (he : exit.Does s.board s.failure board failure exit') :
    Does type s none { s with board, failure, receiver := .leaving exit' }

section

variable {type : String} {s s' : Share} {deed : Option (Deed σ)} (h : Does type s deed s')

include h

theorem Does.ne_began (c : Chain σ) : deed ≠ some (.began c) := by
  cases h <;> exact fun he ↦ by cases he

theorem Does.ne_ran (x : Input) : deed ≠ some (.ran x) := by
  cases h <;> exact fun he ↦ by cases he

end

end Receiver

namespace Sender

/-- What the sender sees and changes. -/
structure Share where
  board : Board
  failure : Bool
  outbound : Queue Wrapper
  sender : Sender

inductive Does (type : String) (s : Share) : Option (Deed σ) → Share → Prop
  | take (w : Wrapper) (rest : List Wrapper) (h : s.sender = .waiting)
      (hi : s.outbound.items = w :: rest) :
    Does type s (some (.handed w)) { s with
      outbound := { s.outbound with items := rest, popped := s.outbound.popped + 1 }
      sender := .sending w }
  | quit (h : s.sender = .waiting) (hi : s.outbound.items = []) (hc : s.outbound.closed = true) :
    Does type s none { s with sender := .leaving .quiet }
  | send (w : Wrapper) (h : s.sender = .sending w) :
    Does type s none { s with
      board := { s.board with sent := s.board.sent + 1 }, sender := .waiting }
  | refuse (w : Wrapper) (e : ConnectorError) (h : s.sender = .sending w) :
    Does type s (some .refused) { s with sender := .refused e }
  | breakDown (w : Wrapper) (h : s.sender = .sending w) :
    Does type s (some (.broke .send)) { s with sender := .leaving (.broken .send) }
  | giveUp (e : ConnectorError) (h : s.sender = .refused e) (ha : s.board.active = false) :
    Does type s none { s with sender := .leaving .quiet }
  | fail (e : ConnectorError) (h : s.sender = .refused e) (ha : s.board.active = true) :
    Does type s none { s with
      sender := .leaving (.failing ("outbound " ++ type ++ " connector: " ++ e.message) false) }
  | leave {exit exit' : Exit} {board : Board} {failure : Bool} (h : s.sender = .leaving exit)
      (he : exit.Does s.board s.failure board failure exit') :
    Does type s none { s with board, failure, sender := .leaving exit' }

section

variable {type : String} {s s' : Share} {deed : Option (Deed σ)} (h : Does type s deed s')

include h

theorem Does.ne_began (c : Chain σ) : deed ≠ some (.began c) := by
  cases h <;> exact fun he ↦ by cases he

theorem Does.ne_ran (x : Input) : deed ≠ some (.ran x) := by
  cases h <;> exact fun he ↦ by cases he

end

end Sender

namespace Processor

/-- What the processor sees and changes. -/
structure Share (σ : Type) where
  board : Board
  failure : Bool
  chain : Option (Chain σ)
  raw : Queue Message
  alarms : Queue Alarm
  outbound : Queue Wrapper
  signal : Latch
  timers : List Alarm
  processor : Processor

namespace Share

variable [Behaviour σ]

/-- The share with the chain that an answer leaves and the alarms that it sets. -/
def answered (s : Share σ) (moment : Moment) (call : Call σ) : Share σ :=
  { s with
    chain := some call.chain
    timers := Alarm.insertAll s.timers (Alarm.ofVisits moment.clock call.visits) }

end Share

inductive Does [Behaviour σ] (s : Share σ) : Option (Deed σ) → Share σ → Prop
  | wake (h : s.processor = .waiting) (hs : s.signal.isSet = true) :
    Does s none { s with signal := ⟨false⟩, processor := .woken }
  | goOn (h : s.processor = .woken) (ha : s.board.active = true) :
    Does s none { s with processor := .gathering }
  | quit (h : s.processor = .woken) (ha : s.board.active = false) :
    Does s none { s with processor := .leaving .quiet }
  | gather (h : s.processor = .gathering) :
    Does s none { s with
      alarms := { s.alarms with items := [], popped := s.alarms.popped + s.alarms.size }
      processor := .handling s.alarms.items }
  | attend (h : s.processor = .handling []) : Does s none { s with processor := .taking }
  | answerAlarm {c : Chain σ} {a : Alarm} {rest : List Alarm} (patience : Nat) (moment : Moment)
      (h : s.processor = .handling (a :: rest)) (hc : s.chain = some c)
      (hp : (c.respond (.alarm patience moment a)).progress = .returned) :
    Does s (some (.ran (.alarm patience moment a)))
      { s.answered moment (c.respond (.alarm patience moment a)) with
        processor := .counting (c.respond (.alarm patience moment a)).output (.alarms rest) }
  | answerMessage {c : Chain σ} {m : Message} (patience : Nat) (moment : Moment)
      (h : s.processor = .running m) (hc : s.chain = some c)
      (hp : (c.respond (.message patience moment m)).progress = .returned) :
    Does s (some (.ran (.message patience moment m)))
      { s.answered moment (c.respond (.message patience moment m)) with
        board := { s.board with processed := s.board.processed + 1 }
        processor := .counting (c.respond (.message patience moment m)).output .messages }
  | breakDown {c : Chain σ} {x : Input} (patience : Nat) (moment : Moment)
      (h : s.processor.input? patience moment = some x) (hc : s.chain = some c)
      (hp : (c.respond x).progress = .crashed) :
    Does s (some (.broke .process))
      { s.answered moment (c.respond x) with processor := .leaving (.broken .process) }
  | take {m : Message} {rest : List Message} (h : s.processor = .taking)
      (hi : s.raw.items = m :: rest) :
    Does s none { s with
      raw := { s.raw with items := rest, popped := s.raw.popped + 1 }, processor := .running m }
  | rest (h : s.processor = .taking) (hi : s.raw.items = []) :
    Does s none { s with processor := .waiting }
  | count {o : Output} {next : Errand} (h : s.processor = .counting o next) :
    Does s none { s with board := s.board.count o, processor := .queueing o.delivered next }
  | resume {next : Errand} (h : s.processor = .queueing [] next) :
    Does s none { s with processor := next.resume }
  | queue {w : Wrapper} {ws : List Wrapper} {next : Errand}
      (h : s.processor = .queueing (w :: ws) next) (hf : s.outbound.isFull = false) :
    Does s none { s with
      outbound := { s.outbound with
        items := s.outbound.items ++ [w], pushed := s.outbound.pushed + 1 }
      processor := .queueing ws next }
  | overflow {w : Wrapper} {ws : List Wrapper} {next : Errand}
      (h : s.processor = .queueing (w :: ws) next) (hf : s.outbound.isFull = true) :
    Does s none { s with
      board := s.board.drop 1
      outbound := { s.outbound with rejected := s.outbound.rejected + 1 }
      processor := .queueing ws next }
  | look (h : s.processor = .testing) :
    Does s none { s with processor := if s.board.active then .taking else .waiting }
  | leave {exit exit' : Exit} {board : Board} {failure : Bool} (h : s.processor = .leaving exit)
      (he : exit.Does s.board s.failure board failure exit') :
    Does s none { s with board, failure, processor := .leaving exit' }

theorem Does.ne_began [Behaviour σ] {s s' : Share σ} {deed : Option (Deed σ)} (h : Does s deed s')
    (c : Chain σ) : deed ≠ some (.began c) := by
  cases h <;> exact fun he ↦ by cases he

end Processor

namespace Run

def withReceiver (r : Run) (s : Receiver.Share) : Run :=
  { r with raw := s.raw, signal := s.signal, receiver := s.receiver }

def withSender (r : Run) (s : Sender.Share) : Run :=
  { r with outbound := s.outbound, sender := s.sender }

def withProcessor (r : Run) (s : Processor.Share σ) : Run :=
  { r with
    raw := s.raw
    alarms := s.alarms
    outbound := s.outbound
    signal := s.signal
    timers := s.timers
    processor := s.processor }

end Run

/-! ## Alarms -/

/-- What alarms do to a run. -/
inductive Run.Rings (r : Run) : Run → Prop
  | ring {i : Nat} {a : Alarm} (h : r.timers[i]? = some a) (hf : r.alarms.isFull = false) :
    Rings r { r with
      alarms := { r.alarms with items := r.alarms.items ++ [a], pushed := r.alarms.pushed + 1 }
      timers := r.timers.eraseIdx i
      ringing := r.ringing + 1 }
  | lose {i : Nat} {a : Alarm} (h : r.timers[i]? = some a) (hf : r.alarms.isFull = true) :
    Rings r { r with
      alarms := { r.alarms with rejected := r.alarms.rejected + 1 }
      timers := r.timers.eraseIdx i }
  | signal (h : r.ringing ≠ 0) :
    Rings r { r with signal := r.signal.notify, ringing := r.ringing - 1 }

namespace Machine

/-! ## The controller -/

/-- What the controller does when it tears a run down, from one phase to the next. -/
inductive Tears (m : Machine σ) (r : Run) : Phase → Machine σ → Phase → Prop
  | deactivate :
    Tears m r .deactivating { m with board := { m.board with active := false } } .looking
  | look : Tears m r .looking m (.marking (m.board.state = .failed))
  | mark (failed : Bool) :
    Tears m r (.marking failed)
      (if failed then m else { m with board := { m.board with state := .stopping } }) .stopping
  | stop : Tears m r .stopping m .closing
  | close :
    Tears m r .closing (m.setRun { r with outbound := r.outbound.close }) (.joining .receive)
  | joinReceiver {broken : Bool} (h : gone? r .receive = some broken) :
    Tears m r (.joining .receive) (m.join .receive broken) .waking
  | wake : Tears m r .waking (m.setRun { r with signal := r.signal.notify }) (.joining .process)
  | joinProcessor {broken : Bool} (h : gone? r .process = some broken) :
    Tears m r (.joining .process) (m.join .process broken) (.joining .send)
  | joinSender {broken : Bool} (h : gone? r .send = some broken) :
    Tears m r (.joining .send) (m.join .send broken) .clearing

variable [Behaviour σ]

inductive Controls (m : Machine σ) : Option (Deed σ) → Machine σ → Prop
  | accept {request : Request} {rest : List Request} (h : m.control = .idle)
      (hq : m.requests = request :: rest) :
    Controls m none ({ m with requests := rest }.take request)
  | notice (h : m.control = .idle) (hf : m.failure = true) (hl : m.isLive = true)
      (hs : m.board.state = .failed) :
    Controls m none ({ m with failure := false }.tearDown .failure)
  | ignore (h : m.control = .idle) (hf : m.failure = true)
      (hl : ¬ (m.isLive = true ∧ m.board.state = .failed)) :
    Controls m none { m with failure := false }
  | giveUp (text : String) (h : m.control = .starting) :
    Controls m none
      ({ m with board := m.board.clearErrors.fail text }.reply (.error (.transport text)))
  | begin {c : Chain σ} (now : Instant) (h : m.control = .starting) (hw : m.isWhole = true)
      (hc : m.chain = some c) :
    Controls m (some (.began (c.start now)))
      ({ m with
        board := { m.board.clearErrors with state := .running, active := true }
        chain := some (c.start now)
        run := some {
          raw := { capacity := m.sizing.inbound }
          alarms := { capacity := m.sizing.events }
          outbound := { capacity := m.sizing.outbound } } }.reply (.ok .running))
  | tear {reason : Reason} {phase phase' : Phase} {r : Run} {m' : Machine σ}
      (h : m.control = .tearing reason phase) (hr : m.run = some r)
      (ht : m.Tears r phase m' phase') :
    Controls m none { m' with control := .tearing reason phase' }
  | clear {reason : Reason} {r : Run} (h : m.control = .tearing reason .clearing)
      (hr : m.run = some r) : Controls m none ((m.clear r).afterwards reason)

/-! ## Steps -/

section Shares

variable (m : Machine σ) (r : Run)

omit [Behaviour σ]

def receiverShare : Receiver.Share := ⟨m.board, m.failure, r.raw, r.signal, r.receiver⟩

def withReceiver (s : Receiver.Share) : Machine σ :=
  { m with board := s.board, failure := s.failure, run := some (r.withReceiver s) }

def senderShare : Sender.Share := ⟨m.board, m.failure, r.outbound, r.sender⟩

def withSender (s : Sender.Share) : Machine σ :=
  { m with board := s.board, failure := s.failure, run := some (r.withSender s) }

def processorShare : Processor.Share σ :=
  ⟨m.board, m.failure, m.chain, r.raw, r.alarms, r.outbound, r.signal, r.timers, r.processor⟩

def withProcessor (s : Processor.Share σ) : Machine σ :=
  { m with
    board := s.board
    failure := s.failure
    chain := s.chain
    run := some (r.withProcessor s) }

end Shares

/-- All that a machine can do. -/
inductive Does (m : Machine σ) : Option (Deed σ) → Machine σ → Prop
  | receiver {r : Run} {deed : Option (Deed σ)} {s : Receiver.Share} (hr : m.run = some r)
      (h : Receiver.Does m.inboundType (m.receiverShare r) deed s) :
    Does m deed (m.withReceiver r s)
  | sender {r : Run} {deed : Option (Deed σ)} {s : Sender.Share} (hr : m.run = some r)
      (h : Sender.Does m.outboundType (m.senderShare r) deed s) :
    Does m deed (m.withSender r s)
  | processor {r : Run} {deed : Option (Deed σ)} {s : Processor.Share σ} (hr : m.run = some r)
      (h : Processor.Does (m.processorShare r) deed s) :
    Does m deed (m.withProcessor r s)
  | alarms {r r' : Run} (hr : m.run = some r) (h : r.Rings r') : Does m none (m.setRun r')
  | controller {deed : Option (Deed σ)} {m' : Machine σ} (h : m.Controls deed m') :
    Does m deed m'

end Machine

/-! ## Who does what -/

/-- The worker that makes a move. -/
def Move.worker? : Move → Option Worker
  | .receive _ => some .receive
  | .send _ => some .send
  | .breakdown w | .work w => some w
  | _ => none

/-- The moves that the controller makes where it is. -/
def Control.Admits : Control → Move → Prop
  | .idle, .accept | .idle, .notice | .tearing .., .tear | .starting, .launch .. => True
  | _, _ => False

namespace Control.Admits

variable {move : Move}

theorem of_idle (h : Control.idle.Admits move) : move = .accept ∨ move = .notice := by
  cases move with
  | accept => exact .inl rfl
  | notice => exact .inr rfl
  | _ => exact h.elim

theorem of_starting (h : Control.starting.Admits move) :
    ∃ inbound outbound, move = .launch inbound outbound := by
  cases move with
  | launch inbound outbound => exact ⟨inbound, outbound, rfl⟩
  | _ => exact h.elim

theorem of_tearing {reason : Reason} {phase : Phase}
    (h : (Control.tearing reason phase).Admits move) : move = .tear := by
  cases move with
  | tear => rfl
  | _ => exact h.elim

/-- What the controller does is not done by a worker. -/
theorem worker?_eq_none {control : Control} (h : control.Admits move) : move.worker? = none := by
  cases control with
  | idle => rcases h.of_idle with rfl | rfl <;> rfl
  | starting =>
    obtain ⟨_, _, rfl⟩ := h.of_starting
    rfl
  | tearing =>
    rw [h.of_tearing]
    rfl
  | ended => exact h.elim

end Control.Admits

namespace Machine

variable [Behaviour σ]

/-- All that a machine can do, by the move that does it. -/
inductive DoesBy (m : Machine σ) : Move → Option (Deed σ) → Machine σ → Prop
  | receiver {move : Move} {r : Run} {deed : Option (Deed σ)} {s : Receiver.Share}
      (hw : move.worker? = some .receive) (hr : m.run = some r)
      (h : Receiver.Does m.inboundType (m.receiverShare r) deed s) :
    DoesBy m move deed (m.withReceiver r s)
  | sender {move : Move} {r : Run} {deed : Option (Deed σ)} {s : Sender.Share}
      (hw : move.worker? = some .send) (hr : m.run = some r)
      (h : Sender.Does m.outboundType (m.senderShare r) deed s) :
    DoesBy m move deed (m.withSender r s)
  | processor {move : Move} {r : Run} {deed : Option (Deed σ)} {s : Processor.Share σ}
      (hw : move.worker? = some .process) (hr : m.run = some r)
      (h : Processor.Does (m.processorShare r) deed s) :
    DoesBy m move deed (m.withProcessor r s)
  | ring {i : Nat} {a : Alarm} {r : Run} (hr : m.run = some r) (ha : r.timers[i]? = some a)
      (hf : r.alarms.isFull = false) :
    DoesBy m (.ring i) none (m.setRun { r with
      alarms := { r.alarms with items := r.alarms.items ++ [a], pushed := r.alarms.pushed + 1 }
      timers := r.timers.eraseIdx i
      ringing := r.ringing + 1 })
  | lose {i : Nat} {a : Alarm} {r : Run} (hr : m.run = some r) (ha : r.timers[i]? = some a)
      (hf : r.alarms.isFull = true) :
    DoesBy m (.ring i) none (m.setRun { r with
      alarms := { r.alarms with rejected := r.alarms.rejected + 1 }
      timers := r.timers.eraseIdx i })
  | signal {r : Run} (hr : m.run = some r) (h : r.ringing ≠ 0) :
    DoesBy m .signal none (m.setRun { r with
      signal := r.signal.notify, ringing := r.ringing - 1 })
  | controller {move : Move} {deed : Option (Deed σ)} {m' : Machine σ}
      (hc : m.control.Admits move) (h : m.Controls deed m') :
    DoesBy m move deed m'

/-- What a move does is something that the machine can do. -/
theorem DoesBy.does {m m' : Machine σ} {move : Move} {deed : Option (Deed σ)}
    (h : m.DoesBy move deed m') : m.Does deed m' := by
  cases h with
  | receiver _ hr h => exact .receiver hr h
  | sender _ hr h => exact .sender hr h
  | processor _ hr h => exact .processor hr h
  | ring hr ha hf => exact .alarms hr (.ring ha hf)
  | lose hr ha hf => exact .alarms hr (.lose ha hf)
  | signal hr h => exact .alarms hr (.signal h)
  | controller _ h => exact .controller h

end Machine

end Conduit
