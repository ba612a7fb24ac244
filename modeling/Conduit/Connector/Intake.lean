import Conduit.Connector.Session

/-!
# Threads that receive

A thread receives from an inbound connector, one call after the other, while others hold its stop
handle, publish, write files, and keep the other end of a channel. A thread that finds nothing goes
to sleep, and looks again when it is woken up. To look and to go to sleep is one step, so is to
stop; the stop wakes up the sleeper in a step of its own. A file is read between two looks at the
latch.
-/

namespace Conduit

abbrev Answer := Except ConnectorError Message

/-- Where the thread is. -/
inductive Posture
  /-- No call is under way. -/
  | away
  /-- It has called, and looks next. -/
  | called
  /-- It has seen that a file is not stopped, and reads next. -/
  | reading
  /-- The file has no more lines; it looks at the latch next. -/
  | finished
  /-- It sleeps, or was woken up and looks next. -/
  | asleep (woken : Bool)
deriving DecidableEq

structure Intake where
  connector : Connector
  around : Surroundings := {}
  /-- Whether the connector has an open session. -/
  isOpen : Bool := false
  posture : Posture := .away

namespace Intake

/-! ## The thread -/

/-- Looks for something to receive, and goes to sleep if there is nothing. -/
def look (s : Intake) (expired : Bool) (choice : Nat) : Option (Intake × Option Answer) :=
  match s.connector.receive s.around with
  | .ready answers => (answers[choice]?).map fun (answer, connector, around) =>
    ({ s with connector, around, posture := .away }, some answer)
  | .after _ m =>
    if expired then some ({ s with posture := .away }, some (.ok m))
    else some ({ s with posture := .asleep false }, none)
  | .blocked connector => some ({ s with connector, posture := .asleep false }, none)

/-- Looks at the latch of a file. -/
def heed (s : Intake) (stopped : Bool) (otherwise : Posture) : Intake × Option Answer :=
  if stopped then ({ s with posture := .away }, some (.error .stopped))
  else ({ s with posture := otherwise }, none)

/-- The next step of the thread: what it leaves, and the answer if the call is over. Whether the
time has expired matters to a thread that waits for some time, the choice to one that finds several
answers. A thread that sleeps takes no step. -/
def go (s : Intake) (expired : Bool) (choice : Nat) : Option (Intake × Option Answer) :=
  match s.posture, s.connector with
  | .away, _ | .asleep false, _ => none
  | .called, .source _ _ _ _ stopped => some (s.heed stopped .reading)
  | .reading, .source path topic json session stopped =>
    let (answer, session) := Connector.nextLine path topic json session s.around.files
    let posture := if answer.isSome then .away else .finished
    some ({ s with connector := .source path topic json session stopped, posture }, answer)
  | _, .source _ _ _ _ stopped => some (s.heed stopped (.asleep false))
  | _, _ => s.look expired choice

/-! ## Everybody -/

inductive Move
  | connect
  | disconnect
  | call
  /-- The thread takes a step. -/
  | go (expired : Bool) (choice : Nat)
  /-- The thread is woken up by time, by what arrives, or for no reason. -/
  | wake
  /-- A stop handle is used: the session is stopped. -/
  | stop
  /-- A stop handle wakes up the sleeper. -/
  | notify
  | redirect (name : String) (w : Wrapper)
  | subscribe (name : String) (capacity : Nat)
  /-- Somebody else's subscription ends. -/
  | unsubscribe (name : String) (id : Nat)
  /-- Somebody else's buffer is closed, or one of an earlier session. -/
  | close (name : String) (id : Nat)
  | take (name : String) (id : Nat)
  /-- The files change. -/
  | write (files : Files)
  | offer (m : Message)
  | abandon

/-- Whether a move opens or closes a session. -/
def Move.isTurn : Move → Bool
  | .connect | .disconnect => true
  | _ => false

def Move.isStop : Move → Bool
  | .stop => true
  | _ => false

def rouse (s : Intake) : Intake :=
  match s.posture with
  | .asleep _ => { s with posture := .asleep true }
  | _ => s

def setDirectory (s : Intake) (directory : Directory) : Intake :=
  { s with around := { s.around with directory } }

/-- Whether the buffer is that of the session. -/
def owns (s : Intake) (name : String) (id : Nat) : Bool :=
  s.connector.session? == some (name, id)

/-- What becomes of an intake by a move; nothing by one that cannot be made. The connector is the
thread's own, so nobody opens or closes a session during a call. -/
def next (s : Intake) : Move → Intake
  | .connect =>
    if s.posture = .away then
      let (answer, connector, around) := s.connector.connect s.around
      { s with connector, around, isOpen := s.isOpen || answer.isOk }
    else s
  | .disconnect =>
    if s.posture = .away then
      let (connector, around) := s.connector.disconnect s.around
      { s with connector, around, isOpen := false }
    else s
  | .call => if s.posture = .away then { s with posture := .called } else s
  | .go expired choice => ((s.go expired choice).map (·.1)).getD s
  | .wake | .notify => s.rouse
  | .stop =>
    let (connector, around) := s.connector.stop s.around
    { s with connector, around }
  | .redirect name w => s.setDirectory (s.around.directory.publish name w).2
  | .subscribe name capacity => s.setDirectory (s.around.directory.subscribe name capacity).2
  | .unsubscribe name id =>
    if s.owns name id then s else s.setDirectory (s.around.directory.unsubscribe name id)
  | .close name id =>
    match s.around.directory.buffer? name id with
    | some q => if s.owns name id then s else
      s.setDirectory (s.around.directory.setBuffer name id q.close)
    | none => s
  | .take name id =>
    match s.around.directory.pop name id with
    | (some _, directory) => if s.owns name id then s else s.setDirectory directory
    | (none, _) => s
  | .write files => { s with around := { s.around with files } }
  | .offer m => { s with connector := (s.connector.offer m).2 }
  | .abandon => { s with connector := s.connector.abandon }

def after (s : Intake) (moves : List Move) : Intake := moves.foldl next s

end Intake

end Conduit
