import Conduit.Connector.Basic
import Conduit.Json.Reader

/-!
# Sessions of connectors

Connecting opens a session, disconnecting closes it. Stopping a session wakes up whoever is waiting
in it. A receive may find several answers ready, any of which it may give; or none, and then it
waits until there is one.
-/

namespace Conduit.Connector

open Json

/-- What a receive can do now. -/
inductive Reception
  /-- It gives one of the answers; each comes with what it leaves. -/
  | ready (answers : List (Except ConnectorError Message × Connector × Surroundings))
  /-- It waits for that long, unless it is stopped, and then gives the message. -/
  | after (delay : Nat) (m : Message)
  /-- It waits, and leaves the connector like this. -/
  | blocked (c : Connector)

/-- The error of a queue that has no number left for another subscriber. -/
def exhaustion (name : String) : ConnectorError :=
  .transport
    (PipelineError.resourceExhausted ("subscriber ids exhausted on queue '" ++ name ++ "'")).message

def connect (c : Connector) (s : Surroundings) :
    Except ConnectorError Unit × Connector × Surroundings :=
  match c with
  | .queue .inbound name capacity none =>
    if (s.directory.queue name).exhausted then (.error (exhaustion name), c, s)
    else
      let (id, directory) := s.directory.subscribe name capacity
      (.ok (), .queue .inbound name capacity (some id), { s with directory })
  | .queue .. | .log _ => (.ok (), c, s)
  | .null _ => (.ok (), .null false, s)
  | .source path topic json _ _ =>
    match s.files.find path with
    | .ok _ => (.ok (), .source path topic json (some {}) false, s)
    | .error e => (.error (.transport (path ++ ": " ++ e.message)), c, s)
  | .sink path _ =>
    let folders : Except FileError Files := match Files.parent path with
      | some up => if up = "" then .ok s.files else s.files.makeFolders up
      | none => .ok s.files
    match folders with
    | .error e => (.error (.transport e.message), c, s)
    | .ok files =>
      match files.append path [] with
      | .ok files => (.ok (), .sink path true, { s with files })
      | .error e => (.error (.transport (path ++ ": " ++ e.message)), c, { s with files })
  | .interval template period _ => (.ok (), .interval template period false, s)
  | .feed pipe _ => (.ok (), .feed pipe (some false), s)
  | .tap pipe _ => (.ok (), .tap pipe true, s)

def disconnect (c : Connector) (s : Surroundings) : Connector × Surroundings :=
  match c with
  | .queue direction name capacity (some id) =>
    (.queue direction name capacity none,
      { s with directory := s.directory.unsubscribe name id })
  | .source path topic json _ stopped => (.source path topic json none stopped, s)
  | .sink path _ => (.sink path false, s)
  | .feed pipe _ => (.feed pipe none, s)
  | .tap pipe _ => (.tap pipe false, s)
  | c => (c, s)

/-- Stops the session that is open. -/
def stop (c : Connector) (s : Surroundings) : Connector × Surroundings :=
  match c with
  | .queue _ name _ (some id) =>
    match s.directory.buffer? name id with
    | some q => (c, { s with directory := s.directory.setBuffer name id q.close })
    | none => (c, s)
  | .null _ => (.null true, s)
  | .source path topic json session _ => (.source path topic json session true, s)
  | .interval template period _ => (.interval template period true, s)
  | .feed pipe (some _) => (.feed pipe (some true), s)
  | c => (c, s)

/-- The buffer that a session reads from: the queue, and the number on it. -/
def session? : Connector → Option (String × Nat)
  | .queue _ name _ (some id) => some (name, id)
  | _ => none

/-! ## Receiving -/

def refuse (c : Connector) (s : Surroundings) (e : ConnectorError) : Reception :=
  .ready [(.error e, c, s)]

def lineMessage (topic : String) (json : Bool) (line : String) : Except ConnectorError Message :=
  if json then ((parseText (Utf8.encode line)).map (.ofDocument topic)).mapError .transport
  else .ok (.ofRaw topic (Utf8.encode line))

/-- What the next line of a file gives, and the reader afterwards. A reader that has come to the end
of the file gives nothing and is given up. -/
def nextLine (path topic : String) (json : Bool) (session : Option LineReader) (files : Files) :
    Option (Except ConnectorError Message) × Option LineReader :=
  match session with
  | none => (none, none)
  | some reader =>
    match files.read path with
    | .error e => (some (.error (.transport e.message)), session)
    | .ok content =>
      match reader.nextFilled content (content.length + 1) with
      | (none, _) => (none, none)
      | (some (.error e), reader) => (some (.error (.transport e.message)), some reader)
      | (some (.ok line), reader) => (some (lineMessage topic json line), some reader)

def receive (c : Connector) (s : Surroundings) : Reception :=
  match c with
  | .queue _ name _ session =>
    match session with
    | none => refuse c s (.transport "queue connector not connected")
    | some id =>
      let q := (s.directory.buffer? name id).getD {}
      if q.blocks then .blocked c
      else
        match s.directory.pop name id with
        | (some w, directory) => .ready [(.ok w.working, c, { s with directory })]
        | (none, _) => refuse c s .stopped
  | .null stopped => if stopped then refuse c s .stopped else .blocked c
  | .log _ => refuse c s (.transport "log connector is outbound only")
  | .source path topic json session stopped =>
    if stopped then refuse c s .stopped
    else
      let (answer, session) := nextLine path topic json session s.files
      match answer with
      | none => .blocked (.source path topic json session stopped)
      | some answer => .ready [(answer, .source path topic json session stopped, s)]
  | .sink .. => refuse c s (.transport "file outbound connector cannot receive")
  | .interval template period stopped =>
    if stopped then refuse c s .stopped else .after period template
  | .feed pipe session =>
    match session with
    | none => refuse c s (.transport "channel not connected")
    | some stopped =>
      let stop := if stopped then [(.error .stopped, c, s)] else []
      match pipe.items with
      | m :: items => .ready ((.ok m, .feed { pipe with items } session, s) :: stop)
      | [] =>
        if !pipe.host then
          .ready ((.error (.transport "input channel closed"), c, s) :: stop)
        else if stopped then .ready stop
        else .blocked c
  | .tap .. => refuse c s (.transport "outbound channel cannot receive")

/-! ## Sending -/

/-- Sends a wrapper; nothing if the sender has to wait. -/
def send? (c : Connector) (s : Surroundings) (w : Wrapper) :
    Option (Except ConnectorError Unit × Connector × Surroundings) :=
  match c with
  | .queue _ name _ _ =>
    some (.ok (), c, { s with directory := (s.directory.publish name w).2 })
  | .null _ | .log _ => some (.ok (), c, s)
  | .source .. => some (.error (.transport "file inbound connector cannot send"), c, s)
  | .sink path isOpen =>
    if !isOpen then some (.error (.transport "file not open"), c, s)
    else
      match s.files.append path (w.working.asBytes ++ [0x0a]) with
      | .ok files => some (.ok (), c, { s with files })
      | .error e => some (.error (.transport e.message), c, s)
  | .interval .. => some (.error (.transport "interval connector is inbound only"), c, s)
  | .feed .. => some (.error (.transport "inbound channel cannot send"), c, s)
  | .tap pipe connected =>
    if !pipe.host then some (.error (.transport "output channel closed"), c, s)
    else if pipe.isFull then none
    else some (.ok (), .tap (pipe.add w) connected, s)

/-! ## The host's end -/

/-- Gives an inbound connector a message, if there is room. -/
def offer (c : Connector) (m : Message) : Bool × Connector :=
  match c with
  | .feed pipe session =>
    if pipe.isFull then (false, c) else (true, .feed (pipe.add m) session)
  | c => (false, c)

/-- Whether the host has an end of the connector. -/
def hasHost : Connector → Bool
  | .feed pipe _ => pipe.host
  | .tap pipe _ => pipe.host
  | _ => false

/-- Takes the first thing that an outbound connector has sent. -/
def takeFirst? : Connector → Option (Wrapper × Connector)
  | .tap pipe connected =>
    match pipe.items with
    | w :: items => some (w, .tap { pipe with items } connected)
    | [] => none
  | _ => none

/-- Takes what an outbound connector has sent. -/
def collect (c : Connector) : List Wrapper × Connector :=
  match c with
  | .tap pipe connected => (pipe.items, .tap { pipe with items := [] } connected)
  | c => ([], c)

/-- Takes the host's end away. -/
def abandon : Connector → Connector
  | .feed pipe session => .feed { pipe with host := false } session
  | .tap pipe connected => .tap { pipe with host := false, items := [] } connected
  | c => c

end Conduit.Connector
