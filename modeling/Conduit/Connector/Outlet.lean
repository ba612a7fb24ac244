import Conduit.Connector.Session

/-!
# Outlets

An outbound connector with what it shares with others. It is connected and disconnected and sent
messages in any order; an outlet keeps which of them the connector has taken.
-/

namespace Conduit

structure Outlet where
  connector : Connector
  around : Surroundings := {}
  /-- What the connector was sent without an error, in order. -/
  taken : List Wrapper := []

namespace Outlet

inductive Act
  | connect
  | disconnect
  | send (w : Wrapper)
deriving DecidableEq

/-- What becomes of an outlet; it waits for nothing. -/
def act (o : Outlet) : Act → Outlet
  | .connect =>
    let (_, connector, around) := o.connector.connect o.around
    { o with connector, around }
  | .disconnect =>
    let (connector, around) := o.connector.disconnect o.around
    { o with connector, around }
  | .send w =>
    match o.connector.send? o.around w with
    | some (.ok (), connector, around) => { connector, around, taken := o.taken ++ [w] }
    | some (.error _, connector, around) => { o with connector, around }
    | none => o

def after (o : Outlet) (acts : List Act) : Outlet := acts.foldl act o

/-- What is sent in sessions; a message that is sent between them is not. -/
def sent (inSession : Bool) : List Act → List Wrapper
  | [] => []
  | .connect :: acts => sent true acts
  | .disconnect :: acts => sent false acts
  | .send w :: acts => if inSession then w :: sent inSession acts else sent inSession acts

end Outlet

end Conduit
