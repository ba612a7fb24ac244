import Conduit.Config.Entry
import Conduit.Error
import Conduit.Files

/-!
# Pipeline definitions

A pipeline is defined by two connectors and the stages between them. A document holds definitions
under their ids, in the order in which they are written.
-/

namespace Conduit.Config

open Json

structure Pipeline where
  inbound : ConnectorEntry
  outbound : ConnectorEntry
  stages : List StageEntry := []
deriving DecidableEq

namespace Pipeline

/-- The parts of a definition that have been read. -/
structure Parts where
  inbound : Option ConnectorEntry := none
  outbound : Option ConnectorEntry := none
  stages : Option (List StageEntry) := none

def Parts.whole (p : Parts) : Except Mismatch Pipeline :=
  match p.inbound, p.outbound with
  | none, _ => .error (.missingField "connector_in")
  | _, none => .error (.missingField "connector_out")
  | some inbound, some outbound => .ok { inbound, outbound, stages := p.stages.getD [] }

def expected : String := "struct PipelineConfig"

def readStages (depth : Nat) : Reader (List StageEntry) := readList depth StageEntry.read

def readMember (depth : Nat) (p : Parts) (key : String) (s : Bytes) :
    Except Fault (Parts × Bytes) := do
  match key with
  | "connector_in" =>
    let (inbound, rest) ← readField key p.inbound (ConnectorEntry.read depth) s
    return ({ p with inbound }, rest)
  | "connector_out" =>
    let (outbound, rest) ← readField key p.outbound (ConnectorEntry.read depth) s
    return ({ p with outbound }, rest)
  | "stages" =>
    let (stages, rest) ← readField key p.stages (readStages depth) s
    return ({ p with stages }, rest)
  | _ => return (p, ← skipMember s)

/-- Reads the parts by position. -/
def readItems (depth : Nat) : Reader Pipeline := fun s => do
  let short := fun n => .error (Mismatch.length n (expected ++ " with 3 elements"))
  let (inbound, s) ← readItemOr true (ConnectorEntry.read depth) (short 0) s
  let (outbound, s) ← readItemOr false (ConnectorEntry.read depth) (short 1) s
  let (stages, s) ← readItemOr false (readStages depth) (.ok []) s
  return ({ inbound, outbound, stages }, s)

def read (depth : Nat) : Reader Pipeline :=
  readRecord expected depth ({} : Parts) readMember Parts.whole readItems

def toValue (p : Pipeline) : Value :=
  .object [("connector_in", p.inbound.toValue), ("connector_out", p.outbound.toValue),
    ("stages", .array (p.stages.map StageEntry.toValue))]

end Pipeline

/-! ## Documents -/

structure Document where
  entries : List (String × Pipeline) := []
deriving DecidableEq

namespace Document

def ids (d : Document) : List String := d.entries.map Prod.fst

def size (d : Document) : Nat := d.entries.length

def get? (d : Document) (id : String) : Option Pipeline := d.entries.lookup id

def insertEntry (id : String) (p : Pipeline) : List (String × Pipeline) → List (String × Pipeline)
  | [] => [(id, p)]
  | (i, q) :: rest => if i = id then (id, p) :: rest else (i, q) :: insertEntry id p rest

/-- Puts a definition in the place of the one with its id, or at the end. -/
def insert (d : Document) (id : String) (p : Pipeline) : Document := ⟨insertEntry id p d.entries⟩

def removeEntry (id : String) : List (String × Pipeline) → List (String × Pipeline)
  | [] => []
  | (i, q) :: rest => if i = id then rest else (i, q) :: removeEntry id rest

def remove (d : Document) (id : String) : Document := ⟨removeEntry id d.entries⟩

def toValue (d : Document) : Value := .object (d.entries.map fun e => (e.1, e.2.toValue))

def readMember (depth : Nat) (entries : List (String × Pipeline)) (id : String) (s : Bytes) :
    Except Fault (List (String × Pipeline) × Bytes) := do
  let rest ← readColon s
  let (p, rest) ← Pipeline.read depth rest
  if (entries.lookup id).isSome then
    throw ((Mismatch.duplicateId "pipeline" id).before (behindObject rest))
  return (entries ++ [(id, p)], rest)

def read (depth : Nat) : Reader Document :=
  readObject "an object mapping pipeline ids to pipeline definitions" depth [] readMember
    fun entries => .ok ⟨entries⟩

/-- The document that a text spells. -/
def parse (text : String) : Except BridgeError Document :=
  (readText read (Utf8.encode text)).mapError fun e => .config ("Failed to parse pipelines: " ++ e)

def load (files : Files) (path : String) : Except BridgeError Document := do
  let text ← (files.readText path).mapError fun e =>
    .config ("Failed to read " ++ path ++ ": " ++ e.message)
  (parse text).mapError (.withContext ("loading " ++ path))

/-- The document in a file, or an empty one. -/
def loadOrEmpty (files : Files) (path : String) : Document :=
  (load files path).toOption.getD {}

/-- Writes the document to a file, as indented text. -/
def save (d : Document) (files : Files) (path : String) : Except BridgeError Files := do
  let io := fun (e : FileError) => BridgeError.io e.message
  let files ← match Files.parent path with
    | none => pure files
    | some up =>
      if up = "" ∨ files.exists up then pure files else (files.makeFolders up).mapError io
  (files.write path (Utf8.encode d.toValue.toIndented)).mapError io

end Document

end Conduit.Config
