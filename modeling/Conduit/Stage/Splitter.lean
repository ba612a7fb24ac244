import Conduit.Stage.Deciders

/-!
# The splitter

Cuts a payload into chunks of bytes, or an array in the document into groups of items. All pieces
of one message carry a tag with a common name, their number, and whether they are the last.
-/

namespace Conduit.Stage

open Json

/-- The list in runs of `size`, of which only the last may be shorter. -/
def chunks (size : Nat) (l : List α) : List (List α) :=
  if _h : size = 0 ∨ l = [] then [] else l.take size :: chunks size (l.drop size)
termination_by l.length
decreasing_by
  have : l ≠ [] := fun h => _h (.inr h)
  have := List.length_pos_iff.2 this
  simp only [List.length_drop]
  omega

inductive SplitMode
  | bytes
  | array
deriving DecidableEq, Repr

structure Splitter where
  size : Nat
  mode : SplitMode := .bytes
  key : String := ""
deriving DecidableEq

namespace Splitter

def modes : List (String × SplitMode) := [("bytes", .bytes), ("array", .array)]

def fields : List Field :=
  [.require "chunk_size" .integer, .mayHave "mode" .string (some "bytes") (modes.map Prod.fst),
    .mayHave "key" .string]

def modeShape : Shape SplitMode := .choice .unit modes

def shapes : List (String × Shape Unit) :=
  [("chunk_size", Shape.size.check), ("mode", modeShape.check), ("key", Shape.string.check)]

def ofParams (ms : Members) : Except PipelineError Splitter := do
  let s ← readParams shapes ms fun ms => do
    let size ← required ms "chunk_size" .size
    let mode ← withDefault ms "mode" modeShape .bytes
    return { size, mode, key := ← withDefault ms "key" .string "" : Splitter }
  if s.size = 0 then throw (.config "chunk_size must be positive")
  return s

/-- The tag of piece `i` out of `total`; the number stops at the largest 32-bit word. -/
def tag (name : String) (i total : Nat) : ChunkTag :=
  { messageId := name, sequence := min i (0x100000000 - 1), last := i + 1 == total }

/-- Gives every piece its tag. -/
def tagged (name : String) (pieces : List Message) : List Message :=
  pieces.zipIdx.map fun p => p.1.withChunk (tag name p.2 pieces.length)

def splitBytes (s : Splitter) (m : Message) : List Message :=
  (chunks s.size m.asBytes).map (.ofRaw m.topic)

def splitArray (s : Splitter) (m : Message) : Except PipelineError (List Message) := do
  let doc ← m.document?
  match doc.lookup s.key with
  | some (.array items) =>
    return (chunks s.size items).map fun part => .ofDocument m.topic (.array part)
  | some _ => throw (.representation ("'" ++ s.key ++ "' is not an array"))
  | none => throw (.representation ("'" ++ s.key ++ "' not found"))

/-- The pieces of a message, tagged with the given name. -/
def split (s : Splitter) (name : String) (m : Message) : Except PipelineError (List Message) :=
  match s.mode with
  | .bytes => .ok (tagged name (s.splitBytes m))
  | .array => (s.splitArray m).map (tagged name)

/-- The name of the family of pieces after `fresh` other families. -/
def familyName (fresh : Nat) : String := String.ofList (Nat.toDigits 16 fresh)

def process (moment : Moment) (s : Splitter) (w : Wrapper) : Response Splitter :=
  match s.split (familyName moment.fresh) w.working with
  | .ok pieces => { state := s, outcome := .generate w pieces, named := 1 }
  | .error e => { state := s, outcome := .failed e }

end Splitter

end Conduit.Stage
