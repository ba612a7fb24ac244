import Conduit.Dictionary
import Conduit.Error
import Conduit.Json.Reader
import Conduit.Json.Path

/-!
# Messages

A message is a topic and a payload in one of three native representations. A view in another
representation is computed from the payload and never replaces it.
-/

namespace Conduit

inductive Representation
  | raw | document | binaryMap
deriving DecidableEq, Repr

def Representation.name : Representation → String
  | .raw => "raw"
  | .document => "document"
  | .binaryMap => "binary_map"

inductive Payload
  | raw (bytes : Bytes)
  | document (value : Value)
  | binaryMap (fields : Dictionary Bytes)
deriving DecidableEq

/-- The mark on every piece of one generation. -/
structure ChunkTag where
  messageId : String
  sequence : Nat
  last : Bool
deriving DecidableEq, Repr

structure Message where
  topic : String
  payload : Payload
  chunk : Option ChunkTag := none
deriving DecidableEq

/-- Why a payload has no view of the kind asked for. -/
inductive Unviewable
  | notDocument (problem : String)
  | notText (problem : Utf8.Malformed)
  | notBinaryMap (kind : Representation)
deriving DecidableEq

def Unviewable.message : Unviewable → String
  | .notDocument problem => "payload is not a JSON document: " ++ problem
  | .notText problem => "payload is not UTF-8: " ++ problem.message
  | .notBinaryMap kind => kind.name ++ " payload cannot be viewed as a binary map"

def Unviewable.toError (u : Unviewable) : PipelineError := .representation u.message

namespace Message

def ofRaw (topic : String) (bytes : Bytes) : Message := { topic, payload := .raw bytes }

def ofDocument (topic : String) (value : Value) : Message := { topic, payload := .document value }

def ofBinaryMap (topic : String) (fields : Dictionary Bytes) : Message :=
  { topic, payload := .binaryMap fields }

def withTopic (m : Message) (topic : String) : Message := { m with topic }

def withChunk (m : Message) (tag : ChunkTag) : Message := { m with chunk := some tag }

def withDocument (m : Message) (value : Value) : Message := { m with payload := .document value }

def withRaw (m : Message) (bytes : Bytes) : Message := { m with payload := .raw bytes }

def kind (m : Message) : Representation :=
  match m.payload with
  | .raw _ => .raw
  | .document _ => .document
  | .binaryMap _ => .binaryMap

/-- A field of a binary map as a value: text if the bytes are text, else the list of the bytes. -/
def fieldValue (bytes : Bytes) : Value :=
  match Utf8.decode bytes with
  | .ok text => .string text
  | .error _ => .array (bytes.map fun b => .number (.ofByte b))

def binaryMapDocument (fields : Dictionary Bytes) : Value :=
  .object (fields.entries.map fun f => (f.1, fieldValue f.2))

/-- The payload as a document; raw bytes are read as JSON. -/
def asDocument (m : Message) : Except Unviewable Value :=
  match m.payload with
  | .document value => .ok value
  | .raw bytes => (Json.parseText bytes).mapError .notDocument
  | .binaryMap fields => .ok (binaryMapDocument fields)

/-- The payload as bytes; a document is written as compact JSON. -/
def asBytes (m : Message) : Bytes :=
  match m.payload with
  | .raw bytes => bytes
  | .document value => value.toBytes
  | .binaryMap fields => (binaryMapDocument fields).toBytes

def asText (m : Message) : Except Unviewable String :=
  (Utf8.decode m.asBytes).mapError .notText

def payloadSize (m : Message) : Nat := m.asBytes.length

/-- Whether the message has a view of the kind. -/
def ensure (m : Message) : Representation → Except Unviewable Unit
  | .raw => .ok ()
  | .document => m.asDocument.map fun _ => ()
  | .binaryMap => if m.kind = .binaryMap then .ok () else .error (.notBinaryMap m.kind)

/-- The payload on one line, for people to read. -/
def render (m : Message) : String :=
  match m.payload with
  | .document value => value.toText
  | .raw bytes =>
    match Utf8.decode bytes with
    | .ok text => text
    | .error _ => s!"<{bytes.length} bytes>"
  | .binaryMap fields =>
    "\x7b" ++ ", ".intercalate (fields.entries.map fun f => f.1 ++ s!": <{f.2.length} bytes>") ++
      "\x7d"

end Message

/-- A message on its way through a chain. -/
structure Wrapper where
  /-- The message as it entered the chain. -/
  incoming : Message
  /-- The message as the stages visited so far have changed it. -/
  working : Message
  /-- The decision of the last stage. -/
  accepted : Bool := true
  /-- The fan-out queues that received a copy. -/
  redirects : NameSet := .empty
  metadata : Value := .object []
deriving DecidableEq

namespace Wrapper

def ofMessage (m : Message) : Wrapper := { incoming := m, working := m }

def mergeMetadata (w : Wrapper) (extra : Members) : Wrapper :=
  { w with metadata := w.metadata.merge extra }

end Wrapper

end Conduit
