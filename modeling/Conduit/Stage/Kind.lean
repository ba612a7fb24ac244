import Conduit.Stage.Builder
import Conduit.Stage.Image
import Conduit.Stage.Scripted
import Conduit.Stage.Splitter
import Conduit.Stage.Throttle

/-!
# Kinds of stages

The kinds of stages that a chain can be configured with, how each describes itself, and the one
type that holds a stage of any kind.
-/

namespace Conduit.Stage

inductive Kind
  | comparator | search | eraser | builder | limiter | throttle | splitter | pass | script | image
deriving DecidableEq, Repr

namespace Kind

def all : List Kind :=
  [.comparator, .search, .eraser, .builder, .limiter, .throttle, .splitter, .pass, .script,
    .image]

def name : Kind → String
  | .comparator => "comparator"
  | .search => "search"
  | .eraser => "eraser"
  | .builder => "builder"
  | .limiter => "limiter"
  | .throttle => "throttle"
  | .splitter => "splitter"
  | .pass => "noop"
  | .script => "script"
  | .image => "image"

def ofName? (name : String) : Option Kind := all.find? (·.name = name)

def title : Kind → String
  | .comparator => "Comparator"
  | .search => "Search"
  | .eraser => "Field Eraser"
  | .builder => "Template Builder"
  | .limiter => "Size Limiter"
  | .throttle => "Rate Throttle"
  | .splitter => "Chunk Splitter"
  | .pass => "No-op"
  | .script => "Rhai Script"
  | .image => "Image Transform"

/-- Whether stages of the kind make several messages of one. -/
def isGenerator : Kind → Bool
  | .splitter => true
  | _ => false

def fields : Kind → List Field
  | .comparator => Comparator.fields
  | .search => Search.fields
  | .eraser => Eraser.fields
  | .builder => Builder.fields
  | .limiter => Limiter.fields
  | .throttle => Throttle.fields
  | .splitter => Splitter.fields
  | .pass => Pass.fields
  | .script => Scripted.fields
  | .image => Image.fields

def description : Kind → String
  | .comparator =>
    "Compares a document field against a value.\nAccepts when the comparison holds.\n" ++
    "A missing field rejects."
  | .search =>
    "Looks for text in the payload, a key in the document\nor a substring of the topic."
  | .eraser => "Removes fields from the document and accepts."
  | .builder =>
    "Builds a new document from a template.\n$\x7bpath\x7d and $\x7bmeta.path\x7d are " ++
    "substituted.\nOptionally merges into the existing document."
  | .limiter => "Accepts payloads no larger than \x60size\x60 bytes."
  | .throttle =>
    "Passes at most \x60rate\x60 messages per period.\nExcess messages are dropped, or in delay " ++
    "mode\nthe latest is held until the window reopens."
  | .splitter =>
    "Splits a payload into chunks (bytes) or an array\ninto groups. Every piece shares one " ++
    "message id."
  | .pass => "Accepts everything. Useful as a goto label."
  | .script =>
    "Runs a Rhai script with payload, topic,\nmetadata and accept in scope."
  | .image => "Decodes an image payload, applies a transform\nand re-encodes it as PNG or JPEG."

end Kind

/-- A stage of any kind. -/
inductive Builtin
  | comparator (s : Comparator)
  | search (s : Search)
  | eraser (s : Eraser)
  | builder (s : Builder)
  | limiter (s : Limiter)
  | throttle (s : Throttle)
  | splitter (s : Splitter)
  | pass (s : Pass)
  | script (s : Scripted)
  | image (s : Image)

namespace Builtin

def kind : Builtin → Kind
  | .comparator _ => .comparator
  | .search _ => .search
  | .eraser _ => .eraser
  | .builder _ => .builder
  | .limiter _ => .limiter
  | .throttle _ => .throttle
  | .splitter _ => .splitter
  | .pass _ => .pass
  | .script _ => .script
  | .image _ => .image

def ofParams (kind : Kind) (ms : Members) : Except PipelineError Builtin :=
  match kind with
  | .comparator => (Comparator.ofParams ms).map .comparator
  | .search => (Search.ofParams ms).map .search
  | .eraser => (Eraser.ofParams ms).map .eraser
  | .builder => (Builder.ofParams ms).map .builder
  | .limiter => (Limiter.ofParams ms).map .limiter
  | .throttle => (Throttle.ofParams ms).map .throttle
  | .splitter => (Splitter.ofParams ms).map .splitter
  | .pass => (Pass.ofParams ms).map .pass
  | .script => (Scripted.ofParams ms).map .script
  | .image => (Image.ofParams ms).map .image

def outcome : Except PipelineError Wrapper → Outcome
  | .ok w => .done w
  | .error e => .failed e

/-- The response of a stage of one kind as that of a stage of any kind. -/
def respond (wrap : σ → Builtin) (r : Response σ) : Response Builtin :=
  { state := wrap r.state, outcome := r.outcome, timers := r.timers, named := r.named }

def process (moment : Moment) (s : Builtin) (w : Wrapper) : Response Builtin :=
  match s with
  | .comparator c => { state := s, outcome := outcome (c.apply w) }
  | .search c => { state := s, outcome := .done (c.apply w) }
  | .eraser c => { state := s, outcome := outcome (c.apply w) }
  | .builder c => { state := s, outcome := outcome (c.apply w) }
  | .limiter c => { state := s, outcome := .done (c.apply w) }
  | .throttle c => respond .throttle (c.process moment w)
  | .splitter c => respond .splitter (c.process moment w)
  | .pass c => { state := s, outcome := .done (c.apply w) }
  | .script c => respond .script (c.process moment w)
  | .image c => { state := s, outcome := c.process w }

def expire (now : Instant) (s : Builtin) (token : UInt64) : Release Builtin :=
  match s with
  | .throttle c =>
    let r := c.expire now token
    { state := .throttle r.state, result := r.result, timers := r.timers }
  | s => { state := s, result := .ok none }

def start (now : Instant) : Builtin → Builtin
  | .script c => .script (c.start now)
  | s => s

def stop : Builtin → Builtin
  | .throttle c => .throttle c.stop
  | s => s

instance : Behaviour Builtin where
  typeName s := s.kind.name
  process := process
  expire := expire
  start := start
  stop := stop

end Builtin

end Conduit.Stage
