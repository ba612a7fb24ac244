import Conduit.Json.Compare
import Conduit.Json.Path
import Conduit.Stage.Basic

/-!
# Stages that only look

The comparator, the search and the limiter look at a message and decide about it; the pass stage
accepts everything; the eraser takes fields out of the document. None of them has a state.
-/

namespace Conduit

def Wrapper.accept (w : Wrapper) : Wrapper := { w with accepted := true }

def Wrapper.decide (w : Wrapper) (accepted : Bool) : Wrapper := { w with accepted }

def Message.document? (m : Message) : Except PipelineError Value :=
  m.asDocument.mapError Unviewable.toError

namespace Stage

open Json

/-! ## Comparator -/

/-- Compares a field of the document with a value. A missing field rejects. -/
structure Comparator where
  key : String
  operator : Operator
  value : Value
deriving DecidableEq

namespace Comparator

def fields : List Field :=
  [.require "key" .string,
    .mayHave "operator" .string (some "==")
      ["==", "!=", ">", ">=", "<", "<=", "eq", "ne", "gt", "ge", "lt", "le"],
    .require "value" .any]

def shapes : List (String × Shape Unit) :=
  [("key", Shape.string.check), ("operator", Shape.string.check), ("value", Shape.anything.check)]

def ofParams (ms : Members) : Except PipelineError Comparator := do
  let (key, operator, value) ← readParams shapes ms fun ms => do
    let key ← required ms "key" .string
    let operator ← withDefault ms "operator" .string "=="
    return (key, operator, ← required ms "value" .anything)
  match Operator.ofName? operator with
  | some operator => return { key, operator, value }
  | none => throw (.config ("unknown operator '" ++ operator ++ "'"))

def apply (s : Comparator) (w : Wrapper) : Except PipelineError Wrapper := do
  let doc ← w.working.document?
  return w.decide <|
    match doc.lookup s.key with
    | some found => found.compare s.operator s.value
    | none => false

end Comparator

/-! ## Search -/

inductive SearchMode
  /-- The payload contains the text. -/
  | text
  /-- The document has a field at the path. -/
  | key
  /-- The topic contains the text. -/
  | topic
deriving DecidableEq, Repr

structure Search where
  mode : SearchMode
  value : String
deriving DecidableEq

namespace Search

def modes : List (String × SearchMode) := [("text", .text), ("key", .key), ("topic", .topic)]

def fields : List Field :=
  [.mayHave "mode" .string (some "text") (modes.map Prod.fst), .require "value" .string]

def modeShape : Shape SearchMode := .choice .unit modes

def shapes : List (String × Shape Unit) :=
  [("mode", modeShape.check), ("value", Shape.string.check)]

def ofParams (ms : Members) : Except PipelineError Search :=
  readParams shapes ms fun ms => do
    let mode ← withDefault ms "mode" modeShape .text
    return { mode, value := ← required ms "value" .string }

def finds (s : Search) (m : Message) : Bool :=
  match s.mode with
  | .text => Text.occurs (Utf8.encode s.value) m.asBytes
  | .key =>
    match m.asDocument with
    | .ok doc => (doc.lookup s.value).isSome
    | .error _ => false
  | .topic => Text.occurs s.value.toList m.topic.toList

def apply (s : Search) (w : Wrapper) : Wrapper := w.decide (s.finds w.working)

end Search

/-! ## Limiter -/

/-- Accepts payloads of at most `size` bytes. -/
structure Limiter where
  size : Nat
deriving DecidableEq

namespace Limiter

def fields : List Field := [.require "size" .integer]

def shapes : List (String × Shape Unit) := [("size", Shape.size.check)]

def ofParams (ms : Members) : Except PipelineError Limiter :=
  readParams shapes ms fun ms => return { size := ← required ms "size" .size }

def apply (s : Limiter) (w : Wrapper) : Wrapper := w.decide (w.working.payloadSize ≤ s.size)

end Limiter

/-! ## Pass -/

/-- Accepts everything; useful as a target. -/
structure Pass where
deriving DecidableEq

namespace Pass

def fields : List Field := []

def shapes : List (String × Shape Unit) := []

def ofParams (ms : Members) : Except PipelineError Pass := readParams shapes ms fun _ => return {}

def apply (_ : Pass) (w : Wrapper) : Wrapper := w.accept

end Pass

/-! ## Eraser -/

/-- Takes the values at some paths out of the document. A message without any of them stays as it
is. -/
structure Eraser where
  keys : List String
deriving DecidableEq

namespace Eraser

def fields : List Field := [.require "keys" .array]

def keysShape : Shape (List String) := .list .string

def shapes : List (String × Shape Unit) := [("keys", keysShape.check)]

def ofParams (ms : Members) : Except PipelineError Eraser :=
  readParams shapes ms fun ms => return { keys := ← required ms "keys" keysShape }

/-- Takes out one path after the other; `none` if nothing was there. -/
def erase? (doc : Value) : List String → Option Value
  | [] => none
  | key :: rest =>
    match doc.remove? key with
    | some less => some ((erase? less rest).getD less)
    | none => erase? doc rest

def apply (s : Eraser) (w : Wrapper) : Except PipelineError Wrapper := do
  let doc ← w.working.document?
  return match erase? doc s.keys with
    | some less => { w with working := w.working.withDocument less }.accept
    | none => w.accept

end Eraser

end Stage

end Conduit
