import Conduit.Stage.Deciders
import Conduit.Stage.Template

/-!
# The builder

Builds a new document from a template, or merges what the template makes into the document at
hand. The topic may be a template too.
-/

namespace Conduit.Stage

open Json

structure Builder where
  template : Value
  merge : Bool := false
  topic : Option String := none
deriving DecidableEq

namespace Builder

def fields : List Field :=
  [.require "template" .any, .mayHave "merge" .boolean (some "false"), .mayHave "topic" .string]

def topicShape : Shape (Option String) := .optional .string

def shapes : List (String × Shape Unit) :=
  [("template", Shape.anything.check), ("merge", Shape.flag.check), ("topic", topicShape.check)]

def ofParams (ms : Members) : Except PipelineError Builder := do
  let b ← readParams shapes ms fun ms => do
    let template ← required ms "template" .anything
    let merge ← withDefault ms "merge" .flag false
    let topic ← withDefault ms "topic" topicShape none
    return { template, merge, topic := Routing.nonEmpty topic : Builder }
  if b.merge ∧ !b.template.isObject then throw (.config "merge requires an object template")
  return b

/-- What the template makes of a document, or of a payload that is none. -/
def result (s : Builder) (document : Option Value) (built : Value) : Value :=
  match s.merge, built with
  | true, .object extra => (document.getD .null).merge extra
  | _, built => built

def apply (s : Builder) (w : Wrapper) : Except PipelineError Wrapper := do
  let document ← if s.merge then (w.working.document?).map some
    else pure w.working.asDocument.toOption
  let sources : Template.Sources := { document, metadata := w.metadata }
  let working := w.working.withDocument (s.result document (Template.render sources s.template))
  let working := match s.topic with
    | some topic => working.withTopic (Template.valueText (Template.renderString topic sources))
    | none => working
  return { w with working }.accept

end Builder

end Conduit.Stage
