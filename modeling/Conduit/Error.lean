/-!
# Errors

What can go wrong in the pipeline engine, in a connector, and in the application around them, with
the wording of each.
-/

namespace Conduit

inductive PipelineError
  | config (text : String)
  | unknownStageType (name : String)
  | unknownConnectorType (name : String)
  | invalidStage (index : Nat) (problem : String)
  | duplicateId (id : String)
  | notFound (id : String)
  | malformed (reason : String)
  | terminated
  | transport (text : String)
  | stage (name problem : String)
  | representation (problem : String)
  | script (problem : String)
  | hopLimit (limit : Nat)
  | overflow (capacity : Nat)
  | resourceExhausted (text : String)
  | io (text : String)
  | channelSend
  | channelRecv
deriving DecidableEq, Repr

namespace PipelineError

def message : PipelineError → String
  | .config text => "Configuration error: " ++ text
  | .unknownStageType name => "Unknown stage type: " ++ name
  | .unknownConnectorType name => "Unknown connector type: " ++ name
  | .invalidStage index problem => s!"Stage {index} is invalid: " ++ problem
  | .duplicateId id => "Pipeline '" ++ id ++ "' already exists"
  | .notFound id => "Pipeline '" ++ id ++ "' not found"
  | .malformed reason => "Pipeline is malformed: " ++ reason
  | .terminated => "Pipeline has been terminated"
  | .transport text => "Transport error: " ++ text
  | .stage name problem => "Stage '" ++ name ++ "' error: " ++ problem
  | .representation problem => "Representation error: " ++ problem
  | .script problem => "Script error: " ++ problem
  | .hopLimit limit => s!"Message exceeded {limit} stage visits"
  | .overflow capacity => s!"Queue overflow (capacity {capacity})"
  | .resourceExhausted text => "Resource exhausted: " ++ text
  | .io text => "IO error: " ++ text
  | .channelSend => "Channel send error"
  | .channelRecv => "Channel receive error"

/-- Whether the error is about a configuration, found before anything runs. -/
def isConfig : PipelineError → Bool
  | .config _ | .unknownStageType _ | .unknownConnectorType _ | .invalidStage .. | .duplicateId _ =>
    true
  | _ => false

end PipelineError

inductive ConnectorError
  /-- Nothing arrived; the caller may try again. -/
  | noData
  /-- The connector was stopped. -/
  | stopped
  | transport (text : String)
deriving DecidableEq, Repr

def ConnectorError.message : ConnectorError → String
  | .noData => "no data"
  | .stopped => "connector stopped"
  | .transport text => "transport error: " ++ text

inductive BridgeError
  | config (text : String)
  | io (text : String)
  | pipeline (error : PipelineError)
  | script (problem : String)
  | serialization (text : String)
  | withContext (context : String) (error : BridgeError)
deriving Repr

def BridgeError.message : BridgeError → String
  | .config text => "Configuration error: " ++ text
  | .io text => "IO error: " ++ text
  | .pipeline error => "Pipeline error: " ++ error.message
  | .script problem => "Script error: " ++ problem
  | .serialization text => "Serialization error: " ++ text
  | .withContext context error => context ++ ": " ++ error.message

end Conduit
