import Conduit.Number.Double
import Conduit.Number.Shortest
import Conduit.Number.Reading
import Conduit.Text.Utf8
import Conduit.Text.Hex
import Conduit.Text.Blank
import Conduit.Text.Quoted
import Conduit.Json.Basic
import Conduit.Json.Printer
import Conduit.Json.Path
import Conduit.Json.Fault
import Conduit.Json.Reader
import Conduit.Json.Compare
import Conduit.Json.Shape
import Conduit.Json.Record
import Conduit.Dictionary
import Conduit.Error
import Conduit.Message
import Conduit.Script.Datum
import Conduit.Script.Token
import Conduit.Script.Tree
import Conduit.Script.Parser
import Conduit.Text.Case
import Conduit.Script.Operators
import Conduit.Script.Library
import Conduit.Script.Eval
import Conduit.Script.Engine
import Conduit.Stage.Field
import Conduit.Stage.Routing
import Conduit.Stage.Basic
import Conduit.Stage.Deciders
import Conduit.Stage.Template
import Conduit.Stage.Builder
import Conduit.Stage.Splitter
import Conduit.Stage.Throttle
import Conduit.Stage.Scripted
import Conduit.Stage.Image
import Conduit.Stage.Kind
import Conduit.Config.Entry
import Conduit.Stage.Build
import Conduit.Queue.Basic
import Conduit.Queue.FanOut
import Conduit.Queue.Traffic
import Conduit.Queue.Use
import Conduit.Chain.Route
import Conduit.Chain.Basic
import Conduit.Chain.Walk
import Conduit.Chain.Process
import Conduit.Chain.Alarm
import Conduit.Files
import Conduit.Config.Pipeline
import Conduit.Toml.Basic
import Conduit.Toml.Writer
import Conduit.Toml.Reader
import Conduit.Config.Settings
import Conduit.Connector.Lines
import Conduit.Connector.Basic
import Conduit.Connector.Session
import Conduit.Connector.Build
import Conduit.Connector.Exchange
import Conduit.Connector.Intake
import Conduit.Pipeline.Board
import Conduit.Pipeline.Machine
import Conduit.Pipeline.Step
import Conduit.Pipeline.Basic
import Conduit.Pipeline.Registry
import Conduit.Pipeline.Command
import Conduit.Raster.Basic
import Conduit.Raster.Resample
import Conduit.Raster.PrefixCode
import Conduit.Raster.Deflate
import Conduit.Raster.Png.Header
import Conduit.Raster.Png.Reader
import Conduit.Raster.Jpeg.Tables
import Conduit.Raster.Jpeg.Transform
import Conduit.Raster.Jpeg.Writer
import Conduit.Raster.Jpeg.Reader
import Conduit.Raster.File
import Conduit.Proofs.Chain.Frame
import Conduit.Proofs.Chain.DepthFirst
import Conduit.Proofs.Chain.Trail
import Conduit.Proofs.Chain.Keeps
import Conduit.Proofs.Dictionary
import Conduit.Proofs.Queue.Directory
import Conduit.Proofs.Pipeline.Moves
import Conduit.Proofs.Pipeline.Inversion
import Conduit.Proofs.Pipeline.History
import Conduit.Proofs.Pipeline.Board
import Conduit.Proofs.Chain.Call
import Conduit.Proofs.Chain.Balance
import Conduit.Proofs.Chain.Nesting
import Conduit.Proofs.Chain.Redirects
import Conduit.Proofs.Chain.Termination
import Conduit.Proofs.Chain.ByName
import Conduit.Proofs.Pipeline.Controller
import Conduit.Proofs.Pipeline.Phases
import Conduit.Proofs.Pipeline.Shutdown
import Conduit.Proofs.Pipeline.Cargo
import Conduit.Proofs.Stage.Holding
import Conduit.Proofs.Pipeline.Order
import Conduit.Proofs.Stage.Plain
import Conduit.Proofs.Chain.Plain
import Conduit.Proofs.Pipeline.Accounting
import Conduit.Proofs.Pipeline.Turns
import Conduit.Proofs.Chain.Patience
import Conduit.Proofs.Pipeline.Completion
import Conduit.Proofs.Pipeline.Exits
import Conduit.Proofs.Pipeline.Signals
import Conduit.Proofs.Pipeline.Lifecycle
import Conduit.Proofs.Pipeline.Incidents
import Conduit.Proofs.Pipeline.Reports
import Conduit.Proofs.Message.Views
import Conduit.Proofs.Message.BinaryMaps
import Conduit.Proofs.Config.Saving
import Conduit.Proofs.Registry.Loading
import Conduit.Proofs.Queue.Isolation
import Conduit.Proofs.Connector.Exchange
import Conduit.Proofs.Connector.Intake
import Conduit.Proofs.Queue.Use
import Conduit.Proofs.Chain.Survival
import Conduit.Proofs.Stage.Waiting
import Conduit.Proofs.Chain.Awaiting
import Conduit.Proofs.Pipeline.Waiting
import Conduit.Proofs.Chain.Release
import Conduit.Proofs.Chain.Cycles
import Conduit.Proofs.Chain.Throttled
import Conduit.Proofs.Chain.Afresh
import Conduit.Proofs.Chain.Splitters
import Conduit.Connector.Outlet
import Conduit.Proofs.Connector.Lines
import Conduit.Proofs.Connector.Outlet
import Conduit.Proofs.Stage.Windows
import Conduit.Proofs.Stage.Holds
import Conduit.Proofs.Stage.Limits
import Conduit.Proofs.Stage.Pieces
import Conduit.Proofs.Chain.Hops
import Conduit.Proofs.Json.Removal
import Conduit.Proofs.Stage.Eraser
import Conduit.Proofs.Json.Compare
import Conduit.Proofs.Stage.Template
import Conduit.Proofs.Json.Coherence
import Conduit.Proofs.Stage.Scripted
import Conduit.Proofs.Stage.Fields
import Conduit.Proofs.Registry.Checks
import Conduit.Proofs.Json.Merging
import Conduit.Proofs.Registry.Footprint
import Conduit.Proofs.Stage.Reworks
import Conduit.Proofs.Chain.Along
import Conduit.Proofs.Chain.Books
import Conduit.Proofs.Chain.Journeys
import Conduit.Proofs.Chain.Tags
