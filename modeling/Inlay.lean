import Inlay.Build.Plan
import Inlay.Build.Query
import Inlay.Build.Result
import Inlay.Check.Coerce
import Inlay.Check.Fault
import Inlay.Check.Record
import Inlay.Command.Annotate
import Inlay.Command.Arguments
import Inlay.Command.Options
import Inlay.Command.Prepare
import Inlay.Command.Run
import Inlay.Command.Watching
import Inlay.Disk
import Inlay.Edit
import Inlay.Hint
import Inlay.Infer.Local
import Inlay.Infer.Scope
import Inlay.Infer.TypeText
import Inlay.Json.Printer
import Inlay.Json.Reader
import Inlay.Json.Value
import Inlay.Language
import Inlay.Main
import Inlay.Number.Double
import Inlay.Number.Reader
import Inlay.Number.Shortest
import Inlay.Number.Whole
import Inlay.Path
import Inlay.Position
import Inlay.Position.Offset
import Inlay.Proofs.Extent
import Inlay.Registry
import Inlay.Render.Inline
import Inlay.Render.Markup
import Inlay.Render.Table
import Inlay.Settings.Colour
import Inlay.Settings.Configuration
import Inlay.Settings.Features
import Inlay.Settings.Load
import Inlay.Settings.Nest
import Inlay.Text.Blank
import Inlay.Text.Columns
import Inlay.Text.Digit
import Inlay.Text.Encoding
import Inlay.Text.Lowercase
import Inlay.Text.Printable
import Inlay.Text.Quoted
import Inlay.Text.Ranges
import Inlay.Text.Split
import Inlay.Text.Surrogate
import Inlay.Text.Width
import Inlay.Tree.Cursor
import Inlay.Tree.Function
import Inlay.Tree.Node
import Inlay.Tree.Record
import Inlay.Tree.Source
import Inlay.TypeServer.Client
import Inlay.TypeServer.Display
import Inlay.TypeServer.Framing
import Inlay.TypeServer.Help
import Inlay.TypeServer.Launch
import Inlay.TypeServer.Playback
import Inlay.Update.Scheduler
import Inlay.Update.Session
import Inlay.Update.State
import Inlay.Watch.Change
import Inlay.Watch.Scan
import Inlay.Watch.Watcher
import Inlay.Proofs.Offset
import Inlay.Proofs.Remap
import Inlay.Proofs.Placement
import Inlay.Proofs.Invariant
import Inlay.Proofs.Clean
import Inlay.Proofs.EditLog
import Inlay.Proofs.Tables
import Inlay.Proofs.Scheduler
import Inlay.Proofs.Session
import Inlay.Proofs.ByteOffset
import Inlay.Proofs.Attended
import Inlay.Proofs.Finality
import Inlay.Proofs.Reload
import Inlay.Proofs.HintIdentity
import Inlay.Proofs.BuildResult
import Inlay.Proofs.Text
import Inlay.Proofs.HeaderLine
import Inlay.Proofs.Framing
import Inlay.Proofs.Leaves
import Inlay.Proofs.Spelling
import Inlay.Proofs.Requests
import Inlay.Proofs.Responses
import Inlay.Proofs.Stream
import Inlay.Proofs.Conversation
import Inlay.Proofs.Playback
import Inlay.Proofs.Collision
import Inlay.Proofs.Decimal
import Inlay.Proofs.Override
import Inlay.Proofs.Delivery
import Inlay.Proofs.Arrival
import Inlay.Proofs.Shadowing
import Inlay.Proofs.Heredity
import Inlay.Proofs.Depth
import Inlay.Proofs.Independence
import Inlay.Proofs.Debounce
import Inlay.Proofs.Intact
import Inlay.Proofs.Destructuring
import Inlay.Proofs.Brackets
import Inlay.Proofs.Balance
import Inlay.Proofs.Reading
import Inlay.Proofs.Unions
import Inlay.Proofs.Contribution
import Inlay.Proofs.Warnings
import Inlay.Proofs.Obtained
import Inlay.Proofs.Switches
import Inlay.Proofs.Parentheses
import Inlay.Proofs.Rendering
import Inlay.Proofs.Mention
import Inlay.Proofs.Description
import Inlay.Proofs.Unqualified
import Inlay.Proofs.Locator
import Inlay.Proofs.Walk
import Inlay.Proofs.Watched
import Inlay.Proofs.Leftover
import Inlay.Proofs.HintRange
import Inlay.Proofs.DocumentOrder
