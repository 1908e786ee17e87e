import ScreenGraph.Text.Integer
import ScreenGraph.Identity.Ident
import ScreenGraph.Screen.Bounds
import ScreenGraph.Screen.Widget
import ScreenGraph.Screen.State
import ScreenGraph.Screen.Label
import ScreenGraph.Graph.Action
import ScreenGraph.Graph.Registry
import ScreenGraph.Graph.Trace
import ScreenGraph.Graph.Basic
import ScreenGraph.Watch.Commit
import ScreenGraph.Watch.Tally
import ScreenGraph.Watch.ClickLog
import ScreenGraph.Watch.Journal
import ScreenGraph.Watch.Watcher
import ScreenGraph.Watch.Model
import ScreenGraph.Files.Path
import ScreenGraph.Files.Tree
import ScreenGraph.Record.Layout
import ScreenGraph.Record.Stream
import ScreenGraph.Json.Value
import ScreenGraph.Json.Strings
import ScreenGraph.Text.Hex
import ScreenGraph.Text.Escaped
import ScreenGraph.Text.Quoted
import ScreenGraph.Settings.Basic
import ScreenGraph.Settings.Reading
import ScreenGraph.Record.Row
import ScreenGraph.Load.Error
import ScreenGraph.Load.Survey
import ScreenGraph.Load.Resolution
import ScreenGraph.Load.Report
import ScreenGraph.Load.TraceFile
import ScreenGraph.Load.Run
import ScreenGraph.Export
import ScreenGraph.Yaml.Cursor
import ScreenGraph.Yaml.Scalar
import ScreenGraph.Yaml.Token
import ScreenGraph.Yaml.Node
import ScreenGraph.Command.Arguments
import ScreenGraph.Command.Run
import ScreenGraph.Main
import ScreenGraph.Proofs.Graph.Checks
import ScreenGraph.Proofs.Graph.Sound
import ScreenGraph.Proofs.Graph.History
import ScreenGraph.Proofs.Identity.Fingerprint
import ScreenGraph.Proofs.Load.Registration
import ScreenGraph.Proofs.Load.Attempts
import ScreenGraph.Proofs.Load.Commits
import ScreenGraph.Proofs.Load.Runs
import ScreenGraph.Proofs.Load.Sightings
import ScreenGraph.Proofs.Text.Bytes
import ScreenGraph.Proofs.Text.Plain
import ScreenGraph.Proofs.Json.Strings
import ScreenGraph.Proofs.Record.Reading
import ScreenGraph.Proofs.Record.Writing
import ScreenGraph.Proofs.Files.Below
import ScreenGraph.Proofs.Export.Rows
import ScreenGraph.Proofs.Export.Files
import ScreenGraph.Proofs.Export.Legible
import ScreenGraph.Proofs.Export.Discovery
import ScreenGraph.Proofs.Export.Reread
import ScreenGraph.Proofs.Export.Reload
import ScreenGraph.Proofs.Export.Identities
import ScreenGraph.Proofs.Export.Lockstep
import ScreenGraph.Proofs.Export.RoundTrip
import ScreenGraph.Proofs.Load.Accounts
import ScreenGraph.Proofs.Load.Unwatched
import ScreenGraph.Proofs.Load.Acceptance
import ScreenGraph.Proofs.Load.Completeness
import ScreenGraph.Proofs.Load.Told
import ScreenGraph.Proofs.Load.Independence
import ScreenGraph.Proofs.Load.History
import ScreenGraph.Proofs.Load.Course
import ScreenGraph.Proofs.Load.Lookups
import ScreenGraph.Proofs.Load.Parents
import ScreenGraph.Proofs.Watch.Delivery
import ScreenGraph.Proofs.Load.Compatibility
import ScreenGraph.Proofs.Load.Intake
import ScreenGraph.Proofs.Load.Selection
import ScreenGraph.Proofs.Load.Origins
import ScreenGraph.Proofs.Load.Repairs
import ScreenGraph.Proofs.Files.Revised
import ScreenGraph.Proofs.Record.Edits
import ScreenGraph.Proofs.Load.Comparison
import ScreenGraph.Proofs.Load.Truncation
import ScreenGraph.Proofs.Load.Skipping
import ScreenGraph.Proofs.Watch.Batches
import ScreenGraph.Proofs.Load.Targets
import ScreenGraph.Proofs.Load.Cells
import ScreenGraph.Proofs.Load.Merging
import ScreenGraph.Proofs.Record.Reader
import ScreenGraph.Proofs.Screen.Label
import ScreenGraph.Proofs.Identity.Keys
import ScreenGraph.Proofs.Watch.Clicks
import ScreenGraph.Proofs.Text.Fields
import ScreenGraph.Proofs.Text.Table
import ScreenGraph.Proofs.Watch.Reports
import ScreenGraph.Proofs.Load.Reports
