import PullNotices.Ascending
import PullNotices.Commit
import PullNotices.Config
import PullNotices.Failure
import PullNotices.Files.Fault
import PullNotices.Files.Name
import PullNotices.Files.Path
import PullNotices.Files.Tree
import PullNotices.Forge.Basic
import PullNotices.Forge.Evidence
import PullNotices.Forge.Payload
import PullNotices.Forge.Snapshot
import PullNotices.Forge.Task
import PullNotices.Hash
import PullNotices.History.Basic
import PullNotices.History.Difference
import PullNotices.History.Encoding
import PullNotices.History.Entry
import PullNotices.History.Record
import PullNotices.Issue.Reference
import PullNotices.Issue.Section
import PullNotices.Issue.Set
import PullNotices.Json.Basic
import PullNotices.Json.Display
import PullNotices.Json.Double
import PullNotices.Json.Reader
import PullNotices.Json.Shape
import PullNotices.Json.Writer
import PullNotices.Listener
import PullNotices.Log
import PullNotices.Main
import PullNotices.Notice
import PullNotices.Pass
import PullNotices.Program
import PullNotices.Report.CommandLine
import PullNotices.Report.Help
import PullNotices.Report.Listing
import PullNotices.Report.Table
import PullNotices.Report.Viewer
import PullNotices.Round
import PullNotices.Store
import PullNotices.Text.Basic
import PullNotices.Text.Blank
import PullNotices.Text.Digit
import PullNotices.Text.Lines
import PullNotices.Text.Printable
import PullNotices.Text.Quoted
import PullNotices.Text.Set
import PullNotices.Text.Utf8
import PullNotices.Timestamp.Basic
import PullNotices.Timestamp.Epoch
import PullNotices.Timestamp.Reader
import PullNotices.World
import PullNotices.Proofs.Text.Pairs
import PullNotices.Proofs.Text.Utf8
import PullNotices.Proofs.Json.Grammar
import PullNotices.Proofs.Json.Reading
import PullNotices.Proofs.Json.Acceptance
import PullNotices.Proofs.Json.Writing
import PullNotices.Proofs.Ascending
import PullNotices.Proofs.History.PairFree
import PullNotices.Proofs.Files.Directories
import PullNotices.Proofs.Files.Name
import PullNotices.Proofs.History.RoundTrip
import PullNotices.Proofs.Pass.Site
import PullNotices.Proofs.Forge.PairFree
import PullNotices.Proofs.Pass.Agenda
import PullNotices.Proofs.Pass.Exclusion
import PullNotices.Proofs.Pass.Conduct
import PullNotices.Proofs.Pass.Course
import PullNotices.Proofs.Pass.Chronicle
import PullNotices.Proofs.Pass.Replay
import PullNotices.Proofs.Pass.Listening
import PullNotices.Proofs.Pass.Integration
import PullNotices.Proofs.Pass.Overlap
import PullNotices.Proofs.Pass.Standing
import PullNotices.Proofs.Pass.LostUpdate
import PullNotices.Proofs.History.Merge
import PullNotices.Proofs.History.Canonical
import PullNotices.Proofs.Pass.Volume
import PullNotices.Proofs.Pass.Outcome
import PullNotices.Proofs.Pass.Upgrade
import PullNotices.Proofs.Pass.Retry
import PullNotices.Proofs.Pass.Repetition
import PullNotices.Proofs.Round
import PullNotices.Proofs.History.Records
import PullNotices.Proofs.Store.Contents
import PullNotices.Proofs.History.Acceptance
import PullNotices.Proofs.Store.Update
import PullNotices.Proofs.Files.Growth
import PullNotices.Proofs.Unreadable
import PullNotices.Proofs.Store.Complaints
import PullNotices.Proofs.Pass.Delivery
import PullNotices.Proofs.Forge.Evidence
import PullNotices.Proofs.Pass.Evidence
import PullNotices.Proofs.Pass.Dispatch
import PullNotices.Proofs.Pass.Influence
import PullNotices.Proofs.History.Layout
import PullNotices.Proofs.Text.Lines
import PullNotices.Proofs.Text.Search
import PullNotices.Proofs.Issue.Section
import PullNotices.Proofs.Issue.Reference
import PullNotices.Proofs.Issue.Rendering
import PullNotices.Proofs.Forge.Announcement
import PullNotices.Proofs.History.Difference
import PullNotices.Proofs.Commit
import PullNotices.Proofs.History.Visibility
import PullNotices.Proofs.Store.Opening
import PullNotices.Proofs.Forge.Snapshot
import PullNotices.Proofs.Pass.Failure
import PullNotices.Proofs.Json.Rewriting
import PullNotices.Proofs.Config
import PullNotices.Proofs.Forge.Equivalence
import PullNotices.Proofs.Report.Table
import PullNotices.Proofs.History.Obtainable
import PullNotices.Proofs.Report.Listing
