import StencilDesk.Main
import StencilDesk.Config.Lint
import StencilDesk.Config.Locate
import StencilDesk.Editor.Operation
import StencilDesk.Navigation.Keyboard
import StencilDesk.Template.Lint
import StencilDesk.Proofs.Session.Coherence.Runs
import StencilDesk.Proofs.Bundle.Paths
import StencilDesk.Proofs.Bundle.Storable
import StencilDesk.Proofs.Session.Storable
import StencilDesk.Proofs.Editor.Reachable
import StencilDesk.Proofs.Editor.Failure
import StencilDesk.Proofs.History.Snapshot
import StencilDesk.Proofs.Directory
import StencilDesk.Proofs.History.Serials
import StencilDesk.Proofs.History.Isolation
import StencilDesk.Proofs.History.Growth
import StencilDesk.Proofs.History.Runs
import StencilDesk.Proofs.Session.Effect
import StencilDesk.Proofs.Session.Settings
import StencilDesk.Proofs.Session.Baseline
import StencilDesk.Proofs.Editor.Closing
import StencilDesk.Proofs.Editor.Turns
import StencilDesk.Proofs.Editor.Requests
import StencilDesk.Proofs.Editor.Questions
import StencilDesk.Proofs.Editor.Consent
import StencilDesk.Proofs.Bundle.Diff
import StencilDesk.Proofs.Session.Restore
import StencilDesk.Proofs.History.Archive
import StencilDesk.Proofs.Session.Undo
import StencilDesk.Proofs.Session.Findings
import StencilDesk.Proofs.Editor.Display
import StencilDesk.Proofs.Editor.Following
import StencilDesk.Proofs.Ignore.Sign
import StencilDesk.Proofs.Ignore.Exclusion
import StencilDesk.Proofs.Import
import StencilDesk.Proofs.History.Reading
import StencilDesk.Proofs.History.Failing
import StencilDesk.Proofs.Yaml.Keys
import StencilDesk.Proofs.Yaml.Blank
import StencilDesk.Proofs.Settings
import StencilDesk.Proofs.Config.Usable
import StencilDesk.Proofs.History.DateOrder
import StencilDesk.Proofs.History.Chronology
import StencilDesk.Proofs.History.Moves
import StencilDesk.Proofs.History.Overlap
import StencilDesk.Proofs.Session.Changes
import StencilDesk.Proofs.Session.Anchored
import StencilDesk.Proofs.Session.Marks
import StencilDesk.Proofs.Editor.Panels
import StencilDesk.Proofs.Navigation.Subscriptions
import StencilDesk.Proofs.Navigation.Views
import StencilDesk.Proofs.Import.Rules
import StencilDesk.Proofs.Bundle.Listing
import StencilDesk.Proofs.Editor.Warnings
import StencilDesk.Proofs.Bundle.Shape
import StencilDesk.Proofs.Bundle.Mirror
import StencilDesk.Proofs.Bundle.Arrangement
import StencilDesk.Proofs.Bundle.Sorting
import StencilDesk.Proofs.Text.Occurrences
import StencilDesk.Proofs.Template.Tags
import StencilDesk.Proofs.Template.Codes
import StencilDesk.Proofs.Template.Nesting
import StencilDesk.Proofs.Template.Masking
import StencilDesk.Proofs.Template.Unended
import StencilDesk.Proofs.Template.Interpolations
import StencilDesk.Proofs.Template.Places
import StencilDesk.Proofs.Bundle.LineDiff
import StencilDesk.Proofs.Bundle.Comparison
import StencilDesk.Proofs.Bundle.LineCount
import StencilDesk.Proofs.Config.Layout
import StencilDesk.Proofs.Config.Location
import StencilDesk.Proofs.Navigation.Lineages
import StencilDesk.Proofs.Navigation.Rows
import StencilDesk.Proofs.Navigation.Selection
import StencilDesk.Proofs.Navigation.Keys
import StencilDesk.Proofs.History.Addition
import StencilDesk.Proofs.Session.Refresh
import StencilDesk.Proofs.Bundle.Acceptance
import StencilDesk.Proofs.Bundle.Traversal
import StencilDesk.Proofs.Bundle.Targets
import StencilDesk.Proofs.Template.Usage
import StencilDesk.Proofs.Text.Padding
import StencilDesk.Proofs.Template.LineEnds
import StencilDesk.Proofs.Session.Opening
import StencilDesk.Proofs.CommandLine.Report
