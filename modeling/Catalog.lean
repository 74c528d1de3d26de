import Catalog.Failure
import Catalog.Http.Answer
import Catalog.Http.Handle
import Catalog.Http.Route
import Catalog.Http.Target
import Catalog.Number.Basic
import Catalog.Number.Double
import Catalog.Number.Numeral
import Catalog.Number.Rounded
import Catalog.Number.Shortest
import Catalog.Plan.Basic
import Catalog.Plan.Load
import Catalog.Plan.Order
import Catalog.Plan.Resolve
import Catalog.Plan.Run
import Catalog.Plan.Shape
import Catalog.Plan.Slots
import Catalog.Plan.Summary
import Catalog.Policy.Basic
import Catalog.Policy.ConfigError
import Catalog.Policy.Reading
import Catalog.Proofs.Agreement
import Catalog.Proofs.Keyed
import Catalog.Proofs.Number.Rounding
import Catalog.Proofs.Number.Shortest
import Catalog.Proofs.Number.Text
import Catalog.Proofs.Outcome
import Catalog.Proofs.Plan.Alone
import Catalog.Proofs.Plan.Included
import Catalog.Proofs.Plan.Join
import Catalog.Proofs.Plan.Listing
import Catalog.Proofs.Plan.Loading
import Catalog.Proofs.Plan.OneByOne
import Catalog.Proofs.Plan.Order
import Catalog.Proofs.Plan.Pages
import Catalog.Proofs.Plan.Placement
import Catalog.Proofs.Plan.Projection
import Catalog.Proofs.Plan.Relations
import Catalog.Proofs.Plan.Resolution
import Catalog.Proofs.Plan.Slots
import Catalog.Proofs.Plan.Sorting
import Catalog.Proofs.Policy
import Catalog.Proofs.Policy.LimitSettings
import Catalog.Proofs.Query.Answers
import Catalog.Proofs.Query.Bracket
import Catalog.Proofs.Query.Breaking
import Catalog.Proofs.Query.Comparison
import Catalog.Proofs.Query.Decoding
import Catalog.Proofs.Query.Descent
import Catalog.Proofs.Query.Equality
import Catalog.Proofs.Query.Inference
import Catalog.Proofs.Query.KeptText
import Catalog.Proofs.Query.Leaves
import Catalog.Proofs.Query.LongerWindows
import Catalog.Proofs.Query.Meaning
import Catalog.Proofs.Query.NormalForm
import Catalog.Proofs.Query.Parts
import Catalog.Proofs.Query.Reading
import Catalog.Proofs.Query.Refusals
import Catalog.Proofs.Query.Selecting
import Catalog.Proofs.Query.Testing
import Catalog.Proofs.Query.Tree
import Catalog.Proofs.Query.Wildcards
import Catalog.Proofs.Query.Windows
import Catalog.Proofs.Record.Address
import Catalog.Proofs.Record.Carried
import Catalog.Proofs.Record.DefaultKind
import Catalog.Proofs.Record.Endings
import Catalog.Proofs.Record.Kept
import Catalog.Proofs.Record.Managed
import Catalog.Proofs.Record.Produced
import Catalog.Proofs.Record.PutBack
import Catalog.Proofs.Record.References
import Catalog.Proofs.Record.Refusals
import Catalog.Proofs.Record.Settled
import Catalog.Proofs.Record.Shape
import Catalog.Proofs.Record.Slug
import Catalog.Proofs.Record.SlugForm
import Catalog.Proofs.Record.Spelling
import Catalog.Proofs.Record.Steps
import Catalog.Proofs.Record.Writable
import Catalog.Proofs.Rewritten
import Catalog.Proofs.Rule.Apart
import Catalog.Proofs.Rule.Checks
import Catalog.Proofs.Rule.Kept
import Catalog.Proofs.Rule.KindScope
import Catalog.Proofs.Rule.OwnScope
import Catalog.Proofs.Rule.Owners
import Catalog.Proofs.Rule.Parameters
import Catalog.Proofs.Rule.Parents
import Catalog.Proofs.Rule.Rendering
import Catalog.Proofs.Rule.Room
import Catalog.Proofs.Rule.Unlimited
import Catalog.Proofs.SameResult
import Catalog.Proofs.Service.ActiveLimit
import Catalog.Proofs.Service.BulkSelection
import Catalog.Proofs.Service.BulkUpdate
import Catalog.Proofs.Service.Capacity
import Catalog.Proofs.Service.Change
import Catalog.Proofs.Service.Counting
import Catalog.Proofs.Service.Deletion
import Catalog.Proofs.Service.Finding
import Catalog.Proofs.Service.History
import Catalog.Proofs.Service.Integrity
import Catalog.Proofs.Service.KindLimit
import Catalog.Proofs.Service.ListRoom
import Catalog.Proofs.Service.Listed
import Catalog.Proofs.Service.Managed
import Catalog.Proofs.Service.Naming
import Catalog.Proofs.Service.Noninterference
import Catalog.Proofs.Service.Paging
import Catalog.Proofs.Service.Parents
import Catalog.Proofs.Service.Refusal
import Catalog.Proofs.Service.Relations
import Catalog.Proofs.Service.Removal
import Catalog.Proofs.Service.Showing
import Catalog.Proofs.Service.Sound
import Catalog.Proofs.Service.Step
import Catalog.Proofs.Service.Threads
import Catalog.Proofs.Service.Tiling
import Catalog.Proofs.Service.Traversal
import Catalog.Proofs.Service.Uniqueness
import Catalog.Proofs.Service.WellKept
import Catalog.Proofs.Stored
import Catalog.Proofs.Text.Percent
import Catalog.Proofs.Time.Calendar
import Catalog.Proofs.Time.Chronology
import Catalog.Proofs.Time.Earlier
import Catalog.Proofs.Time.Order
import Catalog.Proofs.Time.Timestamp
import Catalog.Proofs.Value.Path
import Catalog.Query.Access
import Catalog.Query.Bracket
import Catalog.Query.Coercion
import Catalog.Query.Condition
import Catalog.Query.Filter
import Catalog.Query.FilterError
import Catalog.Query.FilterReader
import Catalog.Query.Matching
import Catalog.Query.SetExpr
import Catalog.Record.Family
import Catalog.Record.Lifecycle
import Catalog.Record.Reference
import Catalog.Record.Slug
import Catalog.Rule.Limits
import Catalog.Rule.References
import Catalog.Rule.Scope
import Catalog.Service.Read
import Catalog.Service.Request
import Catalog.Service.Write
import Catalog.Store
import Catalog.Text.Blank
import Catalog.Text.CaseTable
import Catalog.Text.Digit
import Catalog.Text.Encoding
import Catalog.Text.Identifier
import Catalog.Text.LetterCase
import Catalog.Text.Pattern
import Catalog.Text.PatternReader
import Catalog.Text.Percent
import Catalog.Text.Printable
import Catalog.Text.Quoted
import Catalog.Text.Ranges
import Catalog.Text.Utf8
import Catalog.Text.Wildcard
import Catalog.Text.Word
import Catalog.Time.Calendar
import Catalog.Time.Instant
import Catalog.Time.Moment
import Catalog.Time.Timestamp
import Catalog.Value.Basic
import Catalog.Value.Depth
import Catalog.Value.Display
import Catalog.Value.Finite
import Catalog.Value.Json
import Catalog.Value.JsonReader
import Catalog.Value.Path
import Catalog.Value.Sameness
import Catalog.Value.Whole
import Catalog.Value.Yaml
