import ModelStore.Calendar.Date
import ModelStore.Calendar.Iso
import ModelStore.Calendar.Moment
import ModelStore.Calendar.Unix
import ModelStore.Check.Basic
import ModelStore.Check.Definition
import ModelStore.Check.Property
import ModelStore.Check.Scalar
import ModelStore.Client
import ModelStore.Client.Action
import ModelStore.Client.Discovery
import ModelStore.Client.Instances
import ModelStore.Client.Migrations
import ModelStore.Direction
import ModelStore.Entries
import ModelStore.Fault
import ModelStore.Filter.Basic
import ModelStore.Filter.Parse
import ModelStore.Index.Candidate
import ModelStore.Index.Field
import ModelStore.Index.Listing
import ModelStore.Index.Migration
import ModelStore.Index.Plan
import ModelStore.Json.Body
import ModelStore.Json.Encodable
import ModelStore.Json.Reader
import ModelStore.Json.Writer
import ModelStore.Mapper
import ModelStore.Model.Definition
import ModelStore.Model.Property
import ModelStore.Model.TypeName
import ModelStore.Noted
import ModelStore.Number.Binary64
import ModelStore.Number.Decimal
import ModelStore.Number.Decimal.Difference
import ModelStore.Number.Numeral
import ModelStore.Number.Shortest
import ModelStore.Pattern.Basic
import ModelStore.Pattern.Inline
import ModelStore.Proofs.Calendar.Text
import ModelStore.Proofs.Check
import ModelStore.Proofs.Check.Expansion
import ModelStore.Proofs.Entries
import ModelStore.Proofs.Filter.Branches
import ModelStore.Proofs.Filter.Grammar
import ModelStore.Proofs.Filter.Satisfaction
import ModelStore.Proofs.Index.Alignment
import ModelStore.Proofs.Index.Candidate
import ModelStore.Proofs.Index.Completion
import ModelStore.Proofs.Index.Convergence
import ModelStore.Proofs.Index.Coverage
import ModelStore.Proofs.Index.Exactness
import ModelStore.Proofs.Index.Naming
import ModelStore.Proofs.Index.Plan
import ModelStore.Proofs.Index.Stage
import ModelStore.Proofs.Json.Encoding
import ModelStore.Proofs.Mapper
import ModelStore.Proofs.Mapper.Projection
import ModelStore.Proofs.Mapper.Reading
import ModelStore.Proofs.Mapper.Return
import ModelStore.Proofs.Mapper.RoundTrip
import ModelStore.Proofs.Noted
import ModelStore.Proofs.Number.Numeral
import ModelStore.Proofs.Pattern.Reading
import ModelStore.Proofs.Pattern.Spelling
import ModelStore.Proofs.Selector.Agreement
import ModelStore.Proofs.Selector.Compilation
import ModelStore.Proofs.Selector.Condition
import ModelStore.Proofs.Selector.Confinement
import ModelStore.Proofs.Selector.Conjunction
import ModelStore.Proofs.Selector.Guard
import ModelStore.Proofs.Selector.Identification
import ModelStore.Proofs.Selector.Matching
import ModelStore.Proofs.Selector.Meaning
import ModelStore.Proofs.Selector.Merging
import ModelStore.Proofs.Selector.Nesting
import ModelStore.Proofs.Selector.Ordering
import ModelStore.Proofs.Selector.Printing
import ModelStore.Proofs.Selector.Projection
import ModelStore.Proofs.Selector.Retention
import ModelStore.Proofs.Selector.Retrieval
import ModelStore.Proofs.Selector.Union
import ModelStore.Proofs.Selector.Walking
import ModelStore.Proofs.Store.Accounting
import ModelStore.Proofs.Store.Addressing
import ModelStore.Proofs.Store.Amending
import ModelStore.Proofs.Store.Answering
import ModelStore.Proofs.Store.Calling
import ModelStore.Proofs.Store.Commands
import ModelStore.Proofs.Store.Concurrency
import ModelStore.Proofs.Store.Connecting
import ModelStore.Proofs.Store.Creating
import ModelStore.Proofs.Store.Decoding
import ModelStore.Proofs.Store.Designs
import ModelStore.Proofs.Store.Documents
import ModelStore.Proofs.Store.Dropping
import ModelStore.Proofs.Store.Gathering
import ModelStore.Proofs.Store.Heeding
import ModelStore.Proofs.Store.Holdings
import ModelStore.Proofs.Store.Identity
import ModelStore.Proofs.Store.Isolation
import ModelStore.Proofs.Store.Keeping
import ModelStore.Proofs.Store.Legibility
import ModelStore.Proofs.Store.Looking
import ModelStore.Proofs.Store.Numbering
import ModelStore.Proofs.Store.Operation
import ModelStore.Proofs.Store.Overlay
import ModelStore.Proofs.Store.Ownership
import ModelStore.Proofs.Store.Paging
import ModelStore.Proofs.Store.Placing
import ModelStore.Proofs.Store.Posting
import ModelStore.Proofs.Store.Projecting
import ModelStore.Proofs.Store.Readback
import ModelStore.Proofs.Store.Removal
import ModelStore.Proofs.Store.Replacing
import ModelStore.Proofs.Store.Reporting
import ModelStore.Proofs.Store.Rereading
import ModelStore.Proofs.Store.Resorting
import ModelStore.Proofs.Store.Restricting
import ModelStore.Proofs.Store.Running
import ModelStore.Proofs.Store.Safety
import ModelStore.Proofs.Store.Sending
import ModelStore.Proofs.Store.Serving
import ModelStore.Proofs.Store.Sessions
import ModelStore.Proofs.Store.Shop
import ModelStore.Proofs.Store.Sparing
import ModelStore.Proofs.Store.Succession
import ModelStore.Proofs.Store.Tracing
import ModelStore.Proofs.Store.Updates
import ModelStore.Proofs.Store.Wholeness
import ModelStore.Proofs.Store.Yielding
import ModelStore.Proofs.Text.Cut
import ModelStore.Proofs.Text.Percent
import ModelStore.Proofs.Url.Resolution
import ModelStore.Proofs.Value.Collation
import ModelStore.Proofs.Value.Keyed
import ModelStore.Selector.Build
import ModelStore.Selector.Fragment
import ModelStore.Selector.Merge
import ModelStore.Selector.Order
import ModelStore.Selector.Path
import ModelStore.Selector.Projection
import ModelStore.Settings
import ModelStore.Settings.Url
import ModelStore.Store.Bulk
import ModelStore.Store.Call
import ModelStore.Store.Criteria
import ModelStore.Store.Exchange
import ModelStore.Store.IdOrder
import ModelStore.Store.Path
import ModelStore.Store.Program
import ModelStore.Store.Query
import ModelStore.Store.Read
import ModelStore.Store.Remove
import ModelStore.Store.Reply
import ModelStore.Store.Save
import ModelStore.Store.Scan
import ModelStore.Store.Script
import ModelStore.Store.Server
import ModelStore.Store.Site
import ModelStore.Store.Write
import ModelStore.Text.Blank
import ModelStore.Text.Case
import ModelStore.Text.Cut
import ModelStore.Text.Digit
import ModelStore.Text.Percent
import ModelStore.Text.Printable
import ModelStore.Text.Quoted
import ModelStore.Url.Address
import ModelStore.Url.Basic
import ModelStore.Url.Fault
import ModelStore.Url.Host
import ModelStore.Url.Label
import ModelStore.Url.Label.Bidi
import ModelStore.Url.Label.Case
import ModelStore.Url.Label.Composition
import ModelStore.Url.Label.Joining
import ModelStore.Url.Label.Letter
import ModelStore.Url.Label.Mark
import ModelStore.Url.Punycode
import ModelStore.Url.Query
import ModelStore.Url.Reference
import ModelStore.Value.Basic
import ModelStore.Value.Equality
import ModelStore.Value.Members
import ModelStore.Value.Plain
import ModelStore.Value.Ranking
import ModelStore.Value.Serial
import ModelStore.Value.Text
import ModelStore.Value.Uuid
