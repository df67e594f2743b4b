import Bpmn.Main
import Bpmn.Document.Shown
import Bpmn.Mapping.Extension
import Bpmn.Resolution.Listing
import Bpmn.Text.Hex
import Bpmn.Proofs.Resolution.Frame
import Bpmn.Proofs.Runs
import Bpmn.Proofs.Mapping.Yield
import Bpmn.Proofs.Mapping.Walks
import Bpmn.Proofs.Mapping.Accounting
import Bpmn.Proofs.Mapping.Calls
import Bpmn.Proofs.Number.Digits
import Bpmn.Proofs.Number.Rounding
import Bpmn.Proofs.Json.Grammar
import Bpmn.Proofs.Json.Numbers
import Bpmn.Proofs.Fields
import Bpmn.Proofs.Json.Sound
import Bpmn.Proofs.Json.Written
import Bpmn.Proofs.Json.Strings
import Bpmn.Proofs.Json.Complete
import Bpmn.Proofs.Json.RoundTrip
import Bpmn.Proofs.Json.Printed
import Bpmn.Proofs.Json.Limits
import Bpmn.Proofs.Model.Checks
import Bpmn.Proofs.Model.Modes
import Bpmn.Proofs.Model.Orderly
import Bpmn.Proofs.Model.Written
import Bpmn.Proofs.Model.Reread
import Bpmn.Proofs.Document.Layers
import Bpmn.Proofs.Model.Accepted
import Bpmn.Proofs.Document.Copies
import Bpmn.Proofs.Mapping.Orderly
import Bpmn.Proofs.Resolution.Bound
import Bpmn.Proofs.Resolution.RoundTrip
import Bpmn.Proofs.Model.Listed
import Bpmn.Proofs.Mapping.Origins
import Bpmn.Proofs.Mapping.Pairing
import Bpmn.Proofs.Resolution.Sites
import Bpmn.Proofs.Resolution.Services
import Bpmn.Proofs.Resolution.Declared
import Bpmn.Proofs.Document.Trees
import Bpmn.Proofs.Mapping.Nesting
import Bpmn.Proofs.Beside
import Bpmn.Proofs.Mapping.References
import Bpmn.Proofs.Mapping.Tables
import Bpmn.Proofs.Mapping.PlainLinks
import Bpmn.Proofs.Document.Unfolding
import Bpmn.Proofs.Document.Clean
import Bpmn.Proofs.Document.Mirrors
import Bpmn.Proofs.Mapping.Definitions
import Bpmn.Proofs.Mapping.Mirrors
import Bpmn.Proofs.Command.Folders
import Bpmn.Proofs.Mapping.Sharing
import Bpmn.Proofs.Model.Shedding
import Bpmn.Proofs.Document.Forgetting
import Bpmn.Proofs.Mapping.Forgetting
import Bpmn.Proofs.Mapping.Nameless
import Bpmn.Proofs.Command.Summaries
import Bpmn.Proofs.Mapping.Standing
import Bpmn.Proofs.Mapping.Queries
import Bpmn.Proofs.Mapping.Endpoints
import Bpmn.Proofs.Mapping.DataObjects
import Bpmn.Proofs.Mapping.Edges
import Bpmn.Proofs.Resolution.Texts
import Bpmn.Proofs.Observe.Reports
import Bpmn.Proofs.Observe.Attending
import Bpmn.Proofs.Observe.Sessions
import Bpmn.Proofs.Observe.Totals
import Bpmn.Proofs.Observe.Accounts
import Bpmn.Proofs.Observe.FailedStarts
import Bpmn.Proofs.Mapping.Lookups
import Bpmn.Proofs.Mapping.Reversal
import Bpmn.Proofs.Mapping.Elements
import Bpmn.Proofs.Document.Keys
import Bpmn.Proofs.Text.Integers
import Bpmn.Proofs.Settings
