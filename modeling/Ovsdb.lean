import Ovsdb.Address
import Ovsdb.Condition
import Ovsdb.Decimal.Notation
import Ovsdb.Decimal.Scaled
import Ovsdb.Decimal.Shortest
import Ovsdb.Dict
import Ovsdb.Error
import Ovsdb.Framing.Reader
import Ovsdb.Framing.Scanner
import Ovsdb.Id
import Ovsdb.Json
import Ovsdb.Json.Decode
import Ovsdb.Json.Reader
import Ovsdb.Json.Text
import Ovsdb.Message
import Ovsdb.Monitor
import Ovsdb.Notification
import Ovsdb.Operation
import Ovsdb.Proofs.Address
import Ovsdb.Proofs.Cardinality
import Ovsdb.Proofs.Condition
import Ovsdb.Proofs.Decimal.Nearest
import Ovsdb.Proofs.Framing.Agreement
import Ovsdb.Proofs.Framing.Malformed
import Ovsdb.Proofs.Framing.Reading
import Ovsdb.Proofs.Framing.Scanning
import Ovsdb.Proofs.Framing.Stream
import Ovsdb.Proofs.Framing.Texts
import Ovsdb.Proofs.Framing.Written
import Ovsdb.Proofs.Json.Alike
import Ovsdb.Proofs.Json.Decode
import Ovsdb.Proofs.Json.Edits
import Ovsdb.Proofs.Json.Literals
import Ovsdb.Proofs.Json.Members
import Ovsdb.Proofs.Json.Nesting
import Ovsdb.Proofs.Json.ReadBack
import Ovsdb.Proofs.Message
import Ovsdb.Proofs.Monitor
import Ovsdb.Proofs.Operation.Distinct
import Ovsdb.Proofs.Operation.Validation
import Ovsdb.Proofs.Schema
import Ovsdb.Proofs.SchemaEdits
import Ovsdb.Proofs.Sequence
import Ovsdb.Proofs.Session.Actions
import Ovsdb.Proofs.Session.Cache
import Ovsdb.Proofs.Session.Calls
import Ovsdb.Proofs.Session.Changes
import Ovsdb.Proofs.Session.Client
import Ovsdb.Proofs.Session.Closing
import Ovsdb.Proofs.Session.Errand
import Ovsdb.Proofs.Session.Fate
import Ovsdb.Proofs.Session.History
import Ovsdb.Proofs.Session.Idle
import Ovsdb.Proofs.Session.Incidents
import Ovsdb.Proofs.Session.Inquiry
import Ovsdb.Proofs.Session.Ledger
import Ovsdb.Proofs.Session.Orderly
import Ovsdb.Proofs.Session.Throughout
import Ovsdb.Proofs.Session.Outflow
import Ovsdb.Proofs.Session.Outlet
import Ovsdb.Proofs.Session.Pursuit
import Ovsdb.Proofs.Session.Replies
import Ovsdb.Proofs.Session.Room
import Ovsdb.Proofs.Session.Routing
import Ovsdb.Proofs.Session.Steps
import Ovsdb.Proofs.Session.Trail
import Ovsdb.Proofs.Session.Transactions
import Ovsdb.Proofs.Session.Wakening
import Ovsdb.Proofs.Text.Digits
import Ovsdb.Proofs.Transaction
import Ovsdb.Proofs.Value.Basic
import Ovsdb.Proofs.Value.Canonical
import Ovsdb.Proofs.Value.Equality
import Ovsdb.Proofs.Value.Grammar
import Ovsdb.Proofs.Value.Maps
import Ovsdb.Proofs.Value.RoundTrip
import Ovsdb.Proofs.Value.Sets
import Ovsdb.Proofs.Version
import Ovsdb.Schema
import Ovsdb.Session.Call
import Ovsdb.Session.Client
import Ovsdb.Session.Ledger
import Ovsdb.Session.Report
import Ovsdb.Session.Schedule
import Ovsdb.Session.State
import Ovsdb.Text.Digits
import Ovsdb.Text.Located
import Ovsdb.Text.Quoted
import Ovsdb.Text.Visible
import Ovsdb.Transaction
import Ovsdb.Uuid
import Ovsdb.Value
import Ovsdb.Value.Map
import Ovsdb.Value.Set
import Ovsdb.Version
