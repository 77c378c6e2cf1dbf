import TenantTables.Lock.Session
import TenantTables.Main
import TenantTables.Proofs.Lock.Safety
import TenantTables.Proofs.Operation.Concurrent
import TenantTables.Proofs.Operation.ReadBack
import TenantTables.Proofs.Record.Unique
import TenantTables.Storage.Interleaving
import TenantTables.Proofs.Operation.Labels
import TenantTables.Proofs.Operation.Schema
import TenantTables.Proofs.Number.Quotient
import TenantTables.Proofs.Storage.Filter
import TenantTables.Proofs.Query.Order
import TenantTables.Proofs.Query.Page
import TenantTables.Proofs.Calendar.Iso
import TenantTables.Proofs.Record.Check
import TenantTables.Proofs.Record.Data
import TenantTables.Proofs.Operation.Conform
import TenantTables.Proofs.Operation.Failure
import TenantTables.Proofs.Schema.Relation
import TenantTables.Proofs.Formula.Lexeme
import TenantTables.Proofs.Formula.Grammar
import TenantTables.Proofs.Storage.Without
import TenantTables.Proofs.Operation.Activity
import TenantTables.Proofs.Record.Tombstone
import TenantTables.Proofs.Text.Digit
import TenantTables.Proofs.Text.Space
import TenantTables.Proofs.Formula.Printing
import TenantTables.Proofs.Transfer.Csv
import TenantTables.Proofs.Transfer.Sheet
import TenantTables.Proofs.Transfer.Export
import TenantTables.Proofs.Number.Decimal
import TenantTables.Proofs.Transfer.Cell
import TenantTables.Proofs.Operation.Insert
import TenantTables.Proofs.Transfer.Import
import TenantTables.Proofs.Operation.Upkeep
import TenantTables.Proofs.Transfer.Restore
import TenantTables.Proofs.Record.Keys
import TenantTables.Proofs.Operation.Retention
import TenantTables.Proofs.Storage.Live
import TenantTables.Proofs.Operation.Tally
import TenantTables.Proofs.Operation.Isolation
import TenantTables.Proofs.Schema.Name
import TenantTables.Proofs.Record.Denote
import TenantTables.Proofs.Record.Rules
import TenantTables.Proofs.Formula.Evaluation
import TenantTables.Proofs.Record.Computed
import TenantTables.Proofs.Record.Overlay
import TenantTables.Proofs.Identifier
import TenantTables.Proofs.Calendar.Exchange
import TenantTables.Proofs.Document.Compact
import TenantTables.Proofs.Schema.Exchange
import TenantTables.Proofs.Record.Exchange
import TenantTables.Proofs.Document.Halt
import TenantTables.Proofs.Operation.Settle
import TenantTables.Proofs.Query.Settle
import TenantTables.Proofs.Record.Supplied
import TenantTables.Proofs.Operation.Supplied
import TenantTables.Proofs.Query.Stable
import TenantTables.Proofs.Transfer.Account
import TenantTables.Proofs.Record.Settle
import TenantTables.Proofs.Transfer.Settle
import TenantTables.Proofs.Storage.Instant
import TenantTables.Proofs.Value.Exact
import TenantTables.Proofs.Identifier.Spelling
import TenantTables.Proofs.Schema.Update
import TenantTables.Proofs.Operation.Update
