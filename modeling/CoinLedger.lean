import CoinLedger.Command
import CoinLedger.Database.Adapter
import CoinLedger.Database.Ledger
import CoinLedger.Fixture
import CoinLedger.Http.App
import CoinLedger.Http.Backend
import CoinLedger.Http.Description
import CoinLedger.Identity.Client
import CoinLedger.Interleaving
import CoinLedger.Layering.CommandLine
import CoinLedger.Layering.Grammar.File
import CoinLedger.Layering.ModuleTree
import CoinLedger.Main
import CoinLedger.RowLocks
import CoinLedger.Settings
import CoinLedger.Totals
import CoinLedger.Proofs.Ledger.Changes
import CoinLedger.Proofs.Ledger.Reconciliation
import CoinLedger.Proofs.Concurrency.LockOrder
import CoinLedger.Proofs.Http.Truth
import CoinLedger.Proofs.Concurrency.Provisioning
import CoinLedger.Proofs.Concurrency.Serializability
import CoinLedger.Proofs.Http.Programs
import CoinLedger.Proofs.Http.Serializability
import CoinLedger.Proofs.Database.Refinement
import CoinLedger.Proofs.Database.Overflow
import CoinLedger.Proofs.Concurrency.AccountView
import CoinLedger.Proofs.Http.Statuses
import CoinLedger.Proofs.Ledger.WellFormed
import CoinLedger.Proofs.Ledger.Spending
import CoinLedger.Proofs.Http.Redaction
import CoinLedger.Proofs.Http.Gate
import CoinLedger.Proofs.Http.Independence
import CoinLedger.Proofs.Http.Recipients
import CoinLedger.Proofs.Http.Lossless
import CoinLedger.Proofs.Http.Trace
import CoinLedger.Proofs.Ledger.Sending
import CoinLedger.Proofs.Ledger.Buying
import CoinLedger.Proofs.Identity.Lookup
import CoinLedger.Proofs.Layering.Coverage
import CoinLedger.Proofs.Ledger.Deadlines
import CoinLedger.Proofs.Ledger.Gathering
import CoinLedger.Proofs.Ledger.Batches
import CoinLedger.Proofs.Ledger.Distrust
import CoinLedger.Proofs.Database.Coordination
import CoinLedger.Proofs.Database.Histories
import CoinLedger.Proofs.Database.Corruption
import CoinLedger.Proofs.Identity.Orders
import CoinLedger.Proofs.Http.CallerGrammar
import CoinLedger.Proofs.Identity.Entries
import CoinLedger.Proofs.Layering.TestCode
import CoinLedger.Proofs.Layering.Termination
import CoinLedger.Proofs.Layering.Resolution
import CoinLedger.Proofs.Layering.Listing
import CoinLedger.Proofs.Layering.InPlace
import CoinLedger.Proofs.Layering.Conventional
import CoinLedger.Proofs.Layering.Grouping
import CoinLedger.Proofs.Identity.Preview
