import Leasehold.Log.Filter
import Leasehold.Main
import Leasehold.Store.Tampering
import Leasehold.Proofs.Aggregation.Crew
import Leasehold.Proofs.Counter.Holdings
import Leasehold.Proofs.Counter.Conservation
import Leasehold.Proofs.Lease.Ledger
import Leasehold.Proofs.Lease.Calls
import Leasehold.Proofs.Hook.Serial
import Leasehold.Proofs.Lease.Exclusion
import Leasehold.Proofs.Aggregation.Turns
import Leasehold.Proofs.Time.Readings
import Leasehold.Proofs.Aggregation.Steps
import Leasehold.Proofs.Aggregation.Tour
import Leasehold.Proofs.Aggregation.Words
import Leasehold.Proofs.Aggregation.Visiting
import Leasehold.Proofs.Aggregation.CaughtUp
import Leasehold.Proofs.Aggregation.Interference
import Leasehold.Proofs.Lease.Agreement
import Leasehold.Proofs.Counter.Overflow
import Leasehold.Proofs.Hook.History
import Leasehold.Proofs.Aggregation.Modes
import Leasehold.Proofs.Aggregation.Queue
import Leasehold.Proofs.World.Parties
import Leasehold.Proofs.World.Views
import Leasehold.Proofs.Lease.Sight
import Leasehold.Proofs.Lease.Attempts
import Leasehold.Proofs.Lease.Tenure
import Leasehold.Proofs.Counter.Names
import Leasehold.Proofs.Counter.Independence
import Leasehold.Proofs.Hook.Pacing
import Leasehold.Proofs.Aggregation.Forward
import Leasehold.Proofs.Aggregation.Exclusive
import Leasehold.Proofs.Hook.LastFailure
import Leasehold.Proofs.Lease.Lifetime
import Leasehold.Proofs.Cli.BreakingOff
import Leasehold.Proofs.Aggregation.Meaning
import Leasehold.Proofs.Aggregation.Ahead
import Leasehold.Proofs.Lease.Scoped
import Leasehold.Proofs.Hook.Outcomes
import Leasehold.Proofs.Counter.Flushing
import Leasehold.Proofs.Json.Numerals
import Leasehold.Proofs.Json.Reading
import Leasehold.Proofs.Store.Statistics
import Leasehold.Proofs.Store.Times
import Leasehold.Proofs.Store.RoundTrip
import Leasehold.Proofs.Lease.Purging
import Leasehold.Proofs.Text.Digits
import Leasehold.Proofs.Text.Lexing
import Leasehold.Proofs.Toml.Strings
import Leasehold.Proofs.Toml.Cutting
import Leasehold.Proofs.Toml.Reading
import Leasehold.Proofs.Files.Writing
import Leasehold.Proofs.Settings.RoundTrip
import Leasehold.Proofs.Aggregation.Recording
import Leasehold.Proofs.Aggregation.Accounting
import Leasehold.Proofs.Aggregation.LastTen
import Leasehold.Proofs.Store.Paging
import Leasehold.Proofs.Files.Directories
import Leasehold.Proofs.Project.Setup
