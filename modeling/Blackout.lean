import Blackout.Calendar.Zone.Posix
import Blackout.Main
import Blackout.Program.Daemon
import Blackout.Program.Validation
import Blackout.Proofs.NextEnd
import Blackout.Service
import Blackout.Proofs.Resolution
import Blackout.Proofs.NextInstant
import Blackout.Proofs.Queue
import Blackout.Proofs.Run
import Blackout.Proofs.Withholding
import Blackout.Proofs.Ledger
import Blackout.Proofs.Acceptance
import Blackout.Proofs.History
import Blackout.Proofs.Episodes
import Blackout.Proofs.Refusal
import Blackout.Proofs.Pending
import Blackout.Proofs.Advance
import Blackout.Proofs.Splitting
import Blackout.Proofs.Listing
import Blackout.Proofs.Independence
import Blackout.Proofs.UntilEnd
import Blackout.Proofs.Interior
import Blackout.Proofs.Report
import Blackout.Proofs.Duplicates
import Blackout.Proofs.FailedBatch
import Blackout.Proofs.Counting
import Blackout.Proofs.WrittenTimes
import Blackout.Proofs.JsonValue
import Blackout.Proofs.JsonText
import Blackout.Proofs.JsonRecord
import Blackout.Proofs.PlainText
import Blackout.Proofs.WireLine
import Blackout.Proofs.FiniteNumber
import Blackout.Proofs.RuleSetWriting
import Blackout.Proofs.MonthDays
import Blackout.Proofs.Era
