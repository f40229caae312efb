import Ledger.Service.ReserveRuns
import Ledger.Service.AccumulatedVolume
import Ledger.Service.RepairSoundness
import Ledger.Postgres.PeriodBarrier
import Ledger.Postgres.SnapshotRuns
import Ledger.Server.WebhookReplays
import Ledger.Service.TamperDetection
import Ledger.Service.VerifyInterleavings
import Ledger.Postgres.PostingReplay
import Ledger.Postgres.ReversalReplay
import Ledger.Service.PolicyRuns
import Ledger.Postgres.LockOrder
import Ledger.Service.DepositReview
import Ledger.Service.RegistrationHandover
import Ledger.Service.SweepProgress
import Ledger.Postgres.StoredJournals
import Ledger.Core.Mismatches
import Ledger.Service.HolderSigns
import Ledger.Service.ReconcileLaps
import Ledger.Postgres.ReserveReplay
import Ledger.Service.LifecycleCycles
