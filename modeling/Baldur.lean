import Baldur.CircuitBreaker.Adapters
import Baldur.CircuitBreaker.FastPath
import Baldur.CircuitBreaker.OperatorBlock
import Baldur.CircuitBreaker.EvidencePeriod
import Baldur.CircuitBreaker.AdmissionTiming
import Baldur.CircuitBreaker.MirrorCoalescing
import Baldur.CircuitBreaker.SharedRow
import Baldur.CircuitBreaker.DriftConvergence
import Baldur.Dlq.RedisRaces
import Baldur.Dlq.Eviction
import Baldur.Dlq.EntryIds
import Baldur.Work.Settlement
import Baldur.Idempotency.GateWindows
import Baldur.Storage.DegradedAnswers
import Baldur.Wal.DrainRuns
import Baldur.RateLimit.AllClear
import Baldur.Bulkhead.WakeUps
import Baldur.Dlq.SecretMasking
import Baldur.Wal.RecordBytes
import Baldur.Dlq.LaneFills
import Baldur.Storage.ReplayFailures
import Baldur.Shutdown.StopSignals
import Baldur.Audit.GlobalAnchors
import Baldur.Resilience.HedgeDelay
import Baldur.DlqOutbox.FlushWait
import Baldur.RateLimit.CanaryMarks
import Baldur.RateLimit.CooldownGate
import Baldur.RateLimit.TokenBucket
import Baldur.CircuitBreaker.ExtendOverride
import Baldur.RateLimit.WindowLimiter
import Baldur.CircuitBreaker.PinStamps
import Baldur.CircuitBreaker.ConfigSwap
import Baldur.CellTopology.Evacuation
