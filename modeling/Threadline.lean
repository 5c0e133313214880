import Threadline.Canonicalize
import Threadline.CanonicalSpec
import Threadline.Completeness
import Threadline.ReconcileData
import Threadline.Reconcile
import Threadline.ReconcileRun
import Threadline.PyExcept
import Threadline.ReconcileLookup
import Threadline.TransactionRules
import Threadline.ContradictedEvidence
import Threadline.PayoutRules
import Threadline.PayoutCoverage
import Threadline.AffectedWindows
import Threadline.ImpactReach
import Threadline.WindowRows
import Threadline.WindowSoundness
import Threadline.ReplayLedger
import Threadline.RecoveryFingerprint
import Threadline.ConflictEvidence
import Threadline.StableEvidence
import Threadline.LiveEvidence
import Threadline.DuplicateSafety
import Threadline.ArrivalOrder
import Threadline.Publication
import Threadline.ResultDocument
import Threadline.PublishableResults
import Threadline.RecoveryQueue
import Threadline.QueueLifecycle
import Threadline.ResultRows
import Threadline.RecoveryWorker
import Threadline.PublicationRuns
import Threadline.PublishedPoint
import Threadline.Database
import Threadline.DurableCompleteness
import Threadline.RecoveryRebuild
import Threadline.ResolvedEntities
import Threadline.IngestedRows
import Threadline.DatabaseRuns
import Threadline.ResolutionRefinement
import Threadline.RecoveryBehavior
import Threadline.LogicalForm
import Threadline.StoredPublications
import Threadline.RetainedDeliveries
import Threadline.StoredEvidence
import Threadline.ExactlyOnce
import Threadline.CompletenessRuns
import Threadline.Archival
import Threadline.ArchiveSafety
import Threadline.ArchiveRuns
import Threadline.ArchivedCopies
import Threadline.SourceFiles
import Threadline.DeliveryProtocol
import Threadline.KeyedLists
import Threadline.UnmergedExceptions
import Threadline.EncodableDocuments
import Threadline.RowContract
import Threadline.RowEvidence
import Threadline.ResultColumns
import Threadline.ImpactPlan
import Threadline.Conservation
import Threadline.DecimalMoney
import Threadline.PayloadIdentity
import Threadline.MoneyText
import Threadline.ReportEvidence
import Threadline.PyTimeZone
import Threadline.BusinessDays
import Threadline.LateData
import Threadline.CompletenessGates
import Threadline.RowCodes
import Threadline.HalfOpen
import Threadline.DateCompression
import Threadline.EvaluationCutoff
import Threadline.LockTable
import Threadline.EntityLocks
import Threadline.LockedTransactions
import Threadline.PyUtf8
import Threadline.PyJsonReader
import Threadline.StrictJson
import Threadline.NamedFiles
import Threadline.PublicationFiles
import Threadline.PublicationStore
import Threadline.EventIngest
import Threadline.EventRuns
import Threadline.EventRounds
import Threadline.IngestionLedger
import Threadline.LedgerSeparation
import Threadline.RecordedDeliveries
import Threadline.LedgerRuns
import Threadline.FailedDeliveries
import Threadline.DeliveredRecords
import Threadline.RunLabels
import Threadline.ReplayedDeliveries
import Threadline.PublishedReplays
import Threadline.RecoveryDrain
import Threadline.LateDecisions
import Threadline.InputFingerprint
