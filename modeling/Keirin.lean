import Keirin.ActivityEdge
import Keirin.CategorySelection
import Keirin.CredentialAdapter
import Keirin.Custody
import Keirin.Dataset
import Keirin.Datetime
import Keirin.Diagnostics
import Keirin.DurableStore
import Keirin.EvaluationProtocol
import Keirin.FileStore
import Keirin.GitHubBridge
import Keirin.HistoricalDetails
import Keirin.HistoricalEntrants
import Keirin.HistoricalForm
import Keirin.HistoricalPayouts
import Keirin.HistoricalPreparation
import Keirin.HistoricalTraining
import Keirin.HostedActivity
import Keirin.HostedCheckpoint
import Keirin.HostedInspector
import Keirin.HostedLink
import Keirin.HostedQueue
import Keirin.HostedRecovery
import Keirin.HostedSystem
import Keirin.HostedWorker
import Keirin.Ledger
import Keirin.Lemmas.CategorySelection
import Keirin.Lemmas.CredentialAdapter
import Keirin.Lemmas.Custody
import Keirin.Lemmas.Diagnostics
import Keirin.Lemmas.DocSame
import Keirin.Lemmas.DurableStore
import Keirin.Lemmas.FileStore
import Keirin.Lemmas.HistoricalDetails
import Keirin.Lemmas.HistoricalEntrants
import Keirin.Lemmas.HistoricalForm
import Keirin.Lemmas.HistoricalPayouts
import Keirin.Lemmas.HistoricalRecords
import Keirin.Lemmas.HistoricalTraining
import Keirin.Lemmas.HostedAnswers
import Keirin.Lemmas.HostedCalls
import Keirin.Lemmas.HostedClients
import Keirin.Lemmas.HostedLink
import Keirin.Lemmas.HostedReplies
import Keirin.Lemmas.HostedSafe
import Keirin.Lemmas.HostedStore
import Keirin.Lemmas.HostedTalk
import Keirin.Lemmas.HostedWorld
import Keirin.Lemmas.Ledger
import Keirin.Lemmas.Model
import Keirin.Lemmas.ModelHistory
import Keirin.Lemmas.OwnedRollback
import Keirin.Lemmas.PayoutOutcomes
import Keirin.Lemmas.PredictEngine
import Keirin.Lemmas.PythonData
import Keirin.Lemmas.PythonEq
import Keirin.Lemmas.Queue
import Keirin.Lemmas.QueueInv
import Keirin.Lemmas.QueuePlanner
import Keirin.Lemmas.QueueSound
import Keirin.Lemmas.RaceDataContract
import Keirin.Lemmas.Refresh
import Keirin.Lemmas.RefreshingProvider
import Keirin.Lemmas.ResultTexts
import Keirin.Lemmas.RunCalls
import Keirin.Lemmas.RunDiscipline
import Keirin.Lemmas.SecretBackend
import Keirin.Lemmas.SecretInv
import Keirin.Lemmas.SecretProcess
import Keirin.Lemmas.SecretStore
import Keirin.Lemmas.SelectionDoc
import Keirin.Lemmas.SelectionSame
import Keirin.Lemmas.SnapshotSame
import Keirin.Lemmas.SyntheticSession
import Keirin.Lemmas.TaskBridge
import Keirin.Lemmas.TaskIdentity
import Keirin.Lemmas.TrainingRows
import Keirin.Lib.Binary64
import Keirin.Lib.Csv
import Keirin.Lib.Dict
import Keirin.Lib.Distinct
import Keirin.Lib.DoubleText
import Keirin.Lib.FileSystem
import Keirin.Lib.Grouped
import Keirin.Lib.Holdout
import Keirin.Lib.Interleave
import Keirin.Lib.JsDoc
import Keirin.Lib.JsMath
import Keirin.Lib.JsOrder
import Keirin.Lib.JsValue
import Keirin.Lib.Json
import Keirin.Lib.JsonAscii
import Keirin.Lib.JsonKeys
import Keirin.Lib.JsonRebuild
import Keirin.Lib.JsonRender
import Keirin.Lib.JsonRoundTrip
import Keirin.Lib.JsonSort
import Keirin.Lib.JsonText
import Keirin.Lib.Jsonb
import Keirin.Lib.Latest
import Keirin.Lib.Layers
import Keirin.Lib.Log
import Keirin.Lib.NumLit
import Keirin.Lib.NumScan
import Keirin.Lib.Paging
import Keirin.Lib.Prog
import Keirin.Lib.Ranking
import Keirin.Lib.Returns
import Keirin.Lib.Rounding
import Keirin.Lib.Sha256
import Keirin.Lib.Simulation
import Keirin.Lib.Sorted
import Keirin.Lib.Text
import Keirin.Lib.TreeHeap
import Keirin.Lib.Triples
import Keirin.Lib.WeakOrder
import Keirin.Model
import Keirin.ModelHistory
import Keirin.OfficialDetail
import Keirin.OfficialResults
import Keirin.OfflinePreview
import Keirin.OwnedPackage
import Keirin.PredictEngine
import Keirin.ProspectiveTools
import Keirin.PublicationDiscipline
import Keirin.Python
import Keirin.PythonData
import Keirin.Queue
import Keirin.QueueEdge
import Keirin.QueuePlanner
import Keirin.RaceDataContract
import Keirin.RefreshingProvider
import Keirin.RunDiscipline
import Keirin.Runner
import Keirin.SecretBackend
import Keirin.SecretPaths
import Keirin.SecretProcess
import Keirin.SecretStore
import Keirin.SyntheticSession
import Keirin.TaskBridge
import Keirin.TaskIdentity
import Keirin.Theorems.AtMostOnce
import Keirin.Theorems.BackendRefinement
import Keirin.Theorems.CategoryStructure
import Keirin.Theorems.CiSoundness
import Keirin.Theorems.Completion
import Keirin.Theorems.CredentialMaterial
import Keirin.Theorems.DetailIntake
import Keirin.Theorems.EvidencePagination
import Keirin.Theorems.ExceptionText
import Keirin.Theorems.Fencing
import Keirin.Theorems.ForbiddenKeys
import Keirin.Theorems.FormBounds
import Keirin.Theorems.FormOrder
import Keirin.Theorems.HistoricalAccounting
import Keirin.Theorems.HistoryReview
import Keirin.Theorems.HistoryTexts
import Keirin.Theorems.LedgerLossless
import Keirin.Theorems.NoLookAhead
import Keirin.Theorems.OddsCoverage
import Keirin.Theorems.OwnedRollback
import Keirin.Theorems.PayoutOutcomes
import Keirin.Theorems.PlannerPrediction
import Keirin.Theorems.PreparationOrder
import Keirin.Theorems.ProviderSafety
import Keirin.Theorems.QueuePlanning
import Keirin.Theorems.ReconciledStep
import Keirin.Theorems.RefreshOnce
import Keirin.Theorems.ReplayClosure
import Keirin.Theorems.ReviewedChange
import Keirin.Theorems.RowInvariants
import Keirin.Theorems.SecretHistory
import Keirin.Theorems.SelectorsAgree
import Keirin.Theorems.SessionSafety
import Keirin.Theorems.SettledHistory
import Keirin.Theorems.SingleFault
import Keirin.Theorems.SplitLaw
import Keirin.Theorems.StrictRecord
import Keirin.Theorems.TaskIdentity
import Keirin.Theorems.TextConservation
import Keirin.Theorems.TrainingOrder
import Keirin.Theorems.TrainingSplit
import Keirin.Theorems.TrifectaTable
import Keirin.Theorems.ValidatedPrediction
import Keirin.Theorems.WriteOutcome
import Keirin.TrainingRows
import Keirin.TrifectaAdapter
import Keirin.Wire
import Keirin.Theorems.HostedCalls
