import RecruFlow.Lib.ReadModifyWrite
import RecruFlow.Connectors.Sitemap
import RecruFlow.Scheduler.Settings
import RecruFlow.Scheduler.ConfigRaces
import RecruFlow.Lib.KeyedStore
import RecruFlow.Python.Text
import RecruFlow.Scheduler.Jobs
import RecruFlow.Scheduler.Routes
import RecruFlow.Scheduler.LiveSchedule
import RecruFlow.Db.ProfileRepo
import RecruFlow.Dlq.Service
import RecruFlow.Ingestion.FetchRange
import RecruFlow.Scoring.Batch
import RecruFlow.Scoring.ScoreFreshness
import RecruFlow.Scoring.Overlap
import RecruFlow.Connectors.ListingResume
import RecruFlow.Ingestion.Dedup
import RecruFlow.Ingestion.Persist
import RecruFlow.Dlq.Isolation
import RecruFlow.Ingestion.Runner
import RecruFlow.Ingestion.PageWalk
import RecruFlow.Ingestion.FetchScope
import RecruFlow.Connectors.Base
import RecruFlow.Connectors.Pracuj
import RecruFlow.Connectors.SitemapDetail
import RecruFlow.Connectors.PracujReplay
import RecruFlow.Ingestion.Lifecycle
import RecruFlow.Ingestion.DeadLetters
import RecruFlow.Ingestion.SilentFailures
import RecruFlow.Ingestion.RunInvariant
import RecruFlow.Connectors.SitemapWalk
import RecruFlow.Connectors.SitemapCycle
import RecruFlow.Connectors.FilteredSitemap
import RecruFlow.Ingestion.OfferStore
import RecruFlow.Db.Columns
import RecruFlow.Ingestion.RecordFate
import RecruFlow.Scoring.Selection
import RecruFlow.Scoring.Backlog
import RecruFlow.Scoring.EditRaces
import RecruFlow.Scheduler.SourceRuns
import RecruFlow.Ingestion.Trigger
import RecruFlow.Dlq.Retry
import RecruFlow.Dlq.RetryFetch
import RecruFlow.Dlq.RetryBatch
import RecruFlow.Lib.RowLocks
import RecruFlow.Dlq.RetryDeadlock
import RecruFlow.Lib.CatchUp
import RecruFlow.Ingestion.SeenOffers
import RecruFlow.Connectors.TermCoverage
import RecruFlow.Connectors.FeedHistory
import RecruFlow.Dlq.RetryFrame
import RecruFlow.Scheduler.Work
import RecruFlow.Scheduler.StoppedConnector
import RecruFlow.Dlq.StoredRange
import RecruFlow.Dlq.LatestFailure
import RecruFlow.Dlq.History
import RecruFlow.Dlq.RetryBudget
import RecruFlow.Dlq.Consistency
import RecruFlow.Dlq.ScoringRetry
import RecruFlow.Dlq.RetryRepeat
import RecruFlow.Offers.Routes
import RecruFlow.Offers.Decisions
import RecruFlow.Offers.Cleanup
import RecruFlow.Lib.ReadCommitted
import RecruFlow.Offers.DeleteRaces
import RecruFlow.Db.ActivationRaces
import RecruFlow.Lib.Regex
import RecruFlow.Lib.Phrases
import RecruFlow.Llm.Matcher
import RecruFlow.Llm.PhraseMatches
import RecruFlow.Llm.ScoreCaps
import RecruFlow.Scheduler.FetchRangeUpdate
import RecruFlow.Lib.Joined
import RecruFlow.Ingestion.DedupKey
import RecruFlow.Ingestion.Normalize
import RecruFlow.Connectors.ApiMappings
import RecruFlow.Connectors.PageMappings
import RecruFlow.Connectors.WeWorkRemotely
import RecruFlow.Connectors.MapOffer
import RecruFlow.Ingestion.StorableOffers
import RecruFlow.Ingestion.UndatedRecords
import RecruFlow.Ingestion.OlderPageStop
import RecruFlow.Connectors.ProxyRotation
import RecruFlow.Cv.TextExtraction
import RecruFlow.Cv.ColumnText
import RecruFlow.Cv.ColumnBoundaries
import RecruFlow.Lib.Grouping
import RecruFlow.Lib.Clusters
import RecruFlow.Dlq.ListFailures
import RecruFlow.Offers.ListOffers
import RecruFlow.Lib.Paging
import RecruFlow.Scheduler.BootSchedules
import RecruFlow.Ingestion.SingleTerm
import RecruFlow.Scoring.RangeAgreement
import RecruFlow.Dlq.LateIngestion
import RecruFlow.Lib.Lockstep
import RecruFlow.Ingestion.RunsAlike
import RecruFlow.Ingestion.RunCounts
import RecruFlow.Ingestion.Transparency
import RecruFlow.Lib.Interleaving
import RecruFlow.Connectors.ProxyPool
import RecruFlow.Connectors.Fingerprint
import RecruFlow.Connectors.JsonLd
import RecruFlow.Frontend.UseOffers
import RecruFlow.Lib.Calendar
import RecruFlow.Frontend.ConnectorSettingsDraft
import RecruFlow.Lib.Trim
import RecruFlow.Schemas.ProfileModel
import RecruFlow.Frontend.ProfileValidation
import RecruFlow.Python.UrlParse
import RecruFlow.Ingestion.CanonicalUrl
import RecruFlow.Ingestion.ValidationFailureKey
import RecruFlow.Schemas.ReadBack
import RecruFlow.Scoring.StoredInputs
import RecruFlow.Lib.Broadcast
import RecruFlow.Scoring.ScoreEvents
import RecruFlow.Scheduler.Boot
import RecruFlow.Scheduler.RunHistory
import RecruFlow.Scoring.Progress
import RecruFlow.Lib.LastWrite
import RecruFlow.Scheduler.SettingsHistory
import RecruFlow.Lib.Counting
import RecruFlow.Llm.CvExtraction
import RecruFlow.Offers.ConnectorCounts
import RecruFlow.Scoring.BatchCounts
import RecruFlow.Lib.Calls
import RecruFlow.Frontend.UseOfferScoreDetail
import RecruFlow.Frontend.ProfileEditor
import RecruFlow.Frontend.EditorSaves
import RecruFlow.Frontend.EditorShows
import RecruFlow.Frontend.OfferCleanup
import RecruFlow.Lib.Newest
import RecruFlow.Offers.ScoreMigrations
