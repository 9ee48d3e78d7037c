import RecruFlow.Connectors.Pracuj
import RecruFlow.Connectors.SitemapDetail
import RecruFlow.Ingestion.Registry

/-!
# The lifecycle of a run

Resolve the source, run its connector, record a failed result, commit. The
audit row of a scheduled run is not modelled.
-/

namespace RecruFlow.Ingestion

open Connectors Db Dlq Lib.Transaction

/-- A connector of the registry, with what its site answers in this run. -/
inductive ConnectorRun where
  | cursor (conn : JobBoardConnector Int)
  | sitemap (conn : SitemapDetailPageConnector)
  | pracuj (conn : PracujConnector)
  | weWorkRemotely (feed : Fetched (List Dict)) (mapOffer : Nat → Dict → Except PyError Dict)

def ConnectorRun.run (env : RunEnv) (source : Source) (forceRefresh : Bool) (state : RunState) :
    ConnectorRun → RunOutcome
  | cursor conn => conn.run env source forceRefresh state
  | sitemap conn => conn.run env source forceRefresh state
  | pracuj conn => conn.run env source forceRefresh state
  | weWorkRemotely feed mapOffer =>
      runWeWorkRemotelyIngestion env feed mapOffer source forceRefresh state

/-- `CONNECTOR_REGISTRY`, by what each entry dispatches to. -/
structure Registry where
  solidJobs : JobBoardConnector Int
  justjoinit : JobBoardConnector Int
  nofluffjobs : JobBoardConnector Int
  bulldogjob : SitemapDetailPageConnector
  rocketJobs : SitemapDetailPageConnector
  pracuj : PracujConnector
  remoteok : JobBoardConnector Int
  remotive : JobBoardConnector Int
  weWorkRemotelyFeed : Fetched (List Dict)
  weWorkRemotelyMapOffer : Nat → Dict → Except PyError Dict

def Registry.lookup (registry : Registry) : String → Option ConnectorRun
  | "solid_jobs" => some (.cursor registry.solidJobs)
  | "justjoinit" => some (.cursor registry.justjoinit)
  | "nofluffjobs" => some (.cursor registry.nofluffjobs)
  | "bulldogjob" => some (.sitemap registry.bulldogjob)
  | "rocket_jobs" => some (.sitemap registry.rocketJobs)
  | "pracuj" => some (.pracuj registry.pracuj)
  | "remoteok" => some (.cursor registry.remoteok)
  | "remotive" => some (.cursor registry.remotive)
  | "we_work_remotely" =>
      some (.weWorkRemotely registry.weWorkRemotelyFeed registry.weWorkRemotelyMapOffer)
  | _ => none

/-- What the callers of `run_with_lifecycle` differ in. -/
structure Caller where
  /-- The id of the audit row of a scheduled run. -/
  schedulerRunId : Option Nat
  /-- `on_error` of a scheduled run commits, that of a manual run rolls back. -/
  commitsOnError : Bool
  forceRefresh : Bool

/-- Every registered connector has an entry. -/
theorem lookup_isSome (registry : Registry) (spec : ConnectorSpec)
    (h : spec ∈ connectorRegistry) : (registry.lookup spec.name).isSome = true := by
  simp only [connectorRegistry, List.mem_cons, List.not_mem_nil, or_false] at h
  rcases h with rfl | rfl | rfl | rfl | rfl | rfl | rfl | rfl | rfl <;> rfl

variable (env : RunEnv) (caller : Caller)

def runFetchFields (source : Source) (result : IngestionResult) : IngestionFields where
  dedupKey := "source:" ++ toString source.id
  failureType := .runFetchFailed
  sourceId := source.id
  errorMessage := (result.errorMessage.filter (· ≠ "")).getD "ingestion failed"
  schedulerRunId := caller.schedulerRunId.map some
  blockedStatus := result.blockedStatus.map some

def recordRunFetchFailure (source : Source) (result : IngestionResult) (state : RunState) :
    RunState :=
  if result.ok then state else record env (runFetchFields caller source result) state

/-- `source.last_fetched_at = datetime.now(UTC)` -/
def stampFetched (sourceId : Nat) (now : Int) (db : Database) : Attempt Database :=
  .done { db with
    sources := db.sources.map fun source =>
      if source.id = sourceId then { source with lastFetchedAt := some now } else source }

/-- A run that did not raise, and the database after its commit. -/
structure RunReport where
  source : Source
  result : IngestionResult
  state : RunState
  db : Database

/-- From the result of the connector on: `on_success` and the commit. -/
def finishRun (now : Int) (source : Source) (result : IngestionResult) (state : RunState) :
    Except Raised RunReport := do
  let session ←
    if result.ok then state.session.write (stampFetched source.id now) else pure state.session
  let state := recordRunFetchFailure env caller source result { state with session }
  pure ⟨source, result, state, commit state.session⟩

/-- `run_with_lifecycle`; an exception comes with the database that it leaves. -/
def runWithLifecycle (registry : Registry) (now : Int) (connector : String) (db : Database) :
    Except (PyError × Database) RunReport := do
  let source ← (resolveSourceByConnector db.sources connector).mapError (·, db)
  if (source.configJson.getD "connector_enabled" (.bool true)).truthy then
    match registry.lookup connector with
    | none => .error (.keyError, db)
    | some run =>
        match run.run env source caller.forceRefresh { session := .opened db } with
        | .error (e, state) =>
            .error (e, if caller.commitsOnError then commit state.session else db)
        | .ok (result, state) => (finishRun env caller now source result state).mapError (·.1, db)
  else .error (.connectorDisabled, db)

theorem finishRun_source {env : RunEnv} {caller : Caller} {now : Int} {source : Source}
    {result : IngestionResult} {state : RunState} {report : RunReport}
    (h : finishRun env caller now source result state = .ok report) : report.source = source := by
  unfold finishRun at h
  split at h
  all_goals
    obtain ⟨session, _, hend⟩ := bind_ok h
    rw [← Except.ok.inj hend]

/-- A run that did not raise, taken apart. -/
theorem runWithLifecycle_ok {env : RunEnv} {caller : Caller} {registry : Registry} {now : Int}
    {connector : String} {db : Database} {report : RunReport}
    (h : runWithLifecycle env caller registry now connector db = .ok report) :
    ∃ source run result state, resolveSourceByConnector db.sources connector = .ok source ∧
      registry.lookup connector = some run ∧
      run.run env source caller.forceRefresh { session := .opened db } = .ok (result, state) ∧
      finishRun env caller now source result state = .ok report := by
  obtain ⟨source, hsource, h⟩ := bind_ok h
  have hsource' : resolveSourceByConnector db.sources connector = .ok source := by
    cases hx : resolveSourceByConnector db.sources connector with
    | error e =>
        rw [hx] at hsource
        cases hsource
    | ok found =>
        rw [hx] at hsource
        exact congrArg Except.ok (Except.ok.inj hsource)
  split at h
  · split at h
    · cases h
    · next run hlookup =>
      split at h
      · cases h
      · next result state hdispatch =>
        refine ⟨source, run, result, state, hsource', hlookup, hdispatch, ?_⟩
        cases hx : finishRun env caller now source result state with
        | error raised =>
            rw [hx] at h
            cases h
        | ok report' =>
            rw [hx] at h
            exact congrArg Except.ok (Except.ok.inj h)
  · cases h

/-! ## Connectors that find nothing, for concrete runs -/

def quietBoard : JobBoardConnector Int :=
  { name := "quiet"
    initialCursor := 0
    mapOffer := fun _ raw => .ok raw
    supportsFetchScope := false
    applyFetchScopeTerm := fun config _ => config
    runnerKwargs := fun _ limits => pure limits
    fetchPage := fun _ _ _ _ _ => .got ([], none) }

def quietSitemap : SitemapDetailPageConnector :=
  { name := "quiet"
    mapOffer := fun _ raw => .ok raw
    supportsFetchScope := true
    fetchSitemapUrls := fun _ => ⟨.got [], false⟩
    fetchFilteredSitemapUrls := fun _ _ _ => .got []
    fetchDetail := fun _ _ _ => .failed }

def quietPracuj : PracujConnector :=
  { mapOffer := fun _ raw => .ok raw
    site := fun _ _ => { listingPage := fun _ => .got [], detail := fun _ _ => .failed } }

def quietRegistry : Registry :=
  { solidJobs := quietBoard
    justjoinit := quietBoard
    nofluffjobs := quietBoard
    bulldogjob := quietSitemap
    rocketJobs := { quietSitemap with supportsFetchScope := false }
    pracuj := quietPracuj
    remoteok := quietBoard
    remotive := quietBoard
    weWorkRemotelyFeed := .got []
    weWorkRemotelyMapOffer := fun _ raw => .ok raw }

def manualCaller : Caller := ⟨none, false, false⟩

end RecruFlow.Ingestion
