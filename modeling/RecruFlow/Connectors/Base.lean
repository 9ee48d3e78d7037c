import RecruFlow.Ingestion.FetchScope
import RecruFlow.Ingestion.PageWalk

/-!
# The run of a cursor-paginated connector

One pass over the pages, or one for each term of a filtered fetch scope. What
the site answers, and what a connector makes of it, are parameters.
-/

namespace RecruFlow.Connectors

open Db Dlq Ingestion

/-- What surrounds a run. -/
structure RunEnv extends IngestEnv where
  /-- The text of an integer literal. -/
  parseInt : String → Option Int
  parseDatetime : PyValue → Option DateTime
  /-- `datetime.now(UTC)`: the number of the pass, and the turn in it. -/
  now : Nat → Nat → DateTime

/-- Surroundings for concrete runs, with no clock and no numbers in texts. -/
def acmeRunEnv : RunEnv :=
  { acmeEnv with
    parseInt := fun _ => none
    parseDatetime := fun _ => none
    now := fun _ _ => ⟨0, true⟩ }

/-- The numbers of the configuration that bound a run. -/
structure Limits where
  pageSize : Nat
  maxPages : Nat
  alreadySeenStopThreshold : Nat
  deriving DecidableEq

variable (env : RunEnv)

/-- `int(config.get(name, default))`, for numbers that are not negative. -/
def readNat (config : Dict) (name : String) (default : Nat) : Except PyError Nat := do
  let i ← (config.getD name (.int default)).toInt env.parseInt
  pure i.toNat

def readLimits (config : Dict) (pageSize maxPages : Nat) : Except PyError Limits := do
  let pageSize ← readNat env config "page_size" pageSize
  let maxPages ← readNat env config "max_pages" maxPages
  let threshold ← readNat env config "already_seen_stop_threshold" 20
  pure ⟨pageSize, maxPages, threshold⟩

/-- A run: its result, or the exception that stopped it. -/
abbrev RunOutcome := Except (PyError × RunState) (IngestionResult × RunState)

def lift {α : Type} (state : RunState) (x : Except PyError α) : Except (PyError × RunState) α :=
  x.mapError (·, state)

/-- A computation in the session of a run. -/
def liftSession {α : Type} (state : RunState) (x : Except Raised α) :
    Except (PyError × RunState) α :=
  x.mapError fun (e, session) => (e, { state with session })

/-- `source.config_json = ...` -/
def writeConfig (sourceId : Nat) (configJson : Dict) (state : RunState) :
    Except (PyError × RunState) RunState := do
  let session ← liftSession state (state.session.write (updateConfig sourceId configJson))
  pure { state with session }

def record (fields : IngestionFields) (state : RunState) : RunState :=
  { state with
    session := recordFailure env.postgres env.startedAt fields state.session
    recorded := state.recorded ++ [fields] }

def buildDetailUrlDedupKey (sourceId : Nat) (url : String) : String :=
  "source:" ++ toString sourceId ++ ":detail_url:" ++ env.text.sha256 url

def blockedFields (sourceId : Nat) (name url : String) (statusCode : Nat) : IngestionFields where
  dedupKey := buildDetailUrlDedupKey env sourceId url
  failureType := .detailFetchBlocked
  sourceId := sourceId
  errorMessage := name ++ " detail fetch blocked: HTTP " ++ toString statusCode
  url := some (some url)
  blockedStatus := some (some statusCode)

/-- The loop over the blocked detail pages of a run. -/
def recordBlocked (sourceId : Nat) (name : String) (blocked : List (String × Nat))
    (state : RunState) : RunState :=
  blocked.foldl (fun state b => record env (blockedFields env sourceId name b.1 b.2) state) state

/-- A run that cannot start. -/
def failedResult (errorMessage : String) (blockedStatus : Option Nat) : IngestionResult :=
  ⟨false, 0, 0, some errorMessage, blockedStatus⟩

/-- The passes of a filtered run, one for each term. They stop at one that fails. -/
def runTerms (pass : Nat → String → RunState → RunOutcome) :
    List String → (number fetched created : Nat) → RunState → RunOutcome
  | [], _, fetched, created, state => pure (⟨true, fetched, created, none, none⟩, state)
  | term :: terms, number, fetched, created, state => do
      let (result, state) ← pass number term state
      let fetched := fetched + result.fetched
      let created := created + result.created
      if result.ok then runTerms pass terms (number + 1) fetched created state
      else pure (⟨false, fetched, created, result.errorMessage, result.blockedStatus⟩, state)

structure JobBoardConnector (Cursor : Type) where
  name : String
  /-- `0` -/
  initialCursor : Cursor
  mapOffer : Nat → Dict → Except PyError Dict
  supportsFetchScope : Bool
  applyFetchScopeTerm : Dict → String → Dict
  runnerKwargs : Dict → Limits → Except PyError Limits
  /-- `fetch_page`, with the number of the pass, the configuration and the page size. -/
  fetchPage : Nat → Dict → Nat → FetchPage Cursor

/-- The `fetch_page` that the base class fixes, over the answers of the site. -/
def templateFetchPage {Cursor : Type} (fetchJson : Nat → Cursor → Fetched PyValue)
    (extractOffers : PyValue → Option (List Dict))
    (nextCursor : PyValue → List Dict → Cursor → Option Cursor) : FetchPage Cursor :=
  fun pageIndex cursor =>
    match fetchJson pageIndex cursor with
    | .blocked statusCode => .blocked statusCode
    | .failed => .failed
    | .got payload =>
        match extractOffers payload with
        | none => .failed
        | some offers => .got (offers, nextCursor payload offers cursor)

namespace JobBoardConnector

variable {Cursor : Type} (conn : JobBoardConnector Cursor) (source : Source)
  (forceRefresh : Bool)

/-- The arguments of a pass of the pagination loop. -/
def runnerArgs (limits : Limits) (pass : Nat) : RunnerArgs :=
  let (since, limit) := resolveFetchRange env.parseDatetime (source.configJson.get "fetch_range")
  { sourceId := source.id
    sourceName := conn.name
    mapOffer := conn.mapOffer
    parseDatetime := env.parseDatetime
    now := env.now pass
    maxPages := limits.maxPages
    alreadySeenStopThreshold := limits.alreadySeenStopThreshold
    forceRefresh, since, limit }

/-- One pass of the pagination loop. -/
def runPass (limits : Limits) (config : Dict) (pass : Nat) (state : RunState) : RunOutcome :=
  runPaginatedIngestion env.toIngestEnv (conn.runnerArgs env source forceRefresh limits pass)
    (conn.fetchPage pass config limits.pageSize) conn.initialCursor state

/-- The pass of a filtered run for a term. Its blocked status is not passed on. -/
def termPass (limits : Limits) (pass : Nat) (term : String) (state : RunState) : RunOutcome := do
  let config := conn.applyFetchScopeTerm source.configJson term
  let (result, state) ← conn.runPass env source forceRefresh limits config pass state
  pure ({ result with blockedStatus := none }, state)

def run (state : RunState) : RunOutcome := do
  let config := source.configJson
  let limits ← lift state (readLimits env config 100 100)
  let limits ← lift state (conn.runnerKwargs config limits)
  if conn.supportsFetchScope then
    let resolution ← liftSession state (resolveFetchScopeTerms config state.session)
    match resolution.blockedReason, resolution.mode with
    | some reason, _ => pure (failedResult reason none, state)
    | none, .filtered =>
        runTerms (conn.termPass env source forceRefresh limits) resolution.terms 0 0 0 state
    | none, .all => conn.runPass env source forceRefresh limits config 0 state
  else conn.runPass env source forceRefresh limits config 0 state

end JobBoardConnector

/-- We Work Remotely has one page, and no fetch scope. -/
def runWeWorkRemotelyIngestion (feed : Fetched (List Dict))
    (mapOffer : Nat → Dict → Except PyError Dict) (source : Source) (forceRefresh : Bool)
    (state : RunState) : RunOutcome := do
  let config := source.configJson
  let threshold ← lift state (readNat env config "already_seen_stop_threshold" 20)
  let conn : JobBoardConnector Unit :=
    { name := "We Work Remotely"
      initialCursor := ()
      mapOffer
      supportsFetchScope := false
      applyFetchScopeTerm := fun config _ => config
      runnerKwargs := fun _ limits => pure limits
      fetchPage := fun _ _ _ _ _ =>
        match feed with
        | .blocked statusCode => .blocked statusCode
        | .failed => .failed
        | .got offers => .got (offers, none) }
  conn.runPass env source forceRefresh ⟨1, 1, threshold⟩ config 0 state

end RecruFlow.Connectors
