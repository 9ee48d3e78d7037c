import RecruFlow.Connectors.Base
import RecruFlow.Connectors.PracujListing

/-!
# The run of the Pracuj.pl connector

The listing is enumerated first, once or once for each term. Then the records
that it gave are replayed through the pagination loop, page by page.
-/

namespace RecruFlow.Connectors

open Db Dlq Ingestion

/-- The configuration of a run. -/
structure PracujConfig where
  since : Option DateTime
  limit : Option DateTime
  categoryFilter : String
  limits : Limits
  startPage : Nat

variable (env : RunEnv)

def readPracujConfig (config : Dict) : Except PyError PracujConfig := do
  let (since, limit) := resolveFetchRange env.parseDatetime (config.get "fetch_range")
  let filter := config.getD "category_filter" .none
  let categoryFilter := if filter.truthy then env.text.str filter else "it"
  let limits ← readLimits env config 10 5
  let stored := config.getD "listing_page_cursor" (.int 1)
  let cursor ← (if stored.truthy then stored else .int 1).toInt env.parseInt
  pure ⟨since, limit, categoryFilter, limits, if cursor < 1 then 1 else cursor.toNat⟩

/-- What `_enumerate_pracuj_offers` returns, with the blocked detail urls. -/
structure PracujOffers where
  offers : List Dict := []
  enumerationOk : Bool := false
  midRunFailure : Bool := false
  nextStartPage : Option Nat := none
  listingBlockedStatus : Option Nat := none
  blocked : List (PyValue × Nat) := []
  /-- Whether a listing page could not be fetched. -/
  listingFailed : Bool := false

/-- A call of `_collect_offers` ends at the first listing page that fails: the
call has failed with its first page, or in the middle of the run. -/
def Enumeration.listingFailed (e : Enumeration) : Bool :=
  !e.enumerationOk || e.midRunFailure

/-- What a term adds to the terms before it. -/
def PracujOffers.merge (merged : PracujOffers) (e : Enumeration) : PracujOffers where
  offers := merged.offers ++ e.collected.records
  enumerationOk := merged.enumerationOk || e.enumerationOk
  midRunFailure := merged.midRunFailure || e.midRunFailure
  nextStartPage := none
  listingBlockedStatus := e.listingBlockedStatus.or merged.listingBlockedStatus
  blocked := merged.blocked ++ e.collected.blocked
  listingFailed := merged.listingFailed || e.listingFailed

section Enumerate

-- the site as each term, with its number, finds it
variable (site : Nat → String → PracujSite) (limits : Limits)

def enumerateTerms : List String → (number : Nat) → PracujOffers → Except PyError PracujOffers
  | [], _, merged => pure merged
  | term :: terms, number, merged => do
      let e ← collectOffers (site number term) 1 limits.pageSize limits.maxPages
      enumerateTerms terms (number + 1) (merged.merge e)

def enumeratePracujOffers (filteredTerms : List String) (categoryFilter : String)
    (startPage : Nat) : Except PyError PracujOffers :=
  if filteredTerms.isEmpty then do
    let e ← collectOffers (site 0 categoryFilter) startPage limits.pageSize limits.maxPages
    pure
      { offers := e.collected.records
        enumerationOk := e.enumerationOk
        midRunFailure := e.midRunFailure
        nextStartPage := some e.nextStartPage
        listingBlockedStatus := e.listingBlockedStatus
        blocked := e.collected.blocked
        listingFailed := e.listingFailed }
  else enumerateTerms site limits filteredTerms 0 {}

end Enumerate

/-- The `fetch_page` of the replay. -/
def replayPage (offers : List Dict) (pageSize : Nat) : FetchPage Nat := fun _ cursor =>
  .got ((offers.drop cursor).take pageSize,
    if cursor + pageSize < offers.length then some (cursor + pageSize) else none)

structure PracujConnector where
  name : String := "Pracuj.pl"
  mapOffer : Nat → Dict → Except PyError Dict
  site : Nat → String → PracujSite

namespace PracujConnector

variable (conn : PracujConnector) (source : Source) (forceRefresh : Bool)

def runnerArgs (config : PracujConfig) : RunnerArgs where
  sourceId := source.id
  sourceName := conn.name
  mapOffer := conn.mapOffer
  parseDatetime := env.parseDatetime
  now := env.now 0
  maxPages := config.limits.maxPages
  alreadySeenStopThreshold := config.limits.alreadySeenStopThreshold
  forceRefresh := forceRefresh
  since := config.since
  limit := config.limit
  sortedByRecency := false

def replay (config : PracujConfig) (offers : List Dict) (state : RunState) : RunOutcome :=
  runPaginatedIngestion env.toIngestEnv (conn.runnerArgs env source forceRefresh config)
    (replayPage offers config.limits.pageSize) 0 state

def midRunFields (blockedStatus : Option Nat) : IngestionFields where
  dedupKey := "source:" ++ toString source.id
  failureType := .pageFetchFailed
  sourceId := source.id
  errorMessage := "failed to fetch " ++ conn.name ++ " page mid-run"
  blockedStatus := some blockedStatus

/-- The session at the start of the replay. -/
def recordMidRun (e : PracujOffers) (state : RunState) : RunState :=
  if e.midRunFailure then record env (conn.midRunFields source e.listingBlockedStatus) state
  else state

/-- The loop over the blocked detail pages; `url.encode()` needs a text. -/
def recordBlockedUrls : List (PyValue × Nat) → RunState → Except (PyError × RunState) RunState
  | [], state => .ok state
  | (.str url, statusCode) :: blocked, state =>
      recordBlockedUrls blocked
        (record env (blockedFields env source.id conn.name url statusCode) state)
  | _ :: _, state => .error (.attributeError, state)

/-- After the replay: the blocked detail pages, and the cursor of an unfiltered run. -/
def afterReplay (terms : List String) (e : PracujOffers) (state : RunState) :
    Except (PyError × RunState) RunState := do
  let state ← conn.recordBlockedUrls env source e.blocked state
  if terms.isEmpty then
    let cursor : PyValue := (e.nextStartPage.map fun page : Nat => PyValue.int page).getD .none
    writeConfig source.id (source.configJson.set "listing_page_cursor" cursor) state
  else pure state

/-- What a run does with an enumeration. -/
def runEnumerated (config : PracujConfig) (terms : List String) (e : PracujOffers)
    (state : RunState) : RunOutcome :=
  let state := { state with fetchFailed := state.fetchFailed || e.listingFailed }
  if e.enumerationOk then do
    let state := conn.recordMidRun env source e state
    let (result, state) ← conn.replay env source forceRefresh config e.offers state
    let state ← conn.afterReplay env source terms e state
    pure (result, state)
  else
    pure (failedResult ("failed to fetch " ++ conn.name ++ " offers") e.listingBlockedStatus, state)

def run (state : RunState) : RunOutcome := do
  let config ← lift state (readPracujConfig env source.configJson)
  let scope ← liftSession state (resolveFetchScopeTerms source.configJson state.session)
  match scope.blockedReason with
  | some reason => pure (failedResult reason none, state)
  | none =>
      let e ← lift state
        (enumeratePracujOffers conn.site config.limits scope.terms config.categoryFilter
          config.startPage)
      conn.runEnumerated env source forceRefresh config scope.terms e state

end PracujConnector

end RecruFlow.Connectors
