import RecruFlow.Connectors.Base
import RecruFlow.Connectors.Sitemap

/-!
# The run of a sitemap connector

The urls of the sitemap, or of the listing that is filtered by a term, then the
detail page of each url. A failed detail page is left out.
-/

namespace RecruFlow.Connectors

open Db Dlq Ingestion

/-- The urls that `fetch_sitemap_urls` comes to. -/
structure SitemapUrls where
  urls : Fetched (List String)
  /-- Whether one of the sitemaps could not be fetched. -/
  failed : Bool

structure SitemapDetailPageConnector where
  name : String
  mapOffer : Nat → Dict → Except PyError Dict
  supportsFetchScope : Bool
  fetchSitemapUrls : Dict → SitemapUrls
  /-- For the pass with the number, by the term. -/
  fetchFilteredSitemapUrls : Nat → Dict → String → Fetched (List String)
  /-- The detail page at an index of the urls of a pass, fetched and parsed. -/
  fetchDetail : Nat → Nat → String → Fetched Dict

section Sitemaps

variable (fetchText : String → Fetched String) (parseSitemapLocs : String → String → List String)

/-- The loop of Rocket Jobs over its sub-sitemaps. One that cannot be fetched
is passed over, unless the fetch was blocked. -/
def rocketSubSitemaps : List String → (allUrls : List String) → (failed : Bool) → SitemapUrls
  | [], allUrls, failed => ⟨if allUrls.isEmpty then .failed else .got allUrls, failed⟩
  | subUrl :: subUrls, allUrls, failed =>
      match fetchText subUrl with
      | .blocked statusCode => ⟨.blocked statusCode, true⟩
      | .failed => rocketSubSitemaps subUrls allUrls true
      | .got subXml =>
          let urls := (parseSitemapLocs subXml "url").foldl
            (fun urls url => if url ∈ urls then urls else urls ++ [url]) allUrls
          rocketSubSitemaps subUrls urls failed

def rocketFetchSitemapUrls (indexUrl : String) : SitemapUrls :=
  match fetchText indexUrl with
  | .blocked statusCode => ⟨.blocked statusCode, true⟩
  | .failed => ⟨.failed, true⟩
  | .got xmlText =>
      let urls := parseSitemapLocs xmlText "url"
      if urls.isEmpty then
        let subUrls := parseSitemapLocs xmlText "sitemap"
        if subUrls.isEmpty then ⟨.failed, false⟩
        else rocketSubSitemaps fetchText parseSitemapLocs subUrls [] false
      else ⟨.got urls, false⟩

/-- Bulldogjob has one sitemap of jobs behind its index; `isJobs` is `"jobs" in url`
and `isJobUrl` the pattern of a posting. -/
def bulldogFetchSitemapUrls (isJobs isJobUrl : String → Bool) (indexUrl : String) : SitemapUrls :=
  match fetchText indexUrl with
  | .blocked statusCode => ⟨.blocked statusCode, true⟩
  | .failed => ⟨.failed, true⟩
  | .got indexXml =>
      match parseSitemapLocs indexXml "sitemap" with
      | [] => ⟨.failed, false⟩
      | subUrl :: subUrls =>
          match fetchText (((subUrl :: subUrls).find? isJobs).getD subUrl) with
          | .blocked statusCode => ⟨.blocked statusCode, true⟩
          | .failed => ⟨.failed, true⟩
          | .got jobsXml => ⟨.got ((parseSitemapLocs jobsXml "url").filter isJobUrl), false⟩

end Sitemaps

namespace SitemapDetailPageConnector

variable (env : RunEnv) (conn : SitemapDetailPageConnector) (source : Source)
  (forceRefresh : Bool)

/-- The detail pages of the urls from `first` on, in order. -/
def fetchDetails (pass first : Nat) (urls : List String) : List (String × Fetched Dict) :=
  (urls.zipIdx first).map fun (url, i) => (url, conn.fetchDetail pass i url)

def parsedDetails (details : List (String × Fetched Dict)) : List Dict :=
  details.filterMap fun
    | (_, .got parsed) => some parsed
    | _ => none

def blockedDetails (details : List (String × Fetched Dict)) : List (String × Nat) :=
  details.filterMap fun
    | (url, .blocked statusCode) => some (url, statusCode)
    | _ => none

def nextCursor (urlCount pageSize cursor : Nat) : Option Nat :=
  if cursor + pageSize < urlCount then some (cursor + pageSize) else none

/-- The `fetch_page` of a run over urls. -/
def fetchPage (urls : List String) (pageSize pass : Nat) : FetchPage Nat := fun _ cursor =>
  let chunk := (urls.drop cursor).take pageSize
  if chunk.isEmpty then .got ([], none)
  else .got (parsedDetails (conn.fetchDetails pass cursor chunk),
    nextCursor urls.length pageSize cursor)

/-- `last_cursor` after the pages that a run has got. -/
def lastCursor (urls : List String) (pageSize initialCursor : Nat) : (pages : Nat) → Option Nat
  | 0 => some initialCursor
  | pages + 1 =>
      let cursor := initialCursor + pages * pageSize
      if ((urls.drop cursor).take pageSize).isEmpty then none
      else nextCursor urls.length pageSize cursor

def runnerArgs (limits : Limits) (pass : Nat) : RunnerArgs :=
  let (since, limit) := resolveFetchRange env.parseDatetime (source.configJson.get "fetch_range")
  { sourceId := source.id
    sourceName := conn.name
    mapOffer := conn.mapOffer
    parseDatetime := env.parseDatetime
    now := env.now pass
    maxPages := limits.maxPages
    alreadySeenStopThreshold := limits.alreadySeenStopThreshold
    forceRefresh, since, limit
    sortedByRecency := false }

/-- The pagination loop of a pass over urls. -/
def runLoop (limits : Limits) (urls : List String) (initialCursor pass : Nat) (state : RunState) :
    RunOutcome :=
  runPaginatedIngestion env.toIngestEnv (conn.runnerArgs env source forceRefresh limits pass)
    (conn.fetchPage urls limits.pageSize pass) initialCursor state

/-- `_run_over_urls` -/
def runOverUrls (urls : List String) (persistCursor : Bool) (pass : Nat) (state : RunState) :
    RunOutcome := do
  let config := source.configJson
  let limits ← lift state (readLimits env config 20 50)
  let initialCursor ← lift state (resolveSitemapCursor env.parseInt config urls.length)
  let (result, state) ←
    conn.runLoop env source forceRefresh limits urls initialCursor pass state
  let fetched := (urls.drop initialCursor).take (state.pagesFetched * limits.pageSize)
  let blocked := blockedDetails (conn.fetchDetails pass initialCursor fetched)
  let state := recordBlocked env source.id conn.name blocked state
  if persistCursor then
    let cursor := lastCursor urls limits.pageSize initialCursor state.pagesFetched
    let config := config.set "sitemap_cursor" (.int (nextSitemapCursor cursor))
    let state ← writeConfig source.id config state
    pure (result, state)
  else pure (result, state)

/-- A run whose listing or sitemap could not be fetched. -/
def listingFailed (errorMessage : String) (blockedStatus : Option Nat) (state : RunState) :
    IngestionResult × RunState :=
  (failedResult errorMessage blockedStatus, { state with fetchFailed := true })

/-- The pass of a filtered run for a term. -/
def termPass (pass : Nat) (term : String) (state : RunState) : RunOutcome :=
  let errorMessage :=
    "failed to fetch " ++ conn.name ++ " offers filtered by " ++ env.text.repr term
  match conn.fetchFilteredSitemapUrls pass source.configJson term with
  | .blocked statusCode => pure (listingFailed errorMessage (some statusCode) state)
  | .failed => pure (listingFailed errorMessage none state)
  | .got urls => do
      let (result, state) ← conn.runOverUrls env source forceRefresh urls false pass state
      pure ({ result with blockedStatus := none }, state)

/-- A run over the urls of the sitemap. -/
def runAll (state : RunState) : RunOutcome :=
  let errorMessage := "failed to fetch " ++ conn.name ++ " offers"
  let sitemap := conn.fetchSitemapUrls source.configJson
  let state := { state with fetchFailed := state.fetchFailed || sitemap.failed }
  match sitemap.urls with
  | .blocked statusCode => pure (failedResult errorMessage (some statusCode), state)
  | .failed => pure (failedResult errorMessage none, state)
  | .got urls => conn.runOverUrls env source forceRefresh urls true 0 state

def run (state : RunState) : RunOutcome :=
  if conn.supportsFetchScope then do
    let resolution ←
      liftSession state (resolveFetchScopeTerms source.configJson state.session)
    match resolution.blockedReason, resolution.mode with
    | some reason, _ => pure (failedResult reason none, state)
    | none, .filtered => runTerms (conn.termPass env source forceRefresh) resolution.terms 0 0 0 state
    | none, .all => conn.runAll env source forceRefresh state
  else conn.runAll env source forceRefresh state

variable {env conn source forceRefresh}

theorem run_unfiltered {state : RunState} (hall : conn.supportsFetchScope = true →
    resolveFetchScopeMode (source.configJson.get "fetch_scope") = .all) :
    conn.run env source forceRefresh state = conn.runAll env source forceRefresh state := by
  unfold run
  split
  · next hsupports =>
    rw [resolveFetchScopeTerms, hall hsupports]
    rfl
  · rfl

end SitemapDetailPageConnector

end RecruFlow.Connectors
