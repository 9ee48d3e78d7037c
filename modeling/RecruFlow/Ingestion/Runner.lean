import RecruFlow.Connectors.Http
import RecruFlow.Ingestion.FetchRange
import RecruFlow.Ingestion.Persist

/-!
# The pagination loop of all connectors

Fetch a page, ingest its records, stop early. Beside the session a run carries
what the source only has in its loops, or not at all: the records that it has
handed to `ingest_offer`, the number of pages that its last loop has got,
whether one of its fetches has failed, and the failures that it has passed to
`record_failure`, those of invalid offers apart.
-/

namespace RecruFlow.Ingestion

open Connectors Db Dlq

structure IngestionResult where
  ok : Bool
  fetched : Nat
  created : Nat
  errorMessage : Option String := none
  blockedStatus : Option Nat := none
  deriving DecidableEq

structure RunState where
  session : Session
  handed : List Dict := []
  pagesFetched : Nat := 0
  fetchFailed : Bool := false
  recorded : List IngestionFields := []

/-- The local variables of the loop; `turn` counts the records gone through. -/
structure Walk extends RunState where
  totalCreated : Nat := 0
  consecutiveAlreadySeen : Nat := 0
  turn : Nat := 0

def Walk.start (state : RunState) : Walk :=
  { state with }

structure RunnerArgs where
  sourceId : Nat
  sourceName : String
  mapOffer : Nat → Dict → Except PyError Dict
  parseDatetime : PyValue → Option DateTime
  /-- `datetime.now(UTC)` at each turn. -/
  now : Nat → DateTime
  maxPages : Nat
  alreadySeenStopThreshold : Nat
  forceRefresh : Bool
  since : Option DateTime
  limit : Option DateTime
  sortedByRecency : Bool := true

/-- `fetch_page`: the number of the page in this run, and its cursor. -/
abbrev FetchPage (Cursor : Type) := Nat → Cursor → Fetched (List Dict × Option Cursor)

variable (env : IngestEnv) (args : RunnerArgs)

/-- An offer without a date is taken for one of now. -/
def effectiveDate (turn : Nat) (mapped : Dict) : DateTime :=
  (args.parseDatetime (mapped.getD "posted_at" .none)).getD (args.now turn)

/-- `since is not None and effective_date >= since`. -/
def notBeforeSince (date : DateTime) : Except PyError Bool :=
  match args.since with
  | none => .ok false
  | some since => date.ge since

def Walk.lift {α : Type} (w : Walk) (x : Except PyError α) : Except (PyError × Walk) α :=
  x.mapError (·, w)

/-- What an ingested record does to the counters. -/
def Walk.count (w : Walk) : Option (OfferRow × Bool) → Walk
  | none => w
  | some (_, true) => { w with totalCreated := w.totalCreated + 1, consecutiveAlreadySeen := 0 }
  | some (_, false) => { w with consecutiveAlreadySeen := w.consecutiveAlreadySeen + 1 }

/-- One turn of the loop over the records, with whether the record is not older than `since`. -/
def ingestRecord (w : Walk) (raw : Dict) : Except (PyError × Walk) (Bool × Walk) := do
  let mapped ← w.lift (args.mapOffer args.sourceId raw)
  let date := effectiveDate args w.turn mapped
  let recent ← w.lift (notBeforeSince args date)
  let outside ← w.lift (outsideRange args.since args.limit date)
  let w := { w with turn := w.turn + 1 }
  if outside then pure (recent, w)
  else
    let w := { w with handed := w.handed ++ [raw] }
    match ingestOffer env mapped raw w.session with
    | .ok (result, session) => pure (recent, { w with session }.count result)
    | .error (e, session) => throw (e, { w with session })

/-- The loop over the records of a page; `older` is `page_all_older_than_since`. -/
def ingestPage : List Dict → (older : Bool) → Walk → Except (PyError × Walk) (Bool × Walk)
  | [], older, w => pure (older, w)
  | raw :: offers, older, w => do
      let (recent, w) ← ingestRecord env args w raw
      ingestPage offers (older && !recent) w

def pageFailureFields (pageIndex : Nat) (blockedStatus : Option Nat) : IngestionFields where
  dedupKey := "source:" ++ toString args.sourceId
  failureType := .pageFetchFailed
  sourceId := args.sourceId
  errorMessage := "failed to fetch " ++ args.sourceName ++ " page " ++ toString pageIndex
  page := some (some pageIndex)
  blockedStatus := some blockedStatus

def finished (pagesFetched totalFetched : Nat) (w : Walk) : IngestionResult × Walk :=
  (⟨true, totalFetched, w.totalCreated, none, none⟩, { w with pagesFetched })

/-- A first page that fails is fatal, a later one is recorded. -/
def pageFailure (pageIndex totalFetched : Nat) (blockedStatus : Option Nat) (w : Walk) :
    IngestionResult × Walk :=
  let w := { w with fetchFailed := true, pagesFetched := pageIndex }
  if pageIndex = 0 then
    ({ ok := false
       fetched := 0
       created := 0
       errorMessage := some ("failed to fetch " ++ args.sourceName ++ " offers")
       blockedStatus }, w)
  else
    let fields := pageFailureFields args pageIndex blockedStatus
    (⟨true, totalFetched, w.totalCreated, none, none⟩,
      { w with
        session := recordFailure env.postgres env.startedAt fields w.session
        recorded := w.recorded ++ [fields] })

/-- Whether to stop after a page, other than for want of a cursor. -/
def stopsAfter (offers : List Dict) (older : Bool) (w : Walk) : Bool :=
  (args.since.isSome && !offers.isEmpty && older) ||
    (!args.forceRefresh && args.alreadySeenStopThreshold ≤ w.consecutiveAlreadySeen)

/-- The loop over the pages: `pages` of them may still be fetched. -/
def paginate {Cursor : Type} (fetchPage : FetchPage Cursor) :
    (pages pageIndex : Nat) → Cursor → (totalFetched : Nat) → Walk →
      Except (PyError × Walk) (IngestionResult × Walk)
  | 0, pageIndex, _, totalFetched, w => pure (finished pageIndex totalFetched w)
  | pages + 1, pageIndex, cursor, totalFetched, w =>
      match fetchPage pageIndex cursor with
      | .blocked statusCode => pure (pageFailure env args pageIndex totalFetched statusCode w)
      | .failed => pure (pageFailure env args pageIndex totalFetched none w)
      | .got (offers, next) => do
          let totalFetched := totalFetched + offers.length
          let older := args.sortedByRecency && args.since.isSome && !offers.isEmpty
          let (older, w) ← ingestPage env args offers older w
          match next with
          | none => pure (finished (pageIndex + 1) totalFetched w)
          | some cursor =>
              if stopsAfter args offers older w then
                pure (finished (pageIndex + 1) totalFetched w)
              else paginate fetchPage pages (pageIndex + 1) cursor totalFetched w

def runPaginatedIngestion {Cursor : Type} (fetchPage : FetchPage Cursor) (initialCursor : Cursor)
    (state : RunState) : Except (PyError × RunState) (IngestionResult × RunState) :=
  match paginate env args fetchPage args.maxPages 0 initialCursor 0 (.start state) with
  | .ok (result, w) => .ok (result, w.toRunState)
  | .error (e, w) => .error (e, w.toRunState)

end RecruFlow.Ingestion
