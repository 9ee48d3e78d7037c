import RecruFlow.Ingestion.Trigger

/-!
# Retrying a dead letter

A retry works on a row that its session has loaded. A fetch failure triggers an
ingestion in a session of its own, which may write the same row; a retry that has
already sent an `UPDATE` of the row holds its lock until it commits.
-/

namespace RecruFlow.Dlq

open Connectors Db Ingestion Lib.Transaction Schemas

/-- A row in the session: its attributes, and what they were when the row was
last read or written. -/
structure Tracked where
  loaded : IngestionFailure
  row : IngestionFailure

namespace Tracked

def ofStored (row : IngestionFailure) : Tracked := ⟨row, row⟩

/-- A column in an `UPDATE` that sets the attributes which have changed. -/
def column {α : Type} [DecidableEq α] (loaded row stored : α) : α :=
  if row = loaded then stored else row

/-- The columns that a retry changes. -/
def store (t : Tracked) (stored : IngestionFailure) : IngestionFailure :=
  { stored with
    errorMessage := column t.loaded.errorMessage t.row.errorMessage stored.errorMessage
    status := column t.loaded.status t.row.status stored.status
    occurredAt := column t.loaded.occurredAt t.row.occurredAt stored.occurredAt
    resolvedAt := column t.loaded.resolvedAt t.row.resolvedAt stored.resolvedAt
    retryCount := column t.loaded.retryCount t.row.retryCount stored.retryCount }

def storeIn (t : Tracked) (db : Database) : Database :=
  { db with
    ingestionFailures := db.ingestionFailures.map fun stored =>
      if stored.dedupKey = t.loaded.dedupKey then t.store stored else stored }

/-- What the unit of work sends ahead of a query or a commit. -/
def flush (postgres : Postgres) (t : Tracked) (s : Session) : Except Raised (Tracked × Session) :=
  if t.row = t.loaded then pure (t, s)
  else do
    let s ← s.write fun db => (postgres.ingestionFailure t.row db).insert (t.storeIn db)
    pure ({ t with loaded := t.row }, s)

/-- `session.refresh(row)` -/
def refresh (t : Tracked) (s : Session) : Except Raised (Tracked × Session) := do
  match ← s.select fun db => db.ingestionFailures.find? (·.dedupKey = t.loaded.dedupKey) with
  | some stored => pure (.ofStored stored, s)
  | none => .error (.database, s)

@[simp] theorem ofStored_loaded (row : IngestionFailure) : (ofStored row).loaded = row := rfl

@[simp] theorem ofStored_row (row : IngestionFailure) : (ofStored row).row = row := rfl

def markStillFailing (now : Int) (errorMessage : String) (t : Tracked) : Tracked :=
  { t with row := { t.row with errorMessage, occurredAt := now } }

def markResolved (now : Int) (t : Tracked) : Tracked :=
  { t with row := { t.row with status := .resolved, resolvedAt := some now } }

@[simp] theorem markResolved_loaded (now : Int) (t : Tracked) :
    (t.markResolved now).loaded = t.loaded := rfl

end Tracked

/-- Why a retry does not come to its commit. -/
inductive Halt where
  | raised (e : PyError)
  /-- It waits for an ingestion that waits for the lock on its row. -/
  | waiting
  deriving DecidableEq

/-- The outcome of a step of a retry, or where it halts. -/
abbrev Retrying (α : Type) := Except (Halt × Session) α

def raising {α : Type} (x : Except Raised α) : Retrying α :=
  x.mapError fun raised => (.raised raised.1, raised.2)

/-- What surrounds a retry. -/
structure RetryEnv extends RunEnv where
  registry : Registry
  /-- The detail page of a posting of a connector, fetched and parsed. -/
  detail : String → String → Except PyError (Option Dict)
  /-- `datetime.now(UTC)` where a triggered ingestion stamps its source. -/
  fetchedAt : Int
  /-- `datetime.now(UTC)` of the retry. -/
  retriedAt : Int

/-- The `detail_retry` of the registry, by what it maps an offer with. -/
def detailRetry (registry : Registry) : String → Option (Nat → Dict → Except PyError Dict)
  | "bulldogjob" => some registry.bulldogjob.mapOffer
  | "rocket_jobs" => some registry.rocketJobs.mapOffer
  | "pracuj" => some registry.pracuj.mapOffer
  | _ => none

variable (env : RetryEnv) (t : Tracked) (s : Session)

/-- What a handler returns: whether the retry succeeded, and what it leaves. -/
abbrev Handled := Bool × Tracked × Session

def retryValidationFailed : Except Raised Handled :=
  match t.row.rawPayload with
  | none =>
      pure (false, t.markStillFailing env.retriedAt "cannot retry: no raw payload stored", s)
  | some rawPayload =>
      match Offer.modelValidate env.pydantic rawPayload with
      | none => pure (false, t.markStillFailing env.retriedAt (env.validationError rawPayload), s)
      | some offer => do
          let (t, s) ← t.flush env.postgres s
          let (_, s) ← persistOffer env.toIngestEnv offer rawPayload s
          pure (true, t, s)

/-- `session.get(Source, row.source_id)` and its assertion. The changes of the row
are flushed ahead of the query. -/
def getSource : Except Raised ((Source × String) × Tracked × Session) := do
  let (t, s) ← t.flush env.postgres s
  match ← s.select fun db => db.sources.find? fun source => (source.id : Int) = t.row.sourceId with
  | none => .error (.assertionError, s)
  | some source =>
      match source.connector with
      | none => .error (.assertionError, s)
      | some connector => pure ((source, connector), t, s)

def retryFetchFailed : Retrying Handled := do
  let ((_, connector), t', s) ← raising (getSource env t s)
  let triggered := triggerIngest env.toRunEnv env.registry env.fetchedAt connector s.committed
  -- an `UPDATE` that was sent has locked the row
  if t.row ≠ t.loaded ∧ triggered.writes env.toRunEnv t.row.dedupKey then .error (.waiting, s)
  else
    let s := { s with committed := triggered.db, working := t.storeIn triggered.db }
    match triggered.ending with
    | .error e => .error (.raised e, s)
    | .ok ok => pure (ok, t', s)

/-- The `retry_detail_fetch` of a connector. -/
def retryDetailFetch (fetched : Except PyError (Option Dict))
    (mapOffer : Nat → Dict → Except PyError Dict) (source : Source) :
    Except Raised (Bool × Session) := do
  match ← s.lift fetched with
  | none => pure (false, s)
  | some parsed =>
      let mapped ← s.lift (mapOffer source.id parsed)
      match ← normalizeAndValidate env.toIngestEnv mapped s with
      | (none, s) => pure (false, s)
      | (some offer, s) =>
          let (_, s) ← persistOffer env.toIngestEnv offer parsed s
          pure (true, s)

def retryDetailFetchBlocked : Except Raised Handled := do
  let ((source, connector), t, s) ← getSource env t s
  match t.row.url with
  | none => pure (false, t.markStillFailing env.retriedAt "cannot retry: no url stored", s)
  | some url =>
      match findConnector connector with
      | none => .error (.keyError, s)
      | some _ =>
          match detailRetry env.registry connector with
          | none => .error (.assertionError, s)
          | some mapOffer =>
              match retryDetailFetch env s (env.detail connector url) mapOffer source with
              | .ok (retried, s) => pure (retried, t, s)
              | .error (.blockedFetch statusCode, s) =>
                  pure (false, t.markStillFailing env.retriedAt
                    ("still blocked: HTTP " ++ toString statusCode), s)
              | .error raised => .error raised

/-- `RETRY_HANDLERS`, for a row of `ingestion_failures`. -/
def retryHandler : FailureType → Retrying Handled
  | .validationFailed => raising (retryValidationFailed env t s)
  | .pageFetchFailed => retryFetchFailed env t s
  | .runFetchFailed => retryFetchFailed env t s
  -- `row.offer_id`
  | .scoringFailed => .error (.raised .attributeError, s)
  | .detailFetchBlocked => raising (retryDetailFetchBlocked env t s)

/-- `_EXTERNALLY_RECORDED_FAILURE_TYPES` -/
def externallyRecorded : FailureType → Bool
  | .pageFetchFailed | .runFetchFailed => true
  | _ => false

/-- What `perform_retry` makes of the answer of a handler. -/
def settleRetry (failureType : FailureType) : Handled → Except Raised (Tracked × Session)
  | (true, t, s) => pure (t.markResolved env.retriedAt, s)
  | (false, t, s) => if externallyRecorded failureType then t.refresh s else pure (t, s)

/-- `perform_retry`; the session is as its `COMMIT` is sent. -/
def performRetry : Retrying (Tracked × Session) :=
  match FailureType.ofValue t.row.failureType with
  | none => .error (.raised .unknownFailureType, s)
  | some failureType => do
      let handled ← retryHandler env t s failureType
      let (t, s) ← raising (settleRetry env failureType handled)
      raising (t.flush env.postgres s)

section Rows

variable {env : RetryEnv} {t t' : Tracked} {s s' : Session} {key : String} {db : Database}

/-- The row under a key. -/
def storedFailure (key : String) (db : Database) : Option IngestionFailure :=
  db.ingestionFailures.find? (·.dedupKey = key)

theorem storedFailure_record {now : Int} {fields : IngestionFields} :
    storedFailure key (recordIngestionFailure now fields db) =
      if fields.dedupKey = key then
        some (((storedFailure key db).map (fields.update now)).getD (fields.new now))
      else storedFailure key db :=
  upsert_find? fun _ => rfl

theorem storedFailure_storeIn : storedFailure key (t.storeIn db) =
    if key = t.loaded.dedupKey then (storedFailure key db).map t.store
    else storedFailure key db :=
  find?_map_update fun _ => rfl

@[simp] theorem column_same {α : Type} [DecidableEq α] (loaded stored : α) :
    Tracked.column loaded loaded stored = stored := if_pos rfl

theorem store_clean (h : t.row = t.loaded) (stored : IngestionFailure) : t.store stored = stored := by
  simp [Tracked.store, h]

theorem storeIn_clean (h : t.row = t.loaded) : t.storeIn db = db := by
  have hrows : (db.ingestionFailures.map fun stored =>
      if stored.dedupKey = t.loaded.dedupKey then t.store stored else stored) =
        db.ingestionFailures := by
    simp [store_clean h]
  rw [Tracked.storeIn, hrows]

/-- A flush that goes through sends what has changed. -/
theorem flush_ok {postgres : Postgres} (h : t.flush postgres s = .ok (t', s')) :
    t' = .ofStored t.row ∧ s' = { s with working := t.storeIn s.working } ∧
      (t.row ≠ t.loaded → s.aborted = false) := by
  unfold Tracked.flush at h
  split at h
  · next hclean =>
    obtain ⟨rfl, rfl⟩ := Prod.mk.inj (Except.ok.inj h)
    rw [storeIn_clean hclean]
    obtain ⟨loaded, row⟩ := t
    obtain rfl : row = loaded := hclean
    exact ⟨rfl, rfl, fun hdirty => absurd rfl hdirty⟩
  · obtain ⟨s₁, hwrite, hend⟩ := bind_ok h
    obtain ⟨rfl, rfl⟩ := Prod.mk.inj (Except.ok.inj hend)
    obtain ⟨hgood, db, hdone, rfl⟩ := Session.write_done hwrite
    exact ⟨rfl, by rw [← Verdict.insert_done hdone], fun _ => hgood⟩

theorem getSource_ok {source : Source} {connector : String}
    (h : getSource env t s = .ok ((source, connector), t', s')) :
    s.working.sources.find? (fun source => (source.id : Int) = t.row.sourceId) = some source ∧
      source.connector = some connector ∧ t' = .ofStored t.row ∧ s.aborted = false ∧
      s' = { s with working := t.storeIn s.working } := by
  obtain ⟨⟨t₁, s₁⟩, hflush, h⟩ := bind_ok h
  obtain ⟨rfl, rfl, _⟩ := flush_ok hflush
  obtain ⟨found, hselect, h⟩ := bind_ok h
  obtain ⟨hgood, rfl⟩ := Session.select_ok hselect
  split at h
  · cases h
  · next hfound =>
    split at h
    · cases h
    · next hconnector =>
      obtain ⟨hsource, hrest⟩ := Prod.mk.inj (Except.ok.inj h)
      obtain ⟨rfl, rfl⟩ := Prod.mk.inj hsource
      obtain ⟨rfl, rfl⟩ := Prod.mk.inj hrest
      exact ⟨hfound, hconnector, rfl, hgood, rfl⟩

end Rows

end RecruFlow.Dlq
