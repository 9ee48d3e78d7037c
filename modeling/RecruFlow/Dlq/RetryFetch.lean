import RecruFlow.Dlq.Retry

/-!
# Retrying a fetch failure

The ingestion that a retry triggers may reopen the row; the retry then writes the
attributes that it has changed.
-/

namespace RecruFlow.Dlq

open Connectors Db Ingestion Lib.Transaction

section Fetch

variable {env : RetryEnv} {t t' : Tracked} {s s' : Session} {db : Database} {source : Source}
  {connector : String}

/-- A retried fetch failure that comes to its commit: the ingestion has ended with
a response, and its transaction has left a locked row alone. -/
theorem retryFetchFailed_ok {succeeded : Bool}
    (hsource : db.sources.find? (fun source => (source.id : Int) = t.row.sourceId) = some source)
    (hconnector : source.connector = some connector)
    (h : retryFetchFailed env t (.opened db) = .ok (succeeded, t', s')) :
    let triggered := triggerIngest env.toRunEnv env.registry env.fetchedAt connector db
    triggered.ending = .ok succeeded ∧
      (t.row ≠ t.loaded → triggered.writes env.toRunEnv t.row.dedupKey = false) ∧
      t' = .ofStored t.row ∧ s' = ⟨triggered.db, t.storeIn triggered.db, false⟩ := by
  obtain ⟨⟨⟨found, name⟩, t₁, s₁⟩, hget, h⟩ := bind_ok h
  obtain ⟨hfound, hname, rfl, hgood, rfl⟩ := getSource_ok (mapError_ok hget)
  obtain rfl : source = found := Option.some.inj (hsource.symm.trans hfound)
  obtain rfl : connector = name := Option.some.inj (hconnector.symm.trans hname)
  dsimp only at h
  split at h
  · cases h
  · next hfree =>
    split at h
    · cases h
    · next ok hending =>
      obtain ⟨rfl, hrest⟩ := Prod.mk.inj (Except.ok.inj h)
      obtain ⟨rfl, rfl⟩ := Prod.mk.inj hrest
      refine ⟨hending, fun hdirty => ?_, rfl, rfl⟩
      exact Bool.eq_false_iff.mpr fun hwrites => hfree ⟨hdirty, hwrites⟩

theorem retryFetchFailed_source {succeeded : Bool}
    (h : retryFetchFailed env t (.opened db) = .ok (succeeded, t', s')) :
    ∃ source connector, db.sources.find? (fun source => (source.id : Int) = t.row.sourceId) =
      some source ∧ source.connector = some connector := by
  obtain ⟨⟨⟨source, connector⟩, _, _⟩, hget, _⟩ := bind_ok h
  obtain ⟨hfound, hconnector, _⟩ := getSource_ok (mapError_ok hget)
  exact ⟨source, connector, hfound, hconnector⟩

/-- What a retried fetch failure commits: the rows of the ingestion with the counter
of the row, and on success its new status. -/
theorem performRetry_fetch_ok {failureType : FailureType}
    (htype : FailureType.ofValue t.row.failureType = some failureType)
    (hexternal : externallyRecorded failureType = true)
    (hsource : db.sources.find? (fun source => (source.id : Int) = t.row.sourceId) = some source)
    (hconnector : source.connector = some connector)
    (h : performRetry env t (.opened db) = .ok (t', s')) :
    let triggered := triggerIngest env.toRunEnv env.registry env.fetchedAt connector db
    ∃ succeeded, triggered.ending = .ok succeeded ∧
      (t.row ≠ t.loaded → triggered.writes env.toRunEnv t.row.dedupKey = false) ∧
      s'.aborted = false ∧ s'.working =
        if succeeded then
          ((Tracked.ofStored t.row).markResolved env.retriedAt).storeIn (t.storeIn triggered.db)
        else t.storeIn triggered.db := by
  intro triggered
  unfold performRetry at h
  rw [htype] at h
  obtain ⟨⟨succeeded, t₁, s₁⟩, hhandler, h⟩ := bind_ok h
  have hfetch : retryFetchFailed env t (.opened db) = .ok (succeeded, t₁, s₁) := by
    cases failureType with
    | pageFetchFailed => exact hhandler
    | runFetchFailed => exact hhandler
    | validationFailed => cases hexternal
    | scoringFailed => cases hexternal
    | detailFetchBlocked => cases hexternal
  obtain ⟨hending, hfree, rfl, rfl⟩ := retryFetchFailed_ok hsource hconnector hfetch
  obtain ⟨⟨t₂, s₂⟩, hsettle, h⟩ := bind_ok h
  have hsettle := mapError_ok hsettle
  obtain ⟨_, rfl, _⟩ := flush_ok (mapError_ok h)
  refine ⟨succeeded, hending, hfree, ?_⟩
  cases succeeded with
  | true =>
      obtain ⟨rfl, rfl⟩ := Prod.mk.inj (Except.ok.inj hsettle)
      exact ⟨rfl, rfl⟩
  | false =>
      dsimp only [settleRetry] at hsettle
      rw [if_pos hexternal] at hsettle
      obtain ⟨found, hselect, hsettle⟩ := bind_ok hsettle
      split at hsettle
      · obtain ⟨rfl, rfl⟩ := Prod.mk.inj (Except.ok.inj hsettle)
        exact ⟨rfl, storeIn_clean rfl⟩
      · cases hsettle

/-- A row is as it was loaded, or a transaction has reopened it. -/
def KeptOrReopened (startedAt : Int) (loaded : IngestionFailure) (db : Database) : Prop :=
  storedFailure loaded.dedupKey db = some loaded ∨
    ∃ row, storedFailure loaded.dedupKey db = some row ∧ row.status = .open ∧
      row.occurredAt = startedAt

theorem keptOrReopened_kept {runEnv : RunEnv} {loaded : IngestionFailure} :
    KeptByIngestion runEnv fun s => KeptOrReopened runEnv.startedAt loaded s.working ∧
      KeptOrReopened runEnv.startedAt loaded s.committed where
  kept :=
    { rejected := fun _ h => h
      offer := fun _ _ h => h
      failure := by
        rintro s fields - ⟨hworking, hcommitted⟩
        refine ⟨?_, hcommitted⟩
        have hrecord := @storedFailure_record loaded.dedupKey s.working runEnv.startedAt fields
        split at hrecord
        · refine .inr ⟨_, hrecord, ?_⟩
          cases storedFailure loaded.dedupKey s.working with
          | none => exact ⟨rfl, rfl⟩
          | some row => exact ⟨rfl, rfl⟩
        · rw [KeptOrReopened, hrecord]
          exact hworking }
  sources _ _ h := h

/-- A triggered ingestion leaves the row as it was, or reopened. -/
theorem triggerIngest_keptOrReopened {runEnv : RunEnv} {registry : Registry} {fetchedAt : Int}
    {loaded : IngestionFailure} (hstored : storedFailure loaded.dedupKey db = some loaded) :
    KeptOrReopened runEnv.startedAt loaded
      (triggerIngest runEnv registry fetchedAt connector db).db := by
  have hopened : KeptOrReopened runEnv.startedAt loaded db := .inl hstored
  obtain ⟨⟨hworking, hcommitted⟩, hdb⟩ := @triggerIngest_kept runEnv registry _
    connector db keptOrReopened_kept fetchedAt ⟨hopened, hopened⟩
  rcases hdb with hdb | hdb
  · rw [hdb]
    exact hopened
  · rw [hdb, commit]
    split
    · exact hcommitted
    · exact hworking

end Fetch

/-- A transaction has recorded a failure under a key and committed it. -/
def RecordedUnder (startedAt : Int) (key : String) (db : Database) : Prop :=
  ∃ row, storedFailure key db = some row ∧ row.occurredAt = startedAt

def ResolvedUnder (key : String) (db : Database) : Prop :=
  ∃ row, storedFailure key db = some row ∧ row.status = .resolved

theorem store_status {t : Tracked} (h : t.row.status = t.loaded.status)
    (stored : IngestionFailure) : (t.store stored).status = stored.status := by
  simp [Tracked.store, h]

/-- The status of a row that is marked as resolved is written unless it was so already. -/
theorem markResolved_status {row stored : IngestionFailure} {now : Int} :
    (((Tracked.ofStored row).markResolved now).store stored).status = .resolved ↔
      row.status ≠ .resolved ∨ stored.status = .resolved := by
  simp only [Tracked.store, Tracked.markResolved, Tracked.ofStored, Tracked.column]
  by_cases h : row.status = .resolved
  · simp [h]
  · simp [h, Ne.symm h]

section Resolved

variable {env : RetryEnv} {t t' : Tracked} {s' : Session} {db : Database} {source : Source}
  {connector : String} {failureType : FailureType} {retryCount : Nat}

/-- After a retry that comes to its commit, the row of a fetch failure is resolved
exactly when the ingestion has reported ok and recorded nothing under its key, but
for two cases: an ingestion that is ok in spite of what it has recorded, and a row
that was resolved before an ingestion which is not ok and leaves nothing recorded. -/
theorem retried_fetch_resolved_iff (hstored : storedFailure t.loaded.dedupKey db = some t.loaded)
    (hrow : t.row = { t.loaded with retryCount }) (hfresh : t.loaded.occurredAt ≠ env.startedAt)
    (htype : FailureType.ofValue t.loaded.failureType = some failureType)
    (hexternal : failureType = .pageFetchFailed ∨ failureType = .runFetchFailed)
    (hsource : db.sources.find? (fun source => (source.id : Int) = t.loaded.sourceId) = some source)
    (hconnector : source.connector = some connector)
    (hrun : performRetry env t (.opened db) = .ok (t', s')) :
    let triggered := triggerIngest env.toRunEnv env.registry env.fetchedAt connector db
    let recorded := RecordedUnder env.startedAt t.loaded.dedupKey triggered.db
    (ResolvedUnder t.loaded.dedupKey (commit s') ↔ triggered.ending = .ok true ∧ ¬ recorded) ↔
      ¬ (triggered.ending = .ok true ∧ recorded ∧ t.loaded.status ≠ .resolved) ∧
        ¬ (triggered.ending = .ok false ∧ ¬ recorded ∧ t.loaded.status = .resolved) := by
  intro triggered recorded
  have hexternal : externallyRecorded failureType = true := by
    rcases hexternal with rfl | rfl <;> rfl
  have htype : FailureType.ofValue t.row.failureType = some failureType := by rw [hrow]; exact htype
  have hsource : db.sources.find? (fun source => (source.id : Int) = t.row.sourceId) =
      some source := by rw [hrow]; exact hsource
  obtain ⟨succeeded, hending, _, hgood, hworking⟩ :=
    performRetry_fetch_ok htype hexternal hsource hconnector hrun
  have hstatus : t.row.status = t.loaded.status := by rw [hrow]
  have hkey : t.row.dedupKey = t.loaded.dedupKey := by rw [hrow]
  -- the row that the ingestion leaves
  obtain ⟨row, hfound, hfate⟩ : ∃ row, storedFailure t.loaded.dedupKey triggered.db = some row ∧
      ((¬ recorded ∧ row.status = t.loaded.status) ∨ (recorded ∧ row.status = .open)) := by
    rcases triggerIngest_keptOrReopened hstored with hkept | ⟨row, hfound, hopen, hoccurred⟩
    · refine ⟨_, hkept, .inl ⟨fun ⟨row, hrow, hoccurred⟩ => ?_, rfl⟩⟩
      obtain rfl := Option.some.inj (hkept.symm.trans hrow)
      exact hfresh hoccurred
    · exact ⟨row, hfound, .inr ⟨⟨row, hfound, hoccurred⟩, hopen⟩⟩
  have hcounted : storedFailure t.loaded.dedupKey (t.storeIn triggered.db) = some (t.store row) := by
    rw [storedFailure_storeIn, if_pos rfl, hfound, Option.map_some]
  have hsame : (t.store row).status = row.status := store_status hstatus row
  have hcommit : commit s' = s'.working := by
    rw [commit, if_neg (by simp [hgood])]
  rw [hcommit, hworking]
  cases succeeded with
  | true =>
      have hresolved : ResolvedUnder t.loaded.dedupKey
          (((Tracked.ofStored t.row).markResolved env.retriedAt).storeIn (t.storeIn triggered.db)) ↔
            t.loaded.status ≠ .resolved ∨ row.status = .resolved := by
        rw [ResolvedUnder, storedFailure_storeIn]
        simp only [Tracked.markResolved_loaded, Tracked.ofStored_loaded, hkey, if_true, hcounted,
          Option.map_some, Option.some.injEq, exists_eq_left', markResolved_status, hstatus, hsame]
      rw [if_pos rfl, hresolved, hending]
      rcases hfate with ⟨hnone, hrow⟩ | ⟨hsome, hopen⟩
      · simp [hnone, hrow, em']
      · simp [hsome, hopen]
  | false =>
      have hresolved : ResolvedUnder t.loaded.dedupKey (t.storeIn triggered.db) ↔
          row.status = .resolved := by
        rw [ResolvedUnder, hcounted]
        simp only [Option.some.injEq, exists_eq_left', hsame]
      rw [if_neg Bool.false_ne_true, hresolved, hending]
      rcases hfate with ⟨hnone, hrow⟩ | ⟨hsome, hopen⟩
      · simp [hnone, hrow]
      · simp [hsome, hopen]

end Resolved

/-! ## A second page that is blocked -/

/-- The second page of the listing is blocked. -/
def secondPageBlocked : JobBoardConnector Int :=
  { quietBoard with
    fetchPage := fun _ _ _ pageIndex _ =>
      if pageIndex = 0 then .got ([], some 1) else .blocked 403 }

def remotiveRetryEnv (board : JobBoardConnector Int) : RetryEnv :=
  { acmeRunEnv with
    registry := { quietRegistry with remotive := board }
    detail := fun _ _ => .ok none
    fetchedAt := 6
    retriedAt := 7 }

def blockedPageRow : IngestionFailure :=
  { dedupKey := "source:1"
    failureType := FailureType.pageFetchFailed.value
    errorMessage := "failed to fetch remotive page 1"
    rawPayload := none
    status := .open
    occurredAt := -5
    resolvedAt := none
    sourceId := 1
    schedulerRunId := none
    page := some 1
    url := none
    blockedStatus := some 403
    retryCount := 0 }

def blockedPageDb : Database :=
  { sources :=
      [{ id := 1
         name := "remotive"
         connector := some "remotive"
         configJson := ⟨[]⟩
         lastFetchedAt := none }]
    ingestionFailures := [blockedPageRow] }

/-- The ingestion is ok and reopens the row, and the retry resolves it. -/
theorem reopened_row_resolved :
    let triggered := triggerIngest acmeRunEnv (remotiveRetryEnv secondPageBlocked).registry 6
      "remotive" blockedPageDb
    ∃ t' s', performRetry (remotiveRetryEnv secondPageBlocked) (.ofStored blockedPageRow)
        (.opened blockedPageDb) = .ok (t', s') ∧
      ¬ (ResolvedUnder "source:1" (commit s') ↔ triggered.ending = .ok true ∧
        ¬ RecordedUnder acmeRunEnv.startedAt "source:1" triggered.db) := by
  intro triggered
  have hrecorded : RecordedUnder acmeRunEnv.startedAt "source:1" triggered.db := ⟨_, rfl, rfl⟩
  have hresolved : ∃ t' s', performRetry (remotiveRetryEnv secondPageBlocked)
      (.ofStored blockedPageRow) (.opened blockedPageDb) = .ok (t', s') ∧
        ResolvedUnder "source:1" (commit s') := ⟨_, _, rfl, ⟨_, rfl, rfl⟩⟩
  obtain ⟨t', s', hrun, hresolved⟩ := hresolved
  exact ⟨t', s', hrun, fun h => (h.mp hresolved).2 hrecorded⟩

theorem retried_fetch_resolved_iff_quiet :
    ∃ t' s', performRetry (remotiveRetryEnv quietBoard) (.ofStored blockedPageRow)
        (.opened blockedPageDb) = .ok (t', s') ∧
      (ResolvedUnder "source:1" (commit s') ↔
        (triggerIngest acmeRunEnv (remotiveRetryEnv quietBoard).registry 6 "remotive"
            blockedPageDb).ending = .ok true ∧
          ¬ RecordedUnder acmeRunEnv.startedAt "source:1"
            (triggerIngest acmeRunEnv (remotiveRetryEnv quietBoard).registry 6 "remotive"
              blockedPageDb).db) := by
  have hrun : ∃ r, performRetry (remotiveRetryEnv quietBoard) (.ofStored blockedPageRow)
      (.opened blockedPageDb) = .ok r := ⟨_, rfl⟩
  obtain ⟨⟨t', s'⟩, hrun⟩ := hrun
  refine ⟨t', s', hrun, ?_⟩
  apply (retried_fetch_resolved_iff (t := .ofStored blockedPageRow) rfl rfl (by decide) rfl
    (.inl rfl) rfl rfl hrun).mpr
  refine ⟨fun h => ?_, fun h => ?_⟩
  · obtain ⟨row, hrow, hoccurred⟩ := h.2.1
    have hsame : some blockedPageRow = some row := hrow
    rw [← Option.some.inj hsame] at hoccurred
    exact absurd hoccurred (by decide)
  · exact absurd h.1 (by decide)

end RecruFlow.Dlq
