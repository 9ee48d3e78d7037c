import RecruFlow.Dlq.RetryBudget

/-!
# Status and resolution of dead letters

A row is resolved when it has an instant of resolution. A failure that is recorded clears
both, a retry that succeeds sets both, but the unit of work sends only what has changed
since the row was loaded.
-/

namespace RecruFlow.Dlq

open Connectors Db Ingestion Lib.Outcome Lib.Trace Lib.Transaction

/-- A row has an instant of resolution exactly when it is resolved. -/
def Consistent (row : IngestionFailure) : Prop :=
  row.resolvedAt.isSome = true ↔ row.status = .resolved

instance (row : IngestionFailure) : Decidable (Consistent row) :=
  inferInstanceAs (Decidable (_ ↔ _))

def ConsistentRows (db : Database) : Prop :=
  ∀ row ∈ db.ingestionFailures, Consistent row

/-- The retry that a step makes, on the row as its session holds it. -/
def StepAction.retried (maxAttempts : Int) (db : Database) : StepAction → Option (RetryEnv × Tracked)
  | record _ _ => none
  | turn env row => if Exhausted maxAttempts row then none else some (env, attemptedRow row)
  | retry env key => (storedFailure key db).map fun row => (env, .ofStored row)

/-- The handler of a retry returns an answer, and leaves a session. -/
def HandlerReturns (env : RetryEnv) (t : Tracked) (db : Database) (succeeded : Bool)
    (s : Session) : Prop :=
  ∃ failureType t', FailureType.ofValue t.row.failureType = some failureType ∧
    retryHandler env t (.opened db) failureType = .ok (succeeded, t', s)

/-- What holds of the dead letters after a step: keys are unique, rows are consistent, and
a row whose retry has failed is not resolved. -/
structure SoundStep (maxAttempts : Int) (step : HistoryStep) : Prop where
  unique : KeysUnique step.after
  consistent : ConsistentRows step.after
  failed : ∀ env t s, step.action.retried maxAttempts step.before = some (env, t) →
    HandlerReturns env t step.before false s →
      statusIn t.row.dedupKey step.after ≠ some .resolved

/-- The handler of the retry of a row that is already resolved reports success exactly when
no ingestion has reopened the row meanwhile. -/
def ReportsReopening (maxAttempts : Int) (step : HistoryStep) : Prop :=
  ∀ env t succeeded s, step.action.retried maxAttempts step.before = some (env, t) →
    t.row.status = .resolved → HandlerReturns env t step.before succeeded s →
      (succeeded = true ↔ statusIn t.row.dedupKey s.committed = some .resolved)

/-- The retry is not to change whether its row is resolved. -/
def HoldsResolution (t : Tracked) : Prop :=
  t.row.status = t.loaded.status ∧ t.row.resolvedAt = t.loaded.resolvedAt

/-- The row was not resolved when it was loaded, and still is not. -/
def HoldsUnresolved (t : Tracked) : Prop :=
  HoldsResolution t ∧ t.loaded.status ≠ .resolved ∧ t.loaded.resolvedAt = none

/-- The retry resolves a row that was not, or leaves it. -/
def ResolvesRow (t : Tracked) : Prop :=
  HoldsResolution t ∨ (t.loaded.status ≠ .resolved ∧ t.loaded.resolvedAt = none ∧
    t.row.status = .resolved ∧ t.row.resolvedAt.isSome = true)

section Rows

variable {t : Tracked} {stored row : IngestionFailure} {fields : IngestionFields} {now : Int}
  {db : Database} {key : String}

theorem consistent_update : Consistent (fields.update now row) :=
  iff_of_false nofun nofun

theorem consistent_new : Consistent (fields.new now) :=
  iff_of_false nofun nofun

theorem consistentRows_record (h : ConsistentRows db) :
    ConsistentRows (recordIngestionFailure now fields db) := by
  intro row hrow
  rcases upsert_mem_cases hrow with hold | rfl | ⟨old, _, _, rfl⟩
  · exact h row hold
  · exact consistent_new
  · exact consistent_update

theorem column_changed {α : Type} [DecidableEq α] {loaded row stored : α} (h : row ≠ loaded) :
    Tracked.column loaded row stored = row :=
  if_neg h

theorem store_consistent (ht : ResolvesRow t) (h : Consistent stored) :
    Consistent (t.store stored) := by
  rcases ht with ⟨hstatus, hresolvedAt⟩ | ⟨hloaded, hnone, hstatus, hsome⟩
  · unfold Consistent Tracked.store
    dsimp only
    rw [hstatus, hresolvedAt, column_same, column_same]
    exact h
  · have hstatusColumn : (t.store stored).status = .resolved := by
      rw [← hstatus]
      exact column_changed (hstatus.trans_ne hloaded.symm)
    have hresolvedColumn : (t.store stored).resolvedAt = t.row.resolvedAt := by
      refine column_changed fun heq => ?_
      rw [heq, hnone] at hsome
      cases hsome
    exact iff_of_true (hresolvedColumn ▸ hsome) hstatusColumn

theorem storeIn_mem (h : row ∈ (t.storeIn db).ingestionFailures) :
    row ∈ db.ingestionFailures ∧ row.dedupKey ≠ t.loaded.dedupKey ∨
      ∃ stored ∈ db.ingestionFailures, stored.dedupKey = t.loaded.dedupKey ∧
        row = t.store stored := by
  obtain ⟨stored, hstored, rfl⟩ := List.mem_map.mp h
  split
  · next hkey => exact .inr ⟨stored, hstored, hkey, rfl⟩
  · next hkey => exact .inl ⟨hstored, hkey⟩

theorem consistentRows_kept : KeptByRetry (fun _ => True) ResolvesRow ConsistentRows := by
  refine keptByRetry_rows (fun db db' hsame h => ?_) (fun db now fields => consistentRows_record)
    (fun db t ht h row hrow => ?_)
  · rw [ConsistentRows, hsame]
    exact h
  · rcases storeIn_mem hrow with ⟨hold, _⟩ | ⟨stored, hstored, _, rfl⟩
    · exact h row hold
    · exact store_consistent ht (h stored hstored)

theorem holdsResolution_held : HeldByRetry HoldsResolution fun _ => True where
  sent _ _ := ⟨rfl, rfl⟩
  stillFailing _ _ _ h := h
  weakened _ _ := trivial
  resolved _ _ _ := trivial
  refreshed _ _ _ _ := trivial

theorem holdsUnresolved_held : HeldByRetry HoldsUnresolved ResolvesRow where
  sent _ h := ⟨⟨rfl, rfl⟩, h.1.1.trans_ne h.2.1, h.1.2.trans h.2.2⟩
  stillFailing _ _ _ h := h
  weakened _ h := .inl h.1
  resolved _ _ h := .inr ⟨h.2.1, h.2.2, rfl, rfl⟩
  refreshed _ _ _ _ := .inl ⟨rfl, rfl⟩

theorem statusIn_storeIn_of_same (ht : t.row.status = t.loaded.status) :
    statusIn key (t.storeIn db) = statusIn key db := by
  unfold statusIn
  rw [storedFailure_storeIn]
  split
  · rw [Option.map_map]
    congr 1
    funext stored
    simp only [Function.comp_apply, Tracked.store, ht, column_same]
  · rfl

/-- A row that is not resolved is not by a retry that leaves it. -/
theorem notResolved_kept : KeptByRetry (fun _ => True) HoldsResolution
    (statusIn key · ≠ some .resolved) := by
  refine keptByRetry_rows (fun db db' hsame h => ?_) (fun db now fields h => ?_)
    (fun db t ht h => ?_)
  · rw [statusIn_congr hsame]
    exact h
  · rw [statusIn_record]
    split
    · exact nofun
    · exact h
  · rw [statusIn_storeIn_of_same ht.1]
    exact h

end Rows

section Retry

variable {env : RetryEnv} {t t' : Tracked} {s s' : Session} {db : Database} {key : String}
  {failureType : FailureType} {held : Tracked → Prop} {Q : Database → Prop} {succeeded : Bool}

/-- The end of a retry whose handler has reported success. -/
theorem performRetry_of_succeeded (htype : FailureType.ofValue t.row.failureType = some failureType)
    (hreturns : retryHandler env t s failureType = .ok (true, t', s')) :
    performRetry env t s = raising ((t'.markResolved env.retriedAt).flush env.postgres s') := by
  unfold performRetry
  rw [htype]
  dsimp only
  rw [hreturns]
  rfl

theorem performRetry_of_failed (htype : FailureType.ofValue t.row.failureType = some failureType)
    (hreturns : retryHandler env t s failureType = .ok (false, t', s')) :
    performRetry env t s = (raising (settleRetry env failureType (false, t', s')) >>=
      fun r => raising (r.1.flush env.postgres r.2)) := by
  unfold performRetry
  rw [htype]
  dsimp only
  rw [hreturns]
  rfl

/-- A retry whose handler has failed does not touch the resolution of its row any more. -/
theorem afterRetry_failed (htype : FailureType.ofValue t.row.failureType = some failureType)
    (hreturns : retryHandler env t s failureType = .ok (false, t', s')) (ht' : HoldsResolution t')
    (hrow : KeptByRow HoldsResolution (Both Q)) (h : Both Q s') :
    Q (afterRetry (performRetry env t s)) := by
  apply afterRetry_both
  rw [performRetry_of_failed htype hreturns]
  refine ends_bind_of (raising_ends (settleRetry_keeps h)) fun r hsettled hr => ?_
  obtain ⟨t'', s''⟩ := r
  have ht'' : HoldsResolution t'' := by
    have hsettle := mapError_ok hsettled
    dsimp only [settleRetry] at hsettle
    split at hsettle
    · obtain ⟨found, _, hsettle⟩ := bind_ok hsettle
      split at hsettle
      · cases hsettle
        exact ⟨rfl, rfl⟩
      · cases hsettle
    · cases hsettle
      exact ht'
  exact raising_ends (flush_keeps hrow ht'' hr)

/-- A row that is not resolved when its retry starts. -/
theorem unresolved_sound (ht : HoldsUnresolved t) (hkey : statusIn t.row.dedupKey db ≠ some .resolved)
    (h : ConsistentRows db) : ConsistentRows (afterRetry (performRetry env t (.opened db))) ∧
      (HandlerReturns env t db false s →
        statusIn t.row.dedupKey (afterRetry (performRetry env t (.opened db))) ≠ some .resolved) := by
  refine ⟨afterRetry_both (performRetry_both consistentRows_kept (fun _ _ => trivial) h
    holdsUnresolved_held ht), ?_⟩
  rintro ⟨failureType, t', htype, hreturns⟩
  have hkept : KeptByRetry (fun _ => True) HoldsResolution
      (statusIn t.row.dedupKey · ≠ some .resolved) := notResolved_kept
  have hwrites : KeptByWrites env.toRunEnv (fun _ => True) HoldsResolution
      (Both (statusIn t.row.dedupKey · ≠ some .resolved)) := hkept.both
  have hhandler := ends_ok (retryHandler_both hkept (fun _ _ => trivial) ht.1 hkey) hreturns
  exact afterRetry_failed htype hreturns (retryHandler_held holdsResolution_held ht.1 hreturns)
    hwrites.toKeptByRow hhandler

/-- A retry that only reads and writes in its own session leaves what is committed. -/
theorem committed_kept {runEnv : RunEnv} : KeptByWrites runEnv (fun _ => True) (fun _ => True)
    fun s : Session => s.committed = db where
  kept := ⟨fun _ h => h, fun _ _ h => h, fun _ _ _ h => h⟩
  config _ _ _ _ _ _ h := h
  stamped _ _ _ _ _ _ h := h
  rejected _ h := h
  row _ _ _ h := h

/-- `persist_offer` leaves the dead letters as they are. -/
theorem persistOffer_failures {ingestEnv : IngestEnv} {offer : Schemas.Offer} {rawPayload : Dict}
    {result : OfferRow × Bool} (h : persistOffer ingestEnv offer rawPayload s = .ok (result, s')) :
    s'.working.ingestionFailures = s.working.ingestionFailures := by
  have hkept : KeptFor ingestEnv (fun _ => False) (fun _ => True) fun s' : Session =>
      s'.working.ingestionFailures = s.working.ingestionFailures :=
    ⟨fun _ h => h, fun _ _ _ h => h, fun _ _ hno _ => hno.elim⟩
  have hends : Ends (fun s' : Session => s'.working.ingestionFailures = s.working.ingestionFailures)
      (·.2) (·.2) (persistOffer ingestEnv offer rawPayload s) :=
    persistOffer_kept hkept (fun _ _ => trivial) rfl
  have hs' := ends_ok hends h
  exact hs'

theorem retryValidationFailed_views (hclean : t.row = t.loaded)
    (h : retryValidationFailed env t (.opened db) = .ok (succeeded, t', s')) :
    s'.committed = db ∧
      (succeeded = true → s'.working.ingestionFailures = db.ingestionFailures) := by
  refine ⟨ends_ok (retryValidationFailed_keeps committed_kept trivial rfl) h, fun hsucceeded => ?_⟩
  unfold retryValidationFailed at h
  split at h
  · cases (Prod.mk.inj (Except.ok.inj h)).1.trans hsucceeded
  · split at h
    · cases (Prod.mk.inj (Except.ok.inj h)).1.trans hsucceeded
    · obtain ⟨⟨t₁, s₁⟩, hflush, h⟩ := bind_ok h
      obtain ⟨⟨result, s₂⟩, hpersist, hend⟩ := bind_ok h
      obtain ⟨_, rfl, _⟩ := flush_ok hflush
      rw [storeIn_clean hclean] at hpersist
      cases hend
      exact persistOffer_failures hpersist

theorem retryDetailFetch_failures {fetched : Except PyError (Option Dict)}
    {mapOffer : Nat → Dict → Except PyError Dict} {source : Source}
    (h : retryDetailFetch env s fetched mapOffer source = .ok (true, s')) :
    s'.working.ingestionFailures = s.working.ingestionFailures := by
  obtain ⟨found, _, h⟩ := bind_ok h
  cases found with
  | none => cases h
  | some parsed =>
      obtain ⟨mapped, _, h⟩ := bind_ok h
      obtain ⟨⟨offer, s₁⟩, hnormalized, h⟩ := bind_ok h
      cases offer with
      | none => cases h
      | some offer =>
          obtain ⟨⟨result, s₂⟩, hpersist, hend⟩ := bind_ok h
          cases hend
          rw [persistOffer_failures hpersist]
          unfold normalizeAndValidate at hnormalized
          split at hnormalized
          · cases hnormalized
            rfl
          · obtain ⟨s₃, _, hnone⟩ := bind_ok hnormalized
            cases hnone

theorem retryDetailFetchBlocked_views (hclean : t.row = t.loaded)
    (h : retryDetailFetchBlocked env t (.opened db) = .ok (succeeded, t', s')) :
    s'.committed = db ∧
      (succeeded = true → s'.working.ingestionFailures = db.ingestionFailures) := by
  refine ⟨ends_ok (retryDetailFetchBlocked_keeps committed_kept trivial rfl) h, fun hsucceeded => ?_⟩
  obtain ⟨⟨⟨source, connector⟩, t₁, s₁⟩, hget, h⟩ := bind_ok h
  obtain ⟨_, _, _, _, rfl⟩ := getSource_ok hget
  rw [storeIn_clean hclean] at h
  dsimp only at h
  split at h
  · cases (Prod.mk.inj (Except.ok.inj h)).1.trans hsucceeded
  · split at h
    · cases h
    · split at h
      · cases h
      · split at h
        · next hfetched =>
          cases h
          rw [hsucceeded] at hfetched
          exact retryDetailFetch_failures hfetched
        · cases (Prod.mk.inj (Except.ok.inj h)).1.trans hsucceeded
        · cases h

/-- After an ingestion the session sees what is committed. -/
theorem retryFetchFailed_views (hclean : t.row = t.loaded)
    (h : retryFetchFailed env t (.opened db) = .ok (succeeded, t', s')) :
    s'.working = s'.committed := by
  obtain ⟨⟨⟨source, connector⟩, t₁, s₁⟩, hget, h⟩ := bind_ok h
  dsimp only at h
  split at h
  · cases h
  · split at h
    · cases h
    · cases h
      exact storeIn_clean hclean

/-- What the session of a handler sees of a row that it has loaded and not changed. -/
theorem handler_views (hclean : t.row = t.loaded)
    (h : retryHandler env t (.opened db) failureType = .ok (succeeded, t', s')) :
    s'.working = s'.committed ∨ s'.committed = db ∧
      (succeeded = true → s'.working.ingestionFailures = db.ingestionFailures) := by
  cases failureType with
  | validationFailed => exact .inr (retryValidationFailed_views hclean (mapError_ok h))
  | pageFetchFailed => exact .inl (retryFetchFailed_views hclean h)
  | runFetchFailed => exact .inl (retryFetchFailed_views hclean h)
  | scoringFailed => cases h
  | detailFetchBlocked => exact .inr (retryDetailFetchBlocked_views hclean (mapError_ok h))

/-- The row was resolved when it was loaded, and still is. -/
def HoldsResolved (key : String) (t : Tracked) : Prop :=
  t.loaded.dedupKey = key ∧ t.row.dedupKey = key ∧ t.loaded.status = .resolved ∧
    t.row.status = .resolved

theorem holdsResolved_held : HeldByRetry (HoldsResolved key) fun _ => True where
  sent _ h := ⟨h.2.1, h.2.1, h.2.2.2, h.2.2.2⟩
  stillFailing _ _ _ h := h
  weakened _ _ := trivial
  resolved _ _ _ := trivial
  refreshed _ _ _ _ := trivial

/-- It has been resolved once more. -/
def ResolvesAgain (key : String) (t : Tracked) : Prop :=
  t.loaded.dedupKey = key ∧ t.row.status = t.loaded.status ∧ t.row.resolvedAt.isSome = true

/-- The rows under the key are resolved. -/
def ResolvedUnderKey (key : String) (db : Database) : Prop :=
  ∀ row ∈ db.ingestionFailures, row.dedupKey = key → row.status = .resolved

theorem resolvedUnderKey_of_status (hunique : KeysUnique db)
    (h : statusIn key db = some .resolved) : ResolvedUnderKey key db := by
  intro row hrow hkey
  rw [statusIn, ← hkey, storedFailure_of_mem hunique hrow] at h
  exact Option.some.inj h

theorem resolvesAgain_kept : KeptByRow (ResolvesAgain key) fun s =>
    Both ConsistentRows s ∧ ResolvedUnderKey key s.working where
  rejected _ h := h
  row s t ht h := by
    obtain ⟨hkey, hstatus, hsome⟩ := ht
    have hstore : ∀ stored ∈ s.working.ingestionFailures, stored.dedupKey = key →
        Consistent (t.store stored) ∧ (t.store stored).status = .resolved := by
      intro stored hstored hstoredKey
      have hresolved : (t.store stored).status = .resolved := by
        unfold Tracked.store
        dsimp only
        rw [hstatus, column_same]
        exact h.2 stored hstored hstoredKey
      refine ⟨iff_of_true ?_ hresolved, hresolved⟩
      rcases @column_cases _ _ t.loaded.resolvedAt t.row.resolvedAt stored.resolvedAt with
        hsame | ⟨_, hrow⟩
      · change Option.isSome (Tracked.column _ _ _) = true
        rw [hsame]
        exact (h.1.1 stored hstored).mpr (h.2 stored hstored hstoredKey)
      · change Option.isSome (Tracked.column _ _ _) = true
        rw [hrow]
        exact hsome
    refine ⟨⟨fun row hrow => ?_, h.1.2⟩, fun row hrow hrowKey => ?_⟩
    · rcases storeIn_mem hrow with ⟨hold, _⟩ | ⟨stored, hstored, hstoredKey, rfl⟩
      · exact h.1.1 row hold
      · exact (hstore stored hstored (hstoredKey.trans hkey)).1
    · rcases storeIn_mem hrow with ⟨hold, _⟩ | ⟨stored, hstored, hstoredKey, rfl⟩
      · exact h.2 row hold hrowKey
      · exact (hstore stored hstored (hstoredKey.trans hkey)).2

/-- A row that is resolved when its manual retry starts. -/
theorem resolved_sound {row : IngestionFailure} (hunique : KeysUnique db)
    (hrow : storedFailure key db = some row) (hresolved : row.status = .resolved)
    (h : ConsistentRows db)
    (hreports : ∀ succeeded s, HandlerReturns env (.ofStored row) db succeeded s →
      (succeeded = true ↔ statusIn key s.committed = some .resolved)) :
    ConsistentRows (afterRetry (performRetry env (.ofStored row) (.opened db))) ∧
      (HandlerReturns env (.ofStored row) db false s →
        statusIn key (afterRetry (performRetry env (.ofStored row) (.opened db))) ≠
          some .resolved) := by
  have hkey : row.dedupKey = key := by simpa using List.find?_some hrow
  have hstatus : statusIn key db = some .resolved := by
    rw [statusIn, hrow]
    exact congrArg some hresolved
  have hholds : HoldsResolution (.ofStored row) := ⟨rfl, rfl⟩
  have hwrites : KeptByWrites env.toRunEnv (fun _ => True) ResolvesRow (Both ConsistentRows) :=
    consistentRows_kept.both
  have hleaves : KeptByRow HoldsResolution (Both ConsistentRows) :=
    ⟨hwrites.rejected, fun s t ht => hwrites.row s t (.inl ht)⟩
  cases htype : FailureType.ofValue (Tracked.ofStored row).row.failureType with
  | none =>
      refine ⟨?_, fun hreturns => ?_⟩
      · unfold performRetry
        rw [htype]
        exact h
      · obtain ⟨failureType, _, hsome, _⟩ := hreturns
        cases htype.symm.trans hsome
  | some failureType =>
      have hhandler := @retryHandler_both env (fun _ => True) ResolvesRow ConsistentRows
        (.ofStored row) db consistentRows_kept (fun _ _ => trivial) (.inl hholds) h failureType
      cases hreturns : retryHandler env (.ofStored row) (.opened db) failureType with
      | error halted =>
          rw [hreturns] at hhandler
          refine ⟨?_, fun hfalse => ?_⟩
          · unfold performRetry
            rw [htype]
            dsimp only
            rw [hreturns]
            exact hhandler.2
          · obtain ⟨failureType', _, hsome, hfails⟩ := hfalse
            obtain rfl := Option.some.inj (htype.symm.trans hsome)
            cases hreturns.symm.trans hfails
      | ok r =>
          obtain ⟨succeeded, t', s'⟩ := r
          rw [hreturns] at hhandler
          have hviews := handler_views rfl hreturns
          have hreported := hreports succeeded s' ⟨failureType, t', htype, hreturns⟩
          cases succeeded with
          | false =>
              have ht' := retryHandler_held holdsResolution_held hholds hreturns
              have hreopened : statusIn key s'.committed ≠ some .resolved := fun hstill =>
                Bool.false_ne_true (hreported.mpr hstill)
              have hsame : s'.working = s'.committed := by
                rcases hviews with hsame | ⟨hcommitted, _⟩
                · exact hsame
                · rw [hcommitted] at hreopened
                  exact absurd hstatus hreopened
              have hnot : KeptByWrites env.toRunEnv (fun _ => True) HoldsResolution
                  (Both (statusIn key · ≠ some .resolved)) := notResolved_kept.both
              exact ⟨afterRetry_failed htype hreturns ht' hleaves hhandler, fun _ =>
                afterRetry_failed htype hreturns ht' hnot.toKeptByRow
                  ⟨hsame ▸ hreopened, hreopened⟩⟩
          | true =>
              have hstill : statusIn key s'.committed = some .resolved := hreported.mp rfl
              have hunique' := ends_ok
                (retryHandler_both keysUnique_kept (fun _ _ => trivial) trivial hunique) hreturns
              have hunder : ResolvedUnderKey key s'.working := by
                apply resolvedUnderKey_of_status hunique'.1
                rcases hviews with hsame | ⟨_, hrows⟩
                · rw [hsame]
                  exact hstill
                · rw [statusIn_congr (hrows rfl)]
                  exact hstatus
              have ht' : HoldsResolved key t' := retryHandler_held holdsResolved_held
                ⟨hkey, hkey, hresolved, hresolved⟩ hreturns
              have hagain : ResolvesAgain key (t'.markResolved env.retriedAt) :=
                ⟨ht'.1, ht'.2.2.1.symm, rfl⟩
              refine ⟨?_, fun hfalse => ?_⟩
              · rw [performRetry_of_succeeded htype hreturns]
                exact afterRetry_both (raising_ends (ends_mono
                  (flush_keeps resolvesAgain_kept hagain ⟨hhandler, hunder⟩) fun _ hs => hs.1))
              · obtain ⟨failureType', t'', hsome, hfails⟩ := hfalse
                obtain rfl := Option.some.inj (htype.symm.trans hsome)
                cases hreturns.symm.trans hfails

end Retry

section History

variable {maxAttempts : Int} {start : Database} {events : List HistoryEvent}

/-- A turn that abandons a row leaves it without an instant of resolution. -/
theorem abandoned_consistent {row : IngestionFailure} {db : Database} (hunique : KeysUnique db)
    (hselected : StillSelected row db) (h : ConsistentRows db) :
    ConsistentRows ((abandonedRow row).storeIn db) := by
  intro stored' hstored'
  rcases storeIn_mem hstored' with ⟨hold, _⟩ | ⟨stored, hstored, hkey, rfl⟩
  · exact h stored' hold
  · have hkey : stored.dedupKey = row.dedupKey := hkey
    have hopen : stored.status = .open := by
      have hstatus := hselected.2.1
      rw [statusIn, ← hkey, storedFailure_of_mem hunique hstored] at hstatus
      exact Option.some.inj hstatus
    have habandoned : ((abandonedRow row).store stored).status = .abandoned := by
      simp [Tracked.store, Tracked.column, abandonedRow, hselected.1]
    refine iff_of_false (fun hsome => ?_) (by simp [habandoned])
    have hresolvedAt : ((abandonedRow row).store stored).resolvedAt = stored.resolvedAt :=
      column_same _ _
    rw [hresolvedAt] at hsome
    cases hopen.symm.trans ((h stored hstored).mp hsome)

theorem unresolved_of_status {row : IngestionFailure} (h : Consistent row)
    (hstatus : row.status ≠ .resolved) : row.resolvedAt = none :=
  Option.not_isSome_iff_eq_none.mp fun hsome => hstatus (h.mp hsome)

/-- A manual retry. -/
theorem manualRetry_sound {env : RetryEnv} {key : String} {db : Database}
    (hunique : KeysUnique db) (h : ConsistentRows db)
    (hreports : ReportsReopening maxAttempts
      ⟨.retry env key, db, afterManualRetry env key db⟩) :
    SoundStep maxAttempts ⟨.retry env key, db, afterManualRetry env key db⟩ := by
  have hsound : ConsistentRows (afterManualRetry env key db) ∧ ∀ env' t s,
      (StepAction.retry env key).retried maxAttempts db = some (env', t) →
        HandlerReturns env' t db false s →
          statusIn t.row.dedupKey (afterManualRetry env key db) ≠ some .resolved := by
    unfold afterManualRetry
    cases hrow : storedFailure key db with
    | none =>
        refine ⟨h, fun env' t s hretried => ?_⟩
        rw [StepAction.retried, hrow] at hretried
        cases hretried
    | some row =>
        have hkey : row.dedupKey = key := by simpa using List.find?_some hrow
        have hretries : (StepAction.retry env key).retried maxAttempts db =
            some (env, .ofStored row) := by
          rw [StepAction.retried, hrow]
          rfl
        have hrow' : row ∈ db.ingestionFailures := List.mem_of_find?_eq_some hrow
        have hretry : ConsistentRows (afterRetry (performRetry env (.ofStored row) (.opened db))) ∧
            ∀ s, HandlerReturns env (.ofStored row) db false s →
              statusIn key (afterRetry (performRetry env (.ofStored row) (.opened db))) ≠
                some .resolved := by
          by_cases hresolved : row.status = .resolved
          · have hreturns : ∀ succeeded s, HandlerReturns env (.ofStored row) db succeeded s →
                (succeeded = true ↔ statusIn key s.committed = some .resolved) := by
              intro succeeded s hreturned
              rw [← hkey]
              exact hreports env (.ofStored row) succeeded s hretries hresolved hreturned
            have hsound := fun s => @resolved_sound env s db key row hunique hrow hresolved h hreturns
            exact ⟨(hsound (.opened db)).1, fun s => (hsound s).2⟩
          · have hheld : HoldsUnresolved (.ofStored row) :=
              ⟨⟨rfl, rfl⟩, hresolved, unresolved_of_status (h row hrow') hresolved⟩
            have hstatus : statusIn row.dedupKey db ≠ some .resolved := by
              rw [hkey, statusIn, hrow]
              exact fun heq => hresolved (Option.some.inj heq)
            have hsound := fun s => @unresolved_sound env (.ofStored row) s db hheld hstatus h
            rw [Tracked.ofStored_row, hkey] at hsound
            exact ⟨(hsound (.opened db)).1, fun s => (hsound s).2⟩
        refine ⟨hretry.1, fun env' t s hretried hreturns => ?_⟩
        obtain ⟨rfl, rfl⟩ := Prod.mk.inj (Option.some.inj (hretries.symm.trans hretried))
        rw [Tracked.ofStored_row, hkey]
        exact hretry.2 s hreturns
  exact ⟨manualRetry_unique hunique, hsound.1, hsound.2⟩

/-- A turn of a tick. -/
theorem turn_sound {env : RetryEnv} {row : IngestionFailure} {db : Database}
    (hunique : KeysUnique db) (h : ConsistentRows db) (hselected : StillSelected row db)
    (hrow : row.resolvedAt = none) :
    SoundStep maxAttempts ⟨.turn env row, db,
      afterRetry (treatRow env maxAttempts row (.opened db))⟩ := by
  by_cases hexhausted : Exhausted maxAttempts row
  · refine ⟨turn_unique hunique, ?_, fun env' t s hretried => ?_⟩
    · change ConsistentRows (afterRetry _)
      rcases @exhausted_cases env maxAttempts row db hexhausted with hsame | hstored
      · rw [hsame]
        exact h
      · rw [hstored]
        exact abandoned_consistent hunique hselected h
    · rw [StepAction.retried, if_pos hexhausted] at hretried
      cases hretried
  · have hopen : (attemptedRow row).loaded.status ≠ .resolved := by
      change row.status ≠ .resolved
      rw [hselected.1]
      exact nofun
    have hheld : HoldsUnresolved (attemptedRow row) := ⟨⟨rfl, rfl⟩, hopen, hrow⟩
    have hstatus : statusIn (attemptedRow row).row.dedupKey db ≠ some .resolved := by
      change statusIn row.dedupKey db ≠ _
      rw [hselected.2.1]
      exact nofun
    have hafter : afterRetry (treatRow env maxAttempts row (.opened db)) =
        afterRetry (performRetry env (attemptedRow row) (.opened db)) := by
      rw [treatRow, if_neg hexhausted]
    refine ⟨turn_unique hunique, ?_, fun env' t s hretried hreturns => ?_⟩
    · change ConsistentRows (afterRetry _)
      rw [hafter]
      exact (@unresolved_sound env (attemptedRow row) (.opened db) db hheld hstatus h).1
    · rw [StepAction.retried, if_neg hexhausted] at hretried
      obtain ⟨rfl, rfl⟩ := Prod.mk.inj (Option.some.inj hretried)
      change statusIn _ (afterRetry _) ≠ _
      rw [hafter]
      exact (unresolved_sound hheld hstatus h).2 hreturns

/-- In every history the dead letters stay consistent, as long as each retry of a resolved
row reports success exactly when the row was not reopened meanwhile. -/
theorem deadLetters_consistent (hunique : KeysUnique start) (hconsistent : ConsistentRows start)
    (hreports : ∀ step ∈ history maxAttempts start events, ReportsReopening maxAttempts step) :
    ∀ step ∈ history maxAttempts start events, SoundStep maxAttempts step := by
  have hkeeps : Throughout (fun (c : Unit) _ => c) (fun _ step => SoundStep maxAttempts step) ()
      (history maxAttempts start events) := by
    refine @history_keeps _ _ _ (fun db _ => KeysUnique db ∧ ConsistentRows db)
      (ReportsReopening maxAttempts) maxAttempts start () events ?_ ?_ ?_ hunique
      ⟨hunique, hconsistent⟩ hreports
    · intro now fields db c h _
      have hunique' : KeysUnique (recordIngestionFailure now fields db) :=
        upsert_nodup (fun _ => rfl) h.1
      exact ⟨⟨hunique', consistentRows_record h.2, fun _ _ _ hretried => nomatch hretried⟩, hunique',
        consistentRows_record h.2⟩
    · intro env key db c h hstep
      have hsound := manualRetry_sound h.1 h.2 hstep
      exact ⟨hsound, hsound.unique, hsound.consistent⟩
    · intro env row db hpicked hselected c h _
      obtain ⟨selected, _, cutoff, hinv, hrow⟩ := hpicked
      have hresolvedAt : row.resolvedAt = none :=
        unresolved_of_status (hinv.2 row (List.mem_filter.mp hrow).1)
          (by rw [hselected.1]; exact nofun)
      have hsound := @turn_sound maxAttempts env row db h.1 h.2 hselected hresolvedAt
      exact ⟨hsound, hsound.unique, hsound.consistent⟩
  exact hkeeps.of_mem

end History

/-! ## Retries of rows that are resolved -/

/-- The posting is fetched, and blocked when its row is retried once more. -/
def resolvedThenBlocked : List HistoryEvent :=
  [
    .record 0 postingFields, .retry postingRetryEnv postingFields.dedupKey,
    .retry { postingRetryEnv with detail := fun _ _ => .error (.blockedFetch 403) }
      postingFields.dedupKey
  ]

/-- The source is fetched, and its second page blocked when its row is retried once more. -/
def resolvedThenReopened : List HistoryEvent :=
  [
    .retry (remotiveRetryEnv quietBoard) "source:1",
    .retry { remotiveRetryEnv secondPageBlocked with retriedAt := 8 } "source:1"
  ]

/-- The first row stays resolved, and the second is open with an instant of resolution. -/
theorem retried_resolved_rows :
    (¬ ∀ step ∈ history 5 bulldogjobDb resolvedThenBlocked, SoundStep 5 step) ∧
      ¬ ∀ step ∈ history 5 blockedPageDb resolvedThenReopened, SoundStep 5 step := by
  constructor
  · intro h
    have hstep := h _ (List.mem_of_getLast? rfl)
    exact hstep.failed _ _ _ rfl ⟨.detailFetchBlocked, _, rfl, rfl⟩ (by rfl)
  · intro h
    have hstep := h _ (List.mem_of_getLast? rfl)
    exact absurd (hstep.consistent _ (List.mem_singleton_self _)) (by decide)

theorem deadLetters_consistent_posting :
    (history 5 bulldogjobDb (resolvedThenBlocked.take 2)).length = 2 ∧
      ∀ step ∈ history 5 bulldogjobDb (resolvedThenBlocked.take 2), SoundStep 5 step := by
  have hunique : KeysUnique bulldogjobDb := List.nodup_nil
  refine ⟨rfl, ?_⟩
  apply deadLetters_consistent hunique fun row hrow => absurd hrow List.not_mem_nil
  intro step hstep
  have hsteps : step ∈ ([
      ⟨.record 0 postingFields, bulldogjobDb, _⟩,
      ⟨.retry postingRetryEnv postingFields.dedupKey, _, _⟩] : List HistoryStep) := hstep
  rcases List.mem_cons.mp hsteps with rfl | hretry
  · exact fun _ _ _ _ hretried => nomatch hretried
  · obtain rfl := List.mem_singleton.mp hretry
    intro env t succeeded s hretried hresolved
    have hopen : some (postingRetryEnv, Tracked.ofStored (postingFields.new 0)) = some (env, t) :=
      hretried
    obtain ⟨rfl, rfl⟩ := Prod.mk.inj (Option.some.inj hopen)
    cases hresolved

end RecruFlow.Dlq
