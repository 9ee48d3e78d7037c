import RecruFlow.Lib.Trace
import RecruFlow.Scheduler.Settings
import RecruFlow.Scheduler.Work

/-!
# Stopped connectors

A run, scheduled or manual, is turned away in `run_with_lifecycle` when its connector
is stopped; a retry may get to the job board, or to the offers, without it.
-/

namespace RecruFlow.Scheduler

open Connectors Db Dlq Ingestion Lib.Outcome Lib.Trace Lib.Transaction

/-- `connector_enabled` is false. -/
def Stopped (source : Source) : Prop :=
  (source.configJson.getD "connector_enabled" (.bool true)).truthy = false

/-- What a source keeps. -/
def identity (source : Source) : Nat × String × Option String :=
  (source.id, source.name, source.connector)

/-- The sources as `ensure_sources_exist` inserts them: each connector has one, under
its name. -/
structure Seeded (sources : List Source) : Prop where
  ids : (sources.map (·.id)).Nodup
  names : (sources.map (·.name)).Nodup
  named : ∀ source ∈ sources, ∀ connector, source.connector = some connector →
    source.name = connector

section Seeded

variable {sources sources' : List Source} {source other : Source} {connector : String}

theorem Seeded.of_identity (h : Seeded sources) (hsame : sources'.map identity = sources.map identity) :
    Seeded sources' := by
  have hids : ∀ sources : List Source, sources.map (·.id) = (sources.map identity).map (·.1) := by
    simp [identity]
  have hnames : ∀ sources : List Source,
      sources.map (·.name) = (sources.map identity).map (·.2.1) := by
    simp [identity]
  refine ⟨?_, ?_, fun source hmem connector hconnector => ?_⟩
  · rw [hids, hsame, ← hids]
    exact h.ids
  · rw [hnames, hsame, ← hnames]
    exact h.names
  · obtain ⟨old, hold, heq⟩ : ∃ old ∈ sources, identity old = identity source :=
      List.mem_map.mp (hsame ▸ List.mem_map_of_mem hmem)
    simp only [identity, Prod.mk.injEq] at heq
    rw [← heq.2.1]
    exact h.named old hold connector (heq.2.2.trans hconnector)

theorem Seeded.eq_of_id (h : Seeded sources) (hsource : source ∈ sources) (hother : other ∈ sources)
    (hid : source.id = other.id) : source = other :=
  List.inj_on_of_nodup_map h.ids hsource hother hid

/-- No two sources have the same connector. -/
theorem Seeded.eq_of_connector (h : Seeded sources) (hsource : source ∈ sources)
    (hother : other ∈ sources) (hconnector : source.connector = some connector)
    (hsame : other.connector = some connector) : source = other := by
  apply List.inj_on_of_nodup_map h.names hsource hother
  calc source.name
      = connector := h.named source hsource connector hconnector
    _ = other.name := (h.named other hother connector hsame).symm

theorem Seeded.find (h : Seeded sources) (hsource : source ∈ sources) {sourceId : Int}
    (hid : sourceId = source.id) :
    sources.find? (fun source => (source.id : Int) = sourceId) = some source := by
  subst hid
  cases hfind : sources.find? (fun other => (other.id : Int) = source.id) with
  | none => exact absurd (decide_eq_true rfl) (List.find?_eq_none.mp hfind source hsource)
  | some other =>
      have hother : (other.id : Int) = source.id := by simpa using List.find?_some hfind
      rw [h.eq_of_id (List.mem_of_find?_eq_some hfind) hsource (by omega)]

end Seeded

/-- The retry of a row gets past the stop of its connector: it fetches a posting, or
stores an offer that no other duplicates. -/
def Bypasses (env : RetryEnv) (row : IngestionFailure) (source : Source) (db : Database) : Prop :=
  match FailureType.ofValue row.failureType with
  | some .detailFetchBlocked => row.url.isSome = true ∧
      ∃ connector, source.connector = some connector ∧
        (detailRetry env.registry connector).isSome = true
  | some .validationFailed => ∃ rawPayload offer, row.rawPayload = some rawPayload ∧
      Schemas.Offer.modelValidate env.pydantic rawPayload = some offer ∧
        ¬ Represented env.text offer db.offers
  | some .pageFetchFailed | some .runFetchFailed | some .scoringFailed | none => False

section Stopped

variable {db : Database} {source : Source} {connector : String} {request : BoardRequest}

/-- The check of `run_with_lifecycle` turns a stopped connector away. -/
theorem lifecycleRequests_stopped (hseeded : Seeded db.sources) (hsource : source ∈ db.sources)
    (hstopped : Stopped source) (hrequest : request ∈ lifecycleRequests connector db) :
    source.connector ≠ some request.connector := by
  intro hconnector
  unfold lifecycleRequests at hrequest
  split at hrequest
  · cases hrequest
  · next resolved hresolve =>
    split at hrequest
    · next henabled =>
      obtain rfl := List.mem_singleton.mp hrequest
      obtain ⟨hresolved, hsame⟩ := resolveSourceByConnector_ok hresolve
      obtain rfl := hseeded.eq_of_connector hsource hresolved hconnector hsame
      exact absurd henabled (Bool.eq_false_iff.mp hstopped)
    · cases hrequest

theorem lifecycleRequests_eq_nil (hseeded : Seeded db.sources) (hsource : source ∈ db.sources)
    (hstopped : Stopped source) (hconnector : source.connector = some connector) :
    lifecycleRequests connector db = [] := by
  refine List.eq_nil_iff_forall_not_mem.mpr fun request hrequest => ?_
  refine lifecycleRequests_stopped hseeded hsource hstopped hrequest (hconnector.trans ?_)
  unfold lifecycleRequests at hrequest
  split at hrequest
  · cases hrequest
  · split at hrequest
    · rw [List.mem_singleton.mp hrequest]
      rfl
    · cases hrequest

theorem beforeDispatch_stopped {env : ScheduledEnv} {triggerType : String}
    (hresolve : resolveSourceByConnector db.sources connector = .ok source)
    (hstopped : Stopped source) :
    beforeDispatch env connector triggerType db = .error (.connectorDisabled, db) := by
  have hcheck : (source.configJson.getD "connector_enabled" (.bool true)).truthy = false := hstopped
  simp [beforeDispatch, hresolve, hcheck, bind, Except.bind, Except.mapError]

theorem runWithLifecycle_stopped {env : RunEnv} {caller : Caller} {registry : Registry} {now : Int}
    (hresolve : resolveSourceByConnector db.sources connector = .ok source)
    (hstopped : Stopped source) :
    runWithLifecycle env caller registry now connector db = .error (.connectorDisabled, db) := by
  have hcheck : (source.configJson.getD "connector_enabled" (.bool true)).truthy = false := hstopped
  simp [runWithLifecycle, hresolve, hcheck, bind, Except.bind, Except.mapError]

section Retry

variable {env : RetryEnv} {t : Tracked}

/-- Neither the offers nor what is committed has changed. -/
def OffersUnchanged (db : Database) (s : Session) : Prop :=
  s.committed = db ∧ s.working.offers = db.offers

theorem offersUnchanged_kept : KeptByRow (fun _ => True) (OffersUnchanged db) where
  rejected _ h := h
  row _ _ _ h := h

theorem OffersUnchanged.commit {s : Session} (h : OffersUnchanged db s) :
    (commit s).offers = db.offers := by
  unfold Lib.Transaction.commit
  split
  · rw [h.1]
  · exact h.2

theorem afterRetry_offers {outcome : Retrying (Tracked × Session)}
    (h : Ends (OffersUnchanged db) (·.2) (·.2) outcome) : (afterRetry outcome).offers = db.offers := by
  cases outcome with
  | error halted => exact congrArg Database.offers h.1
  | ok r => exact OffersUnchanged.commit h

/-- An offer that is represented is not stored, however the call ends. -/
theorem persistOffer_unchanged {ingestEnv : IngestEnv} {offer : Schemas.Offer} {rawPayload : Dict}
    {s : Session} (hrepresented : Represented ingestEnv.text offer db.offers)
    (h : OffersUnchanged db s) :
    Ends (OffersUnchanged db) (·.2) (·.2) (persistOffer ingestEnv offer rawPayload s) := by
  refine persistOffer_ends (fun _ => h) fun result w' _ hreturned => ?_
  have hbefore : Represented ingestEnv.text offer s.working.offers := by
    rw [h.2]
    exact hrepresented
  have hsame : w' = s.working := (persistOffer_ok hreturned).unchanged hbefore
  rw [hsame]
  exact h

theorem retryValidationFailed_unchanged (htype : FailureType.ofValue t.row.failureType =
      some .validationFailed) (hnot : ¬ Bypasses env t.row source db) :
    Ends (OffersUnchanged db) (·.2) (·.2.2) (retryValidationFailed env t (.opened db)) := by
  have hopened : OffersUnchanged db (.opened db) := ⟨rfl, rfl⟩
  unfold retryValidationFailed
  split
  · exact hopened
  · next rawPayload hpayload =>
    split
    · exact hopened
    · next offer hvalid =>
      have hrepresented : Represented env.text offer db.offers := by
        by_contra hnew
        refine hnot ?_
        unfold Bypasses
        rw [htype]
        exact ⟨rawPayload, offer, hpayload, hvalid, hnew⟩
      refine ends_bind (flush_keeps offersUnchanged_kept trivial hopened) fun r hr => ?_
      exact ends_bind (persistOffer_unchanged hrepresented hr) fun r hr => hr

theorem retryDetailFetchBlocked_unchanged (hseeded : Seeded db.sources)
    (hsource : source ∈ db.sources) (hid : t.row.sourceId = source.id)
    (htype : FailureType.ofValue t.row.failureType = some .detailFetchBlocked)
    (hnot : ¬ Bypasses env t.row source db) :
    detailRetryRequests env t (.opened db) = [] ∧
      Ends (OffersUnchanged db) (·.2) (·.2.2) (retryDetailFetchBlocked env t (.opened db)) := by
  have hget : Ends (OffersUnchanged db) (fun raised : Raised => raised.2) (·.2.2)
      (getSource env t (.opened db)) := getSource_keeps offersUnchanged_kept trivial ⟨rfl, rfl⟩
  unfold detailRetryRequests retryDetailFetchBlocked
  cases hgot : getSource env t (.opened db) with
  | error raised =>
      rw [hgot] at hget
      exact ⟨rfl, hget⟩
  | ok r =>
      obtain ⟨⟨found, connector⟩, t', s'⟩ := r
      rw [hgot] at hget
      obtain ⟨hfound, hconnector, rfl, _, rfl⟩ := getSource_ok hgot
      obtain rfl := Option.some.inj ((hseeded.find hsource hid).symm.trans hfound)
      -- a url and a hook would let the retry through
      have hstops : t.row.url = none ∨ detailRetry env.registry connector = none := by
        cases hurl : t.row.url with
        | none => exact .inl rfl
        | some url =>
            cases hhook : detailRetry env.registry connector with
            | none => exact .inr rfl
            | some mapOffer =>
                refine absurd ?_ hnot
                unfold Bypasses
                rw [htype]
                exact ⟨by rw [hurl]; rfl, connector, hconnector, by rw [hhook]; rfl⟩
      constructor
      · dsimp only
        rcases hstops with hurl | hhook
        · rw [Tracked.ofStored_row, hurl]
        · rw [hhook]
          split <;> simp_all
      · dsimp only [bind, Except.bind]
        rcases hstops with hurl | hhook
        · rw [Tracked.ofStored_row, hurl]
          exact hget
        · split
          · exact hget
          · split
            · exact hget
            · rw [hhook]
              exact hget

theorem retryFetchFailed_unchanged (hseeded : Seeded db.sources) (hsource : source ∈ db.sources)
    (hstopped : Stopped source) (hid : t.row.sourceId = source.id) :
    fetchRetryRequests env t (.opened db) = [] ∧
      Ends (OffersUnchanged db) (·.2) (·.2.2) (retryFetchFailed env t (.opened db)) := by
  have hget : Ends (OffersUnchanged db) (fun raised : Raised => raised.2) (·.2.2)
      (getSource env t (.opened db)) := getSource_keeps offersUnchanged_kept trivial ⟨rfl, rfl⟩
  unfold fetchRetryRequests retryFetchFailed
  cases hgot : getSource env t (.opened db) with
  | error raised =>
      rw [hgot] at hget
      exact ⟨rfl, hget⟩
  | ok r =>
      obtain ⟨⟨found, connector⟩, t', s'⟩ := r
      rw [hgot] at hget
      obtain ⟨hfound, hconnector, rfl, _, rfl⟩ := getSource_ok hgot
      obtain rfl := Option.some.inj ((hseeded.find hsource hid).symm.trans hfound)
      have hnone : lifecycleRequests connector db = [] :=
        lifecycleRequests_eq_nil hseeded hsource hstopped hconnector
      obtain ⟨e, hundispatched⟩ := triggerIngest_undispatched hnone
      have htriggered : triggerIngest env.toRunEnv env.registry env.fetchedAt connector
          (Session.opened db).committed = ⟨.error e, .opened db, db⟩ := hundispatched _ _ _
      refine ⟨hnone, ?_⟩
      dsimp only [raising, Except.mapError, bind, Except.bind]
      rw [htriggered]
      split
      · exact hget
      · exact ⟨rfl, rfl⟩

/-- The retry of a row of a stopped connector asks nothing and stores nothing, unless
it gets past the stop. -/
theorem retry_stopped (hseeded : Seeded db.sources) (hsource : source ∈ db.sources)
    (hstopped : Stopped source) (hid : t.row.sourceId = source.id)
    (hnot : ¬ Bypasses env t.row source db) :
    retryRequests env t (.opened db) = [] ∧
      (afterRetry (performRetry env t (.opened db))).offers = db.offers := by
  have hfetch := @retryFetchFailed_unchanged db source env t hseeded hsource hstopped hid
  have hopened : OffersUnchanged db (.opened db) := ⟨rfl, rfl⟩
  constructor
  · unfold retryRequests
    split
    · exact hfetch.1
    · exact hfetch.1
    · next htype =>
      exact (retryDetailFetchBlocked_unchanged hseeded hsource hid htype hnot).1
    all_goals rfl
  · refine afterRetry_offers (performRetry_keeps offersUnchanged_kept heldByRetry_all trivial hopened
      fun failureType htype => ?_)
    cases failureType with
    | validationFailed => exact raising_ends (retryValidationFailed_unchanged htype hnot)
    | pageFetchFailed => exact hfetch.2
    | runFetchFailed => exact hfetch.2
    | scoringFailed => exact hopened
    | detailFetchBlocked =>
        exact raising_ends (retryDetailFetchBlocked_unchanged hseeded hsource hid htype hnot).2

/-- Nor does the retry of another row ask the board of a stopped connector. -/
theorem retryRequests_stopped (hseeded : Seeded db.sources) (hsource : source ∈ db.sources)
    (hstopped : Stopped source)
    (hnot : t.row.sourceId = source.id → ¬ Bypasses env t.row source db) {request : BoardRequest}
    (hrequest : request ∈ retryRequests env t (.opened db)) :
    source.connector ≠ some request.connector := by
  by_cases hid : t.row.sourceId = source.id
  · rw [(retry_stopped hseeded hsource hstopped hid (hnot hid)).1] at hrequest
    cases hrequest
  · have hfetch : request ∈ fetchRetryRequests env t (.opened db) →
        source.connector ≠ some request.connector := by
      intro hrequest
      unfold fetchRetryRequests at hrequest
      split at hrequest
      · cases hrequest
      · next hgot =>
        obtain ⟨_, _, _, _, rfl⟩ := getSource_ok hgot
        exact lifecycleRequests_stopped hseeded hsource hstopped hrequest
    unfold retryRequests at hrequest
    split at hrequest
    · exact hfetch hrequest
    · exact hfetch hrequest
    · unfold detailRetryRequests at hrequest
      split at hrequest
      · cases hrequest
      · next found connector t' s' hgot =>
        obtain ⟨hfound, hconnector, _⟩ := getSource_ok hgot
        split at hrequest
        · obtain rfl := List.mem_singleton.mp hrequest
          intro hsame
          have hother : found ∈ db.sources := List.mem_of_find?_eq_some hfound
          obtain rfl := hseeded.eq_of_connector hsource hother hsame hconnector
          have hfoundId : (source.id : Int) = t.row.sourceId := by simpa using List.find?_some hfound
          exact hid hfoundId.symm
        · cases hrequest
    all_goals cases hrequest

end Retry

end Stopped

/-- Work that starts with a stopped connector asks its job board nothing, and stores
nothing in what it does on the source. -/
def LeavesAlone (source : Source) (w : Work) (db : Database) : Prop :=
  ∀ piece ∈ w.pieces db,
    (piece.sourceId = source.id →
      piece.requests = [] ∧ piece.after.offers = piece.before.offers) ∧
    ∀ request ∈ piece.requests, source.connector ≠ some request.connector

/-- No retry of a row of the source gets past its stop. -/
def StopHolds (source : Source) : Work → Database → Prop
  | .scheduled .., _ | .ingest .., _ => True
  | .tick envs cutoff _, db => ∀ number, ∀ row : IngestionFailure,
      (eligibleRows cutoff db)[number]? = some row → row.sourceId = source.id →
        ¬ Bypasses (envs number) row source db
  | .retry env key, db => ∀ row : IngestionFailure, storedFailure key db = some row →
      row.sourceId = source.id → ¬ Bypasses env row source db

section Work

variable {db : Database} {source : Source}

/-- What the turns of a tick keep that start with a stopped connector. -/
def StillStopped (source : Source) (start db : Database) : Prop :=
  source ∈ db.sources ∧ Seeded db.sources ∧ start.offers <+: db.offers

theorem mem_updated {sources : List Source} {sourceId : Nat} {f : Source → Source}
    (hsource : source ∈ sources) (hother : sourceId ≠ source.id) :
    source ∈ sources.map fun source => if source.id = sourceId then f source else source :=
  List.mem_map.mpr ⟨source, hsource, if_neg (Ne.symm hother)⟩

theorem identity_updated {sources : List Source} {sourceId : Nat} {f : Source → Source}
    (hf : ∀ source, identity (f source) = identity source) :
    (sources.map fun source => if source.id = sourceId then f source else source).map identity =
      sources.map identity := by
  rw [List.map_map]
  refine List.map_congr_left fun source _ => ?_
  simp only [Function.comp_apply]
  split
  · exact hf source
  · rfl

theorem stillStopped_kept {start : Database} :
    KeptByRetry (· ≠ source.id) (fun _ => True) (StillStopped source start) where
  offer db row h := ⟨h.1, h.2.1, h.2.2.trans (List.prefix_append _ _)⟩
  failure _ _ _ h := h
  config db db' sourceId configJson hother hdone h := by
    rw [← Attempt.done.inj hdone]
    exact ⟨mem_updated h.1 hother, h.2.1.of_identity (identity_updated fun _ => rfl), h.2.2⟩
  stamped db db' sourceId now hother hdone h := by
    rw [← Attempt.done.inj hdone]
    exact ⟨mem_updated h.1 hother, h.2.1.of_identity (identity_updated fun _ => rfl), h.2.2⟩
  row _ _ _ h := h

/-- No ingestion of a stopped connector is dispatched. -/
theorem not_dispatched (hstopped : Stopped source) (hseeded : Seeded db.sources)
    (hsource : source ∈ db.sources) {row : IngestionFailure} {sourceId : Nat}
    (h : RetryDispatches row db sourceId) : sourceId ≠ source.id := by
  obtain ⟨_, connector, _, _, resolved, hresolve, henabled, rfl⟩ := h
  intro hid
  obtain rfl := hseeded.eq_of_id (resolveSourceByConnector_ok hresolve).1 hsource hid
  exact absurd henabled (Bool.eq_false_iff.mp hstopped)

theorem Bypasses.of_appended {env : RetryEnv} {row : IngestionFailure} {later : Database}
    (happends : db.offers <+: later.offers) (h : Bypasses env row source later) :
    Bypasses env row source db := by
  unfold Bypasses at h ⊢
  split at h
  · exact h
  · obtain ⟨rawPayload, offer, hpayload, hvalid, hnew⟩ := h
    exact ⟨rawPayload, offer, hpayload, hvalid, fun hold => hnew (hold.mono happends)⟩
  all_goals exact h

/-- A turn of a tick. -/
theorem turn_stopped {env : RetryEnv} {maxAttempts : Int} {row : IngestionFailure}
    (hseeded : Seeded db.sources) (hsource : source ∈ db.sources) (hstopped : Stopped source)
    (hnot : row.sourceId = source.id → ¬ Bypasses env row source db) :
    (row.sourceId = source.id → turnRequests env maxAttempts row db = [] ∧
        (afterRetry (treatRow env maxAttempts row (.opened db))).offers = db.offers) ∧
      ∀ request ∈ turnRequests env maxAttempts row db, source.connector ≠ some request.connector := by
  have hopened : OffersUnchanged db (.opened db) := ⟨rfl, rfl⟩
  unfold turnRequests treatRow
  split
  · refine ⟨fun _ => ⟨rfl, ?_⟩, fun request hrequest => nomatch hrequest⟩
    exact afterRetry_offers (raising_ends (flush_keeps offersUnchanged_kept trivial hopened))
  · refine ⟨fun hid => ?_, fun request hrequest => ?_⟩
    · exact retry_stopped (t := attemptedRow row) hseeded hsource hstopped hid (hnot hid)
    · exact retryRequests_stopped (t := attemptedRow row) hseeded hsource hstopped hnot hrequest

theorem work_stopped {w : Work} (hseeded : Seeded db.sources) (hsource : source ∈ db.sources)
    (hstopped : Stopped source) (hholds : StopHolds source w db) : LeavesAlone source w db := by
  intro piece hpiece
  cases w with
  | scheduled env registry connector triggerType =>
      unfold Work.pieces at hpiece
      dsimp only at hpiece
      split at hpiece
      · cases hpiece
      · next resolved hresolve =>
        obtain rfl := List.mem_singleton.mp hpiece
        have hmem := resolveSourceByConnector_ok hresolve
        refine ⟨fun hid => ?_, fun request hrequest => ?_⟩
        · have hid : resolved.id = source.id := Int.ofNat.inj hid
          obtain rfl := hseeded.eq_of_id hmem.1 hsource hid
          have hturned : beforeDispatch env connector triggerType db =
              .error (.connectorDisabled, db) := beforeDispatch_stopped hresolve hstopped
          constructor
          · simp only [scheduledRequests, hturned]
          · simp only [runSourceAsync, hturned, bind, Except.bind, databaseAfter]
        · intro hconnector
          unfold scheduledRequests at hrequest
          split at hrequest
          · cases hrequest
          · next hstarted =>
            obtain rfl := List.mem_singleton.mp hrequest
            obtain rfl := hseeded.eq_of_connector hsource hmem.1 hconnector hmem.2
            rw [beforeDispatch_stopped hresolve hstopped] at hstarted
            cases hstarted
  | ingest env registry fetchedAt connector forceRefresh =>
      unfold Work.pieces at hpiece
      dsimp only at hpiece
      split at hpiece
      · cases hpiece
      · next resolved hresolve =>
        obtain rfl := List.mem_singleton.mp hpiece
        have hmem := resolveSourceByConnector_ok hresolve
        refine ⟨fun hid => ?_, fun request hrequest =>
          lifecycleRequests_stopped hseeded hsource hstopped hrequest⟩
        have hid : resolved.id = source.id := Int.ofNat.inj hid
        obtain rfl := hseeded.eq_of_id hmem.1 hsource hid
        refine ⟨lifecycleRequests_eq_nil hseeded hsource hstopped hmem.2, ?_⟩
        dsimp only
        rw [runWithLifecycle_stopped hresolve hstopped]
        rfl
  | tick envs cutoff maxAttempts =>
      obtain ⟨turn, hturn, rfl⟩ := List.mem_map.mp hpiece
      have hkept : KeptByRetry (· ≠ source.id) (fun _ => True) (StillStopped source db) := stillStopped_kept
      obtain ⟨hbefore, _, hafter, _, hrow⟩ := turns_both hkept
        (fun row db' sourceId h => not_dispatched hstopped h.2.1 h.1)
        ⟨hsource, hseeded, List.prefix_rfl⟩ hturn
      have hnot : turn.row.sourceId = source.id →
          ¬ Bypasses (envs turn.number) turn.row source turn.before :=
        fun hid hbypass => hholds turn.number turn.row hrow hid (hbypass.of_appended hbefore.2.2)
      have hleft := @turn_stopped turn.before source (envs turn.number) maxAttempts turn.row
        hbefore.2.1 hbefore.1 hstopped hnot
      rw [← hafter] at hleft
      exact hleft
  | retry env key =>
      unfold Work.pieces at hpiece
      dsimp only at hpiece
      split at hpiece
      · cases hpiece
      · next row hrow =>
        obtain rfl := List.mem_singleton.mp hpiece
        have hnot := hholds row hrow
        exact ⟨fun hid => retry_stopped (t := .ofStored row) hseeded hsource hstopped hid (hnot hid),
          fun request hrequest =>
            retryRequests_stopped (t := .ofStored row) hseeded hsource hstopped hnot hrequest⟩

end Work

/-- What happens to the database, one thing after another. -/
inductive Event where
  | work (w : Work)
  /-- A setting of one source, or of all of them. -/
  | setKey (key : String) (value : PyValue) (connector : String)
  | setAllKeys (key : String) (value : PyValue)
  /-- What else the program does, which does not write the sources. -/
  | elsewhere (db : Database)

def happen (db : Database) : Event → Option Database
  | .work w => some (w.after db)
  | .setKey key value connector =>
      match setSourceKey key value db.sources connector with
      | .error _ => some db
      | .ok (_, sources) => some { db with sources }
  | .setAllKeys key value => some { db with sources := (setAllSourceKeys key value db.sources).2 }
  | .elsewhere db' => if db'.sources = db.sources then some db' else none

section Events

variable {start db db' : Database} {event : Event} {events : List Event} {w : Work}
  {source : Source}

theorem seeded_kept : KeptByRetry (fun _ => True) (fun _ => True) (Seeded ·.sources) where
  offer _ _ h := h
  failure _ _ _ h := h
  config db db' sourceId configJson _ hdone h := by
    rw [← Attempt.done.inj hdone]
    exact h.of_identity (identity_updated fun _ => rfl)
  stamped db db' sourceId now _ hdone h := by
    rw [← Attempt.done.inj hdone]
    exact h.of_identity (identity_updated fun _ => rfl)
  row _ _ _ h := h

theorem setSourceKey_seeded {key connector : String} {value : PyValue} {changed : Source}
    {sources after : List Source} (h : Seeded sources)
    (hset : setSourceKey key value sources connector = .ok (changed, after)) : Seeded after := by
  obtain ⟨row, hrow, _⟩ := bind_ok hset
  have hmem : row ∈ sources := (resolveSourceByConnector_ok hrow).1
  rw [setSourceKey_of_resolve hrow] at hset
  obtain ⟨_, rfl⟩ := Prod.mk.inj (Except.ok.inj hset)
  refine h.of_identity ?_
  rw [List.map_map]
  refine List.map_congr_left fun other hother => ?_
  simp only [Function.comp_apply]
  split
  · next hid => rw [h.eq_of_id hother hmem hid]; rfl
  · rfl

theorem happen_seeded (h : Seeded db.sources) (hstep : happen db event = some db') :
    Seeded db'.sources := by
  cases event with
  | work w =>
      rw [← Option.some.inj hstep]
      exact Work.after_keeps seeded_kept (fun _ _ _ hdb => hdb) h
  | setKey key value connector =>
      dsimp only [happen] at hstep
      split at hstep
      · rw [← Option.some.inj hstep]
        exact h
      · next hset =>
        rw [← Option.some.inj hstep]
        exact setSourceKey_seeded h hset
  | setAllKeys key value =>
      rw [← Option.some.inj hstep]
      refine h.of_identity ?_
      dsimp only [setAllSourceKeys]
      rw [List.map_map]
      refine List.map_congr_left fun other _ => ?_
      simp only [Function.comp_apply]
      split <;> rfl
  | elsewhere after =>
      dsimp only [happen] at hstep
      split at hstep
      · next hsame =>
        rw [← Option.some.inj hstep, hsame]
        exact h
      · cases hstep

/-- In every state that is reached, work leaves a stopped connector alone, unless it
retries a row of it that gets past its stop. -/
theorem stopped_connector_left_alone (hseeded : Seeded start.sources)
    (hreach : Reaches happen start events db) (hsource : source ∈ db.sources)
    (hstopped : Stopped source) (hholds : StopHolds source w db) : LeavesAlone source w db := by
  have hreached : Seeded db.sources :=
    @invariant _ _ happen (Seeded ·.sources) start db events (fun _ _ _ => happen_seeded) hseeded
      hreach
  exact work_stopped hreached hsource hstopped hholds

end Events

/-! ## A blocked posting of a connector that is then stopped -/

def bulldogRetryEnv (detail : Option Dict) : RetryEnv :=
  { acmeRunEnv with
    registry := quietRegistry
    detail := fun _ _ => .ok detail
    fetchedAt := 6
    retriedAt := 7 }

def bulldogSource (enabled : Bool) : Source :=
  { id := 1
    name := "bulldogjob"
    connector := some "bulldogjob"
    configJson := ⟨[("connector_enabled", .bool enabled)]⟩
    lastFetchedAt := none }

def blockedPosting (url : Option String) : IngestionFailure :=
  { dedupKey := "source:1:detail_url:a"
    failureType := FailureType.detailFetchBlocked.value
    errorMessage := "Bulldogjob detail fetch blocked: HTTP 403"
    rawPayload := none
    status := .open
    occurredAt := -5
    resolvedAt := none
    sourceId := 1
    schedulerRunId := none
    page := none
    url
    blockedStatus := some 403
    retryCount := 0 }

def bulldogDb (enabled : Bool) (url : Option String) : Database :=
  { sources := [bulldogSource enabled]
    ingestionFailures := [blockedPosting url] }

def stopBulldog : Event := .setKey "connector_enabled" (.bool false) "bulldogjob"

theorem bulldogDb_seeded {enabled : Bool} {url : Option String} :
    Seeded (bulldogDb enabled url).sources where
  ids := List.nodup_singleton _
  names := List.nodup_singleton _
  named source hsource connector hconnector := by
    rw [List.mem_singleton.mp hsource] at hconnector ⊢
    exact Option.some.inj hconnector

theorem bulldogDb_stopped {url : Option String} :
    Reaches happen (bulldogDb true url) [stopBulldog] (bulldogDb false url) :=
  .last (by rfl)

/-- Its retry fetches the posting, and stores the offer. -/
theorem retry_bypasses_stop :
    let work := Work.retry (bulldogRetryEnv (some (acmeFields "a"))) "source:1:detail_url:a"
    let db := bulldogDb false (some "https://bulldogjob.pl/a")
    Seeded (bulldogDb true (some "https://bulldogjob.pl/a")).sources ∧
      Reaches happen (bulldogDb true (some "https://bulldogjob.pl/a")) [stopBulldog] db ∧
      bulldogSource false ∈ db.sources ∧ Stopped (bulldogSource false) ∧
      (work.pieces db).flatMap (·.requests) = [.detail "bulldogjob" "https://bulldogjob.pl/a"] ∧
      (work.after db).offers.length = 1 ∧
      ¬ LeavesAlone (bulldogSource false) work db := by
  intro work db
  have hpieces : (work.pieces db).flatMap (·.requests) =
      [.detail "bulldogjob" "https://bulldogjob.pl/a"] := by rfl
  refine ⟨bulldogDb_seeded, bulldogDb_stopped, List.mem_singleton_self _, rfl, hpieces, by rfl, ?_⟩
  intro hleft
  obtain ⟨piece, hpiece, hrequest⟩ :=
    List.mem_flatMap.mp (hpieces ▸ List.mem_singleton_self (BoardRequest.detail _ _))
  exact (hleft piece hpiece).2 _ hrequest rfl

theorem stopped_connector_left_alone_bulldog :
    LeavesAlone (bulldogSource false)
      (.retry (bulldogRetryEnv (some (acmeFields "a"))) "source:1:detail_url:a")
      (bulldogDb false none) := by
  apply stopped_connector_left_alone bulldogDb_seeded bulldogDb_stopped (List.mem_singleton_self _) rfl
  intro row hrow _ hbypass
  have hsame : some (blockedPosting none) = some row := hrow
  obtain rfl := Option.some.inj hsame
  exact absurd hbypass.1 (by decide)

end RecruFlow.Scheduler
