import RecruFlow.Dlq.RetryFrame
import RecruFlow.Scheduler.SourceRuns

/-!
# Work on the sources

Work on a source starts in five ways: its job, two routes, a tick of the retry job
and the retry of a row. What it asks of the job boards is followed up to the fetch.
-/

namespace RecruFlow.Scheduler

open Connectors Db Dlq Ingestion Lib.Outcome Lib.Transaction

/-- What is asked of a job board: a run of its connector, or a posting of it. -/
inductive BoardRequest where
  | run (connector : String)
  | detail (connector url : String)
  deriving DecidableEq

def BoardRequest.connector : BoardRequest → String
  | run connector | detail connector _ => connector

section Requests

/-- `run_with_lifecycle`, up to its dispatch. -/
def lifecycleRequests (connector : String) (db : Database) : List BoardRequest :=
  match resolveSourceByConnector db.sources connector with
  | .error _ => []
  | .ok source =>
      if (source.configJson.getD "connector_enabled" (.bool true)).truthy then [.run connector]
      else []

/-- `_run_source_async`, up to its dispatch. -/
def scheduledRequests (env : ScheduledEnv) (connector triggerType : String) (db : Database) :
    List BoardRequest :=
  match beforeDispatch env connector triggerType db with
  | .error _ => []
  | .ok _ => [.run connector]

variable (env : RetryEnv) (t : Tracked) (s : Session)

/-- `_retry_fetch_failed`, up to the ingestion that it triggers. -/
def fetchRetryRequests : List BoardRequest :=
  match getSource env t s with
  | .error _ => []
  | .ok ((_, connector), _, s) => lifecycleRequests connector s.committed

/-- `_retry_detail_fetch_blocked`, up to `detail_retry`. -/
def detailRetryRequests : List BoardRequest :=
  match getSource env t s with
  | .error _ => []
  | .ok ((_, connector), t, _) =>
      match t.row.url, findConnector connector, detailRetry env.registry connector with
      | some url, some _, some _ => [.detail connector url]
      | _, _, _ => []

/-- What a retry asks of the job boards. -/
def retryRequests : List BoardRequest :=
  match FailureType.ofValue t.row.failureType with
  | some .pageFetchFailed | some .runFetchFailed => fetchRetryRequests env t s
  | some .detailFetchBlocked => detailRetryRequests env t s
  | some .validationFailed | some .scoringFailed | none => []

def turnRequests (maxAttempts : Int) (row : IngestionFailure) (db : Database) :
    List BoardRequest :=
  if Exhausted maxAttempts row then [] else retryRequests env (attemptedRow row) (.opened db)

end Requests

/-- The ways in which work on a source starts, with what surrounds it. -/
inductive Work where
  /-- The job of a source, or `POST /scheduler/run/{source}`. -/
  | scheduled (env : ScheduledEnv) (registry : Registry) (connector triggerType : String)
  /-- `POST /ingest/{source}` -/
  | ingest (env : RunEnv) (registry : Registry) (fetchedAt : Int) (connector : String)
      (forceRefresh : Bool)
  /-- A tick of `dlq:retry_403`. -/
  | tick (envs : Nat → RetryEnv) (cutoff maxAttempts : Int)
  /-- `POST /failures/ingestion/{id}/retry`, with the key of the row. -/
  | retry (env : RetryEnv) (key : String)

/-- A piece of work on one source, what it asks of the job boards, and the database
before and after it. -/
structure Piece where
  sourceId : Int
  requests : List BoardRequest
  before : Database
  after : Database

/-- The database that a run leaves, however it ends. -/
def lifecycleAfter : Except (PyError × Database) RunReport → Database
  | .error (_, db) => db
  | .ok report => report.db

namespace Work

/-- Work is in one piece, but for the turns of a tick. A source or a row that is not
found is answered with 404. -/
def pieces : Work → Database → List Piece
  | scheduled env registry connector triggerType, db =>
      match resolveSourceByConnector db.sources connector with
      | .error _ => []
      | .ok source =>
          [⟨source.id, scheduledRequests env connector triggerType db, db,
            databaseAfter (runSourceAsync env registry connector triggerType db)⟩]
  | ingest env registry fetchedAt connector forceRefresh, db =>
      match resolveSourceByConnector db.sources connector with
      | .error _ => []
      | .ok source =>
          [⟨source.id, lifecycleRequests connector db, db,
            lifecycleAfter
              (runWithLifecycle env ⟨none, false, forceRefresh⟩ registry fetchedAt connector db)⟩]
  | tick envs cutoff maxAttempts, db =>
      (turns envs maxAttempts 0 (eligibleRows cutoff db) db).map fun turn =>
        ⟨turn.row.sourceId, turnRequests (envs turn.number) maxAttempts turn.row turn.before,
          turn.before, turn.after⟩
  | retry env key, db =>
      match storedFailure key db with
      | none => []
      | some row =>
          [⟨row.sourceId, retryRequests env (.ofStored row) (.opened db), db,
            afterRetry (performRetry env (.ofStored row) (.opened db))⟩]

/-- The database after the work. -/
def after (w : Work) (db : Database) : Database :=
  ((w.pieces db).getLast?.map (·.after)).getD db

end Work

section Silent

variable {env : RetryEnv} {t : Tracked} {db : Database} {connector : String}

/-- An ingestion that is not dispatched ends with an exception, whatever surrounds it. -/
theorem triggerIngest_undispatched (h : lifecycleRequests connector db = []) :
    ∃ e, ∀ env registry fetchedAt,
      triggerIngest env registry fetchedAt connector db = ⟨.error e, .opened db, db⟩ := by
  unfold lifecycleRequests at h
  split at h
  · next e hresolve => exact ⟨e, fun env registry fetchedAt => by rw [triggerIngest, hresolve]⟩
  · next resolved hresolve =>
    split at h
    · cases h
    · next hdisabled =>
      refine ⟨.connectorDisabled, fun env registry fetchedAt => ?_⟩
      rw [triggerIngest, hresolve]
      exact if_neg hdisabled

variable (registry : Registry) (detail : String → String → Except PyError (Option Dict))

theorem retryFetchFailed_silent (h : fetchRetryRequests env t (.opened db) = []) :
    retryFetchFailed { env with registry, detail } t (.opened db) =
      retryFetchFailed env t (.opened db) := by
  have hsame : getSource { env with registry, detail } t (.opened db) =
      getSource env t (.opened db) := rfl
  unfold fetchRetryRequests at h
  unfold retryFetchFailed
  rw [hsame]
  cases hgot : getSource env t (.opened db) with
  | error raised => rfl
  | ok r =>
      obtain ⟨⟨found, connector⟩, t', s'⟩ := r
      obtain ⟨_, _, rfl, _, rfl⟩ := getSource_ok hgot
      rw [hgot] at h
      obtain ⟨e, hundispatched⟩ := triggerIngest_undispatched h
      dsimp only [raising, Except.mapError, bind, Except.bind] at hundispatched ⊢
      simp only [hundispatched]

theorem detailRetry_eq_none_iff {registry' : Registry} :
    detailRetry registry connector = none ↔ detailRetry registry' connector = none := by
  unfold detailRetry
  split <;> simp

theorem retryDetailFetchBlocked_silent (h : detailRetryRequests env t (.opened db) = []) :
    retryDetailFetchBlocked { env with registry, detail } t (.opened db) =
      retryDetailFetchBlocked env t (.opened db) := by
  have hsame : getSource { env with registry, detail } t (.opened db) =
      getSource env t (.opened db) := rfl
  unfold detailRetryRequests at h
  unfold retryDetailFetchBlocked
  rw [hsame]
  cases hgot : getSource env t (.opened db) with
  | error raised => rfl
  | ok r =>
      obtain ⟨⟨found, connector⟩, t', s'⟩ := r
      rw [hgot] at h
      dsimp only [bind, Except.bind] at h ⊢
      cases hurl : t'.row.url with
      | none => rfl
      | some url =>
          cases hspec : findConnector connector with
          | none => rfl
          | some spec =>
              cases hhook : detailRetry env.registry connector with
              | none =>
                  have hnone : detailRetry registry connector = none :=
                    (detailRetry_eq_none_iff env.registry).mp hhook
                  simp only [hnone]
              | some mapOffer =>
                  rw [hurl, hspec, hhook] at h
                  cases h

/-- A retry that asks nothing does not depend on what the job boards answer. -/
theorem performRetry_silent (h : retryRequests env t (.opened db) = []) :
    performRetry { env with registry, detail } t (.opened db) = performRetry env t (.opened db) := by
  unfold performRetry
  split
  · rfl
  · next failureType htype =>
    have hhandler : retryHandler { env with registry, detail } t (.opened db) failureType =
        retryHandler env t (.opened db) failureType := by
      unfold retryRequests at h
      rw [htype] at h
      cases failureType with
      | validationFailed => rfl
      | pageFetchFailed => exact retryFetchFailed_silent registry detail h
      | runFetchFailed => exact retryFetchFailed_silent registry detail h
      | scoringFailed => rfl
      | detailFetchBlocked =>
          have hdetail := retryDetailFetchBlocked_silent registry detail h
          exact congrArg raising hdetail
    rw [hhandler]
    rfl

end Silent

section Frame

variable {Q : Database → Prop} {registry : Registry} {connector : String} {db : Database}

/-- What a run of `run_with_lifecycle` keeps of the database. -/
theorem runWithLifecycle_keeps {env : RunEnv} {caller : Caller} {now : Int}
    (hkept : KeptByRetry (fun _ => True) (fun _ => True) Q) (h : Q db) :
    Q (lifecycleAfter (runWithLifecycle env caller registry now connector db)) := by
  have hwrites : KeptByWrites env (fun _ => True) (fun _ => True) (Both Q) := hkept.both
  unfold runWithLifecycle
  cases resolveSourceByConnector db.sources connector with
  | error e => exact h
  | ok source =>
      dsimp only [bind, Except.bind, Except.mapError]
      split
      · split
        · exact h
        · next run _ =>
          have hrun : RunEnds (Both Q)
              (run.run env source caller.forceRefresh { session := .opened db }) :=
            connectorRun_kept hwrites.kept.onAll allowsRun_all admitsRun_all (hwrites.config source.id trivial)
              (Both.opened h)
          split
          · next hraised =>
            rw [hraised] at hrun
            dsimp only [lifecycleAfter]
            split
            · exact Both.commit hrun
            · exact h
          · next result state hreturned =>
            rw [hreturned] at hrun
            have hfinish : Ends (Both Q) (fun raised : Raised => raised.2) (·.state.session)
                (finishRun env caller now source result state) :=
              finishRun_keptOn hwrites.toKeptByDispatch trivial hrun
            cases hend : finishRun env caller now source result state with
            | error raised => exact h
            | ok report =>
                rw [hend] at hfinish
                dsimp only [lifecycleAfter]
                rw [finishRun_db hend]
                exact Both.commit hfinish
      · exact h

/-- Writing the rows of the runs keeps a property of the database. -/
def KeptByRunRows (Q : Database → Prop) : Prop :=
  ∀ db schedulerRuns nextSchedulerRunId, Q db → Q { db with schedulerRuns, nextSchedulerRunId }

section Scheduled

variable {env : ScheduledEnv} {source : Source} {run : SchedulerRun} {s s' : Session}
  {started : Database} {triggerType : String}

theorem beforeDispatch_keeps (hruns : KeptByRunRows Q) (h : Q db)
    (hstarted : beforeDispatch env connector triggerType db = .ok (source, run, started)) :
    Q started := by
  obtain ⟨found, _, hstarted⟩ := bind_ok hstarted
  split at hstarted
  · obtain ⟨⟨run', session⟩, hstart, hend⟩ := bind_ok hstarted
    obtain ⟨_, hrest⟩ := Prod.mk.inj (Except.ok.inj hend)
    obtain ⟨_, rfl⟩ := Prod.mk.inj hrest
    obtain ⟨db', hdone, rfl⟩ := Session.execute_ok (mapError_ok hstart)
    have hsame := Verdict.insert_done hdone
    obtain ⟨_, rfl⟩ := Prod.mk.inj hsame
    exact hruns db _ _ h
  · cases hstarted

/-- A run that is not dispatched leaves the database alone. -/
theorem beforeDispatch_error {e : PyError} (h : beforeDispatch env connector triggerType db =
    .error (e, started)) : started = db := by
  unfold beforeDispatch at h
  cases hresolve : resolveSourceByConnector db.sources connector with
  | error e =>
      rw [hresolve] at h
      exact (Prod.mk.inj (Except.error.inj h)).2.symm
  | ok found =>
      rw [hresolve] at h
      dsimp only [bind, Except.bind, Except.mapError] at h
      split at h
      · cases hstart : startRun env found.id triggerType (.opened db) with
        | error raised =>
            rw [hstart] at h
            exact (Prod.mk.inj (Except.error.inj h)).2.symm
        | ok r =>
            rw [hstart] at h
            cases h
      · exact (Prod.mk.inj (Except.error.inj h)).2.symm

theorem flushRun_keeps (hruns : KeptByRunRows Q) (h : Both Q s) :
    Ends (Both Q) (·.2) (·.2) (flushRun env run s) := by
  have hwrite : Ends (Both Q) (fun raised : Raised => raised.2) id
      (s.write fun db => (env.schedulerRun run db).insert (updateRun run db)) := by
    refine write_kept (fun _ hs => hs) (fun s db hdone hs => ?_) h
    rw [Verdict.insert_done hdone]
    exact ⟨hruns s.working _ s.working.nextSchedulerRunId hs.1, hs.2⟩
  exact ends_bind hwrite fun s' hs => hs

theorem afterDispatch_keeps (hkept : KeptByRetry (fun _ => True) (fun _ => True) Q) (hruns : KeptByRunRows Q)
    {outcome : RunOutcome} (h : RunEnds (Both Q) outcome) :
    Ends (Both Q) (·.2) (·.2) (afterDispatch env source run outcome) := by
  have hwrites : KeptByWrites env.toRunEnv (fun _ => True) (fun _ => True) (Both Q) := hkept.both
  cases outcome with
  | error raised => exact flushRun_keeps hruns h
  | ok r =>
      obtain ⟨result, state⟩ := r
      have hclosed : ∀ session, Both Q session → Ends (Both Q) (fun raised : Raised => raised.2) (·.2)
          (onSuccess env source run result { state with session }) := by
        intro session hsession
        refine flushRun_keeps hruns ?_
        unfold recordRunFetchFailure
        split
        · exact hsession
        · exact record_kept hwrites.kept.onAll (fun _ _ => trivial) hsession
      dsimp only [afterDispatch]
      split
      · have hstamp : Ends (Both Q) (fun raised : Raised => raised.2) id
            (state.session.write (stampFetched source.id env.fetchedAt)) :=
          write_kept (fun _ hs => hs)
            (fun s db hdone hs => hwrites.stamped source.id _ s db trivial hdone hs) h
        exact ends_bind hstamp hclosed
      · exact hclosed state.session h

/-- What a scheduled run keeps of the database. -/
theorem runSourceAsync_keeps (hkept : KeptByRetry (fun _ => True) (fun _ => True) Q) (hruns : KeptByRunRows Q)
    (h : Q db) : Q (databaseAfter (runSourceAsync env registry connector triggerType db)) := by
  have hwrites : KeptByWrites env.toRunEnv (fun _ => True) (fun _ => True) (Both Q) := hkept.both
  unfold runSourceAsync
  cases hbefore : beforeDispatch env connector triggerType db with
  | error raised =>
      obtain ⟨e, db'⟩ := raised
      have hsame : db' = db := beforeDispatch_error hbefore
      rw [hsame]
      exact h
  | ok r =>
      obtain ⟨source, run, started⟩ := r
      have hstarted : Q started := beforeDispatch_keeps hruns h hbefore
      have hafter : Ends (Both Q) (fun raised : Raised => raised.2) (·.2)
          (afterDispatch env source run
            (dispatchIngestion env.toRunEnv registry connector source false started)) :=
        afterDispatch_keeps hkept hruns
          (dispatchIngestion_keptOn hwrites.toKeptByDispatch (.opened hstarted) trivial)
      dsimp only [bind, Except.bind]
      cases hend : afterDispatch env source run
          (dispatchIngestion env.toRunEnv registry connector source false started) with
      | error raised => exact hstarted
      | ok r =>
          rw [hend] at hafter
          exact Both.commit hafter

end Scheduled

/-- The turns of a tick come to what the tick leaves. -/
theorem Work.after_tick {envs : Nat → RetryEnv} {cutoff maxAttempts : Int} :
    (Work.tick envs cutoff maxAttempts).after db =
      (runDetailRetryBatch envs maxAttempts cutoff db).db := by
  unfold Work.after Work.pieces
  dsimp only
  rw [runDetailRetryBatch, retryRows_db, List.getLast?_map, Option.map_map]
  rfl

/-- What any work keeps of the database. -/
theorem Work.after_keeps {w : Work} (hkept : KeptByRetry (fun _ => True) (fun _ => True) Q)
    (hruns : KeptByRunRows Q) (h : Q db) : Q (w.after db) := by
  cases w with
  | scheduled env registry connector triggerType =>
      unfold Work.after Work.pieces
      dsimp only
      split
      · exact h
      · exact runSourceAsync_keeps hkept hruns h
  | ingest env registry fetchedAt connector forceRefresh =>
      unfold Work.after Work.pieces
      dsimp only
      split
      · exact h
      · exact runWithLifecycle_keeps hkept h
  | tick envs cutoff maxAttempts =>
      unfold Work.after Work.pieces
      dsimp only
      rw [List.getLast?_map]
      cases hlast : (turns envs maxAttempts 0 (eligibleRows cutoff db) db).getLast? with
      | none => exact h
      | some turn =>
          exact (turns_both hkept (fun _ _ _ _ _ => trivial) h (List.mem_of_getLast? hlast)).2.1
  | retry env key =>
      unfold Work.after Work.pieces
      dsimp only
      split
      · exact h
      · exact afterRetry_both (performRetry_both hkept (fun _ _ => trivial) h
          heldByRetry_all trivial)

end Frame

end RecruFlow.Scheduler
