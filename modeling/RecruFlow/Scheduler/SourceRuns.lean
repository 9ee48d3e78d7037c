import RecruFlow.Ingestion.RecordFate
import RecruFlow.Ingestion.Trigger

/-!
# Scheduled runs

A scheduled run has a row in `scheduler_runs`. It is committed before the
connector is dispatched, and closed in the transaction that the dispatch leaves.
-/

namespace RecruFlow.Db.SchedulerRun

variable (run : SchedulerRun) (now : Int)

def finishedOk (fetched created : Nat) (warning : Bool) : SchedulerRun :=
  { run with
    status := .ok
    fetchedCount := some fetched
    createdCount := some created
    warning
    finishedAt := some now }

def finishedError (errorMessage : String) : SchedulerRun :=
  { run with
    status := .error
    errorMessage := some errorMessage
    finishedAt := some now }

end RecruFlow.Db.SchedulerRun

namespace RecruFlow.Scheduler

open Connectors Db Dlq Ingestion Lib.Outcome Lib.Transaction

/-- What surrounds a scheduled run. -/
structure ScheduledEnv extends RunEnv where
  /-- The verdict on a row of `scheduler_runs`, inserted or updated. -/
  schedulerRun : SchedulerRun → Database → Verdict
  /-- `str(exc)` -/
  errorText : PyError → String
  /-- `datetime.now(UTC)`, where the run is started, its source stamped and the run closed. -/
  runStartedAt : Int
  fetchedAt : Int
  runFinishedAt : Int

variable (env : ScheduledEnv)

def startRun (sourceId : Nat) (triggerType : String) (s : Session) :
    Except Raised (SchedulerRun × Session) :=
  s.execute fun db =>
    let run : SchedulerRun :=
      { id := db.nextSchedulerRunId
        sourceId, triggerType
        status := .running
        startedAt := env.runStartedAt }
    (env.schedulerRun run db).insert (run,
      { db with
        schedulerRuns := db.schedulerRuns ++ [run]
        nextSchedulerRunId := db.nextSchedulerRunId + 1 })

def updateRun (run : SchedulerRun) (db : Database) : Database :=
  { db with
    schedulerRuns := db.schedulerRuns.map fun row => if row.id = run.id then run else row }

/-- The flush of a closed run. -/
def flushRun (run : SchedulerRun) (s : Session) : Except Raised (SchedulerRun × Session) := do
  let s ← s.write fun db => (env.schedulerRun run db).insert (updateRun run db)
  pure (run, s)

def finishRunOk (run : SchedulerRun) (fetched created : Nat) (warning : Bool) (s : Session) :
    Except Raised (SchedulerRun × Session) :=
  flushRun env (run.finishedOk env.runFinishedAt fetched created warning) s

def finishRunError (run : SchedulerRun) (errorMessage : String) (s : Session) :
    Except Raised (SchedulerRun × Session) :=
  flushRun env (run.finishedError env.runFinishedAt errorMessage) s

/-- The audited caller of `run_with_lifecycle`. -/
def scheduledCaller (run : SchedulerRun) : Caller := ⟨some run.id, true, false⟩

/-- The lookup of the source, `before_dispatch`, and its commit. -/
def beforeDispatch (connector triggerType : String) (db : Database) :
    Except (PyError × Database) (Source × SchedulerRun × Database) := do
  let source ← (resolveSourceByConnector db.sources connector).mapError (·, db)
  if (source.configJson.getD "connector_enabled" (.bool true)).truthy then
    let (run, session) ←
      (startRun env source.id triggerType (.opened db)).mapError fun raised => (raised.1, db)
    pure (source, run, commit session)
  else .error (.connectorDisabled, db)

def onSuccess (source : Source) (run : SchedulerRun) (result : IngestionResult)
    (state : RunState) : Except Raised (SchedulerRun × Session) :=
  let state := recordRunFetchFailure env.toRunEnv (scheduledCaller run) source result state
  finishRunOk env run result.fetched result.created (result.fetched = 0) state.session

/-- From the outcome of the dispatch to the last commit: `on_error`, or the
stamp of the source and `on_success`. -/
def afterDispatch (source : Source) (run : SchedulerRun) :
    RunOutcome → Except Raised (SchedulerRun × Session)
  | .error (e, state) => finishRunError env run (env.errorText e) state.session
  | .ok (result, state) => do
      let session ←
        if result.ok then state.session.write (stampFetched source.id env.fetchedAt)
        else pure state.session
      onSuccess env source run result { state with session }

/-- `_run_source_async`; an exception comes with the database that it leaves,
as the session is rolled back when it is closed. -/
def runSourceAsync (registry : Registry) (connector triggerType : String) (db : Database) :
    Except (PyError × Database) (SchedulerRun × Database) := do
  let (source, run, started) ← beforeDispatch env connector triggerType db
  let outcome := dispatchIngestion env.toRunEnv registry connector source false started
  let (run, session) ← (afterDispatch env source run outcome).mapError fun raised => (raised.1, started)
  pure (run, commit session)

/-- The database that a run leaves, however it ends. -/
def databaseAfter : Except (PyError × Database) (SchedulerRun × Database) → Database
  | .error (_, db) => db
  | .ok (_, db) => db

/-- The row of a run is there, and is closed. -/
def Finalised (id : Nat) (db : Database) : Prop :=
  (∃ run ∈ db.schedulerRuns, run.id = id) ∧
    ∀ run ∈ db.schedulerRuns, run.id = id →
      (run.status = .ok ∨ run.status = .error) ∧ run.finishedAt.isSome = true

/-- The statement that records a failed result. -/
def recordsFailed (source : Source) (run : SchedulerRun) (result : IngestionResult) :
    Database → Attempt Database :=
  insertIngestionFailure env.postgres env.startedAt
    (runFetchFields (scheduledCaller run) source result)

/-- The database that a run which did not raise is closed in. -/
def closingDb (source : Source) (run : SchedulerRun) (result : IngestionResult)
    (s : Session) : Database :=
  (attempt (if result.ok then stampFetched source.id env.fetchedAt
    else recordsFailed env source run result) s).2.working

/-- The dispatch leaves a good transaction, the failure of a failed result does
not spoil it, and the closed row is taken. -/
def LetsClose (source : Source) (run : SchedulerRun) : RunOutcome → Prop
  | .error (e, state) => state.session.aborted = false ∧
      env.schedulerRun (run.finishedError env.runFinishedAt (env.errorText e))
        state.session.working = .taken
  | .ok (result, state) => state.session.aborted = false ∧
      (result.ok = false → recordsFailed env source run result state.session.working ≠ .rejected) ∧
      env.schedulerRun
        (run.finishedOk env.runFinishedAt result.fetched result.created (result.fetched = 0))
        (closingDb env source run result state.session) = .taken

section Closing

variable {env} {source : Source} {run : SchedulerRun} {s s' : Session} {rows : List SchedulerRun}

/-- A flush goes through in a good transaction that takes the row. -/
theorem flushRun_eq : flushRun env run s =
    if s.aborted = false ∧ env.schedulerRun run s.working = .taken then
      .ok (run, { s with working := updateRun run s.working })
    else .error (.database, (attempt (fun db => (env.schedulerRun run db).insert (updateRun run db)) s).2) := by
  unfold flushRun Session.write attempt
  cases haborted : s.aborted with
  | true => simp [bind, Except.bind]
  | false =>
      cases hverdict : env.schedulerRun run s.working <;>
        simp [hverdict, Verdict.insert, bind, Except.bind, pure, Except.pure]

theorem flushRun_ok_iff : (∃ r, flushRun env run s = .ok r) ↔
    s.aborted = false ∧ env.schedulerRun run s.working = .taken := by
  rw [flushRun_eq]
  split <;> simp_all

theorem flushRun_ok {run' : SchedulerRun} (h : flushRun env run s = .ok (run', s')) :
    run' = run ∧ s'.aborted = false ∧ s'.working = updateRun run s.working := by
  rw [flushRun_eq] at h
  split at h
  · next hgood =>
    obtain ⟨rfl, rfl⟩ := Prod.mk.inj (Except.ok.inj h)
    exact ⟨rfl, hgood.1, rfl⟩
  · cases h

/-- A run is closed exactly when what the dispatch leaves lets it. -/
theorem afterDispatch_ok_iff {outcome : RunOutcome} :
    (∃ r, afterDispatch env source run outcome = .ok r) ↔ LetsClose env source run outcome := by
  cases outcome with
  | error raised =>
      obtain ⟨e, state⟩ := raised
      exact flushRun_ok_iff
  | ok r =>
      obtain ⟨result, state⟩ := r
      cases hok : result.ok with
      | true =>
          have hdb : closingDb env source run result state.session =
              (attempt (stampFetched source.id env.fetchedAt) state.session).2.working := by
            rw [closingDb, if_pos hok]
          have hafter : afterDispatch env source run (.ok (result, state)) =
              state.session.write (stampFetched source.id env.fetchedAt) >>= fun s =>
                finishRunOk env run result.fetched result.created (result.fetched = 0) s := by
            simp only [afterDispatch, onSuccess, recordRunFetchFailure, hok, if_true]
          rw [hafter, LetsClose, hdb]
          cases haborted : state.session.aborted with
          | true => simp [Session.write, attempt, haborted, bind, Except.bind]
          | false =>
              have hwrite : state.session.write (stampFetched source.id env.fetchedAt) =
                  .ok (attempt (stampFetched source.id env.fetchedAt) state.session).2 := by
                simp [Session.write, attempt, haborted, stampFetched]
              rw [hwrite]
              change (∃ r, flushRun env _ _ = .ok r) ↔ _
              rw [flushRun_ok_iff, attempt_good_iff]
              simp [haborted, hok, stampFetched]
      | false =>
          have hdb : closingDb env source run result state.session =
              (attempt (recordsFailed env source run result) state.session).2.working := by
            rw [closingDb, if_neg (by simp [hok])]
          have hafter : afterDispatch env source run (.ok (result, state)) =
              finishRunOk env run result.fetched result.created (result.fetched = 0)
                (attempt (recordsFailed env source run result) state.session).2 := by
            simp only [afterDispatch, onSuccess, recordRunFetchFailure, hok, Bool.false_eq_true,
              if_false]
            rfl
          rw [hafter, LetsClose, hdb, finishRunOk, flushRun_ok_iff, attempt_good_iff, and_assoc]
          simp [hok]

theorem runs_kept : KeptByIngestion env.toRunEnv (·.working.schedulerRuns = rows) where
  kept :=
    { rejected := fun _ h => h
      offer := fun _ _ h => h
      failure := fun _ _ _ h => h }
  sources _ _ h := h

/-- The rows of the runs are not touched by the dispatch. -/
theorem dispatch_runs {registry : Registry} {connector : String} {forceRefresh : Bool}
    {db : Database} : RunEnds (·.working.schedulerRuns = db.schedulerRuns)
      (dispatchIngestion env.toRunEnv registry connector source forceRefresh db) :=
  dispatchIngestion_kept runs_kept rfl

/-- Nor by what is recorded before the row is closed. -/
theorem afterDispatch_runs {outcome : RunOutcome} {run' : SchedulerRun}
    (hdispatch : RunEnds (·.working.schedulerRuns = rows) outcome)
    (h : afterDispatch env source run outcome = .ok (run', s')) :
    run'.id = run.id ∧ (run'.status = .ok ∨ run'.status = .error) ∧
      run'.finishedAt.isSome = true ∧ s'.aborted = false ∧
      s'.working.schedulerRuns = rows.map fun row => if row.id = run.id then run' else row := by
  cases outcome with
  | error raised =>
      obtain ⟨e, state⟩ := raised
      obtain ⟨rfl, hgood, hworking⟩ := flushRun_ok h
      refine ⟨rfl, .inr rfl, rfl, hgood, ?_⟩
      have hruns : state.session.working.schedulerRuns = rows := hdispatch
      rw [hworking, ← hruns]
      rfl
  | ok r =>
      obtain ⟨result, state⟩ := r
      have hstamped : ∃ session : Session, session.working.schedulerRuns = rows ∧
          onSuccess env source run result { state with session } = .ok (run', s') := by
        simp only [afterDispatch] at h
        split at h
        · obtain ⟨session, hstamp, hclose⟩ := bind_ok h
          have hdone := (Session.write_ok hstamp).2
          refine ⟨session, ?_, hclose⟩
          rw [← Attempt.done.inj hdone]
          exact hdispatch
        · obtain ⟨session, hsame, hclose⟩ := bind_ok h
          refine ⟨session, ?_, hclose⟩
          rw [← Except.ok.inj hsame]
          exact hdispatch
      obtain ⟨session, hruns, hclose⟩ := hstamped
      have hrecorded : (recordRunFetchFailure env.toRunEnv (scheduledCaller run) source result
          { state with session }).session.working.schedulerRuns = rows := by
        unfold recordRunFetchFailure
        split
        · exact hruns
        · exact record_kept runs_kept.kept.onAll (fun _ _ => trivial) hruns
      obtain ⟨rfl, hgood, hworking⟩ := flushRun_ok hclose
      refine ⟨rfl, .inl rfl, rfl, hgood, ?_⟩
      rw [hworking, ← hrecorded]
      rfl

theorem startRun_ok {sourceId : Nat} {triggerType : String} {db : Database}
    (h : startRun env sourceId triggerType (.opened db) = .ok (run, s)) :
    run ∈ (commit s).schedulerRuns ∧ run.status = .running := by
  obtain ⟨db', hdone, rfl⟩ := Session.execute_ok h
  obtain ⟨rfl, rfl⟩ := Prod.mk.inj (Verdict.insert_done hdone)
  exact ⟨List.mem_append_right _ (List.mem_singleton_self _), rfl⟩

theorem beforeDispatch_ok {connector triggerType : String} {db started : Database}
    (h : beforeDispatch env connector triggerType db = .ok (source, run, started)) :
    run ∈ started.schedulerRuns ∧ run.status = .running := by
  obtain ⟨found, _, h⟩ := bind_ok h
  split at h
  · obtain ⟨⟨run', session⟩, hstart, hend⟩ := bind_ok h
    obtain ⟨rfl, hrest⟩ := Prod.mk.inj (Except.ok.inj hend)
    obtain ⟨rfl, rfl⟩ := Prod.mk.inj hrest
    exact startRun_ok (mapError_ok hstart)
  · cases h

end Closing

/-- The row of a scheduled run is closed, however `_run_source_async` ends,
exactly when what the dispatch leaves lets it. -/
theorem run_finalised_iff {registry : Registry} {connector triggerType : String}
    {db started : Database} {source : Source} {run : SchedulerRun}
    (hstarted : beforeDispatch env connector triggerType db = .ok (source, run, started)) :
    Finalised run.id (databaseAfter (runSourceAsync env registry connector triggerType db)) ↔
      LetsClose env source run (dispatchIngestion env.toRunEnv registry connector source false started) := by
  obtain ⟨hmem, hrunning⟩ := beforeDispatch_ok hstarted
  rw [← afterDispatch_ok_iff, runSourceAsync, hstarted]
  cases hafter : afterDispatch env source run
      (dispatchIngestion env.toRunEnv registry connector source false started) with
  | error raised =>
      have hopen : ¬ Finalised run.id started := by
        intro hfinal
        rcases (hfinal.2 run hmem rfl).1 with h | h <;> simp [hrunning] at h
      simpa [hafter, databaseAfter, bind, Except.bind, Except.mapError] using hopen
  | ok r =>
      obtain ⟨run', session⟩ := r
      obtain ⟨hid, hstatus, hfinished, hgood, hruns⟩ := afterDispatch_runs dispatch_runs hafter
      have hfinal : Finalised run.id (commit session) := by
        rw [commit, if_neg (by simp [hgood])]
        have hrow : ∀ row ∈ session.working.schedulerRuns, row.id = run.id → row = run' := by
          intro row hrow hrowid
          rw [hruns] at hrow
          obtain ⟨old, _, rfl⟩ := List.mem_map.mp hrow
          split
          · rfl
          · next hne => exact absurd ((congrArg SchedulerRun.id (if_neg hne)).symm.trans hrowid) hne
        refine ⟨⟨run', ?_, hid⟩, fun row hmem' hrowid => ?_⟩
        · rw [hruns]
          exact List.mem_map.mpr ⟨run, hmem, if_pos rfl⟩
        · rw [hrow row hmem' hrowid]
          exact ⟨hstatus, hfinished⟩
      simpa [hafter, databaseAfter, bind, Except.bind, Except.mapError, pure, Except.pure] using hfinal

/-! ## A record with a NUL character -/

def columnsRunEnv : RunEnv :=
  { acmeRunEnv with toIngestEnv := columnsEnv }

def scheduledEnv : ScheduledEnv :=
  { columnsRunEnv with
    schedulerRun := schedulerRunVerdict
    errorText := fun _ => "error"
    runStartedAt := 1
    fetchedAt := 2
    runFinishedAt := 3 }

/-- The board hands out one record, and its offer without the note. -/
def notedBoard (note : String) : JobBoardConnector Int :=
  { quietBoard with
    mapOffer := fun _ _ => .ok (acmeFields "a")
    fetchPage := fun _ _ _ _ _ => .got ([(acmeFields "a").set "note" (.str note)], none) }

def notedRegistry (note : String) : Registry :=
  { quietRegistry with remotive := notedBoard note }

def remotiveSource : Source :=
  { id := 1
    name := "remotive"
    connector := some "remotive"
    configJson := ⟨[]⟩
    lastFetchedAt := none }

def remotiveDb : Database := { sources := [remotiveSource] }

def remotiveRun : SchedulerRun :=
  { id := 1
    sourceId := 1
    triggerType := "automatic"
    status := .running
    startedAt := 1 }

def startedDb : Database :=
  { remotiveDb with
    schedulerRuns := [remotiveRun]
    nextSchedulerRunId := 2 }

/-- The rejected offer is the exception of the run, which then cannot be recorded. -/
theorem rejected_offer_leaves_running :
    ¬ Finalised 1 (databaseAfter
        (runSourceAsync scheduledEnv (notedRegistry "\x00") "remotive" "automatic" remotiveDb)) ∧
      databaseAfter
          (runSourceAsync scheduledEnv (notedRegistry "\x00") "remotive" "automatic" remotiveDb) =
        startedDb := by
  have hdb : databaseAfter
      (runSourceAsync scheduledEnv (notedRegistry "\x00") "remotive" "automatic" remotiveDb) =
        startedDb := by
    decide
  refine ⟨fun hfinal => ?_, hdb⟩
  rw [hdb] at hfinal
  rcases (hfinal.2 remotiveRun (List.mem_singleton_self _) rfl).1 with h | h <;> cases h

/-- A note without one is stored, and the run closed. -/
theorem run_finalised_iff_noted :
    Finalised 1 (databaseAfter
      (runSourceAsync scheduledEnv (notedRegistry "b") "remotive" "automatic" remotiveDb)) := by
  have hstarted : beforeDispatch scheduledEnv "remotive" "automatic" remotiveDb =
      .ok (remotiveSource, remotiveRun, startedDb) := by rfl
  have hdispatch : ∃ r, dispatchIngestion scheduledEnv.toRunEnv (notedRegistry "b") "remotive"
      remotiveSource false startedDb = .ok r ∧ r.1.ok = true ∧ r.2.session.aborted = false ∧
      scheduledEnv.schedulerRun (remotiveRun.finishedOk scheduledEnv.runFinishedAt r.1.fetched
        r.1.created (r.1.fetched = 0))
        (closingDb scheduledEnv remotiveSource remotiveRun r.1 r.2.session) = .taken :=
    ⟨_, rfl, rfl, rfl, rfl⟩
  obtain ⟨⟨result, state⟩, hreturns, hok, hgood, htaken⟩ := hdispatch
  apply (run_finalised_iff scheduledEnv hstarted).mpr
  rw [hreturns]
  refine ⟨hgood, fun hfailed => ?_, htaken⟩
  rw [hok] at hfailed
  cases hfailed

end RecruFlow.Scheduler
