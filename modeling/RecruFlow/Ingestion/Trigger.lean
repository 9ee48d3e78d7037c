import RecruFlow.Ingestion.RunInvariant

/-!
# Triggering an ingestion

`trigger_ingest` runs the lifecycle of a connector in a session of its own. A
run that raises is rolled back and answered with a response that is not ok.
-/

namespace RecruFlow.Ingestion

open Connectors Db Dlq Lib.Outcome Lib.Transaction

variable (env : RunEnv) (registry : Registry)

def dispatchIngestion (connector : String) (source : Source) (forceRefresh : Bool)
    (db : Database) : RunOutcome :=
  match registry.lookup connector with
  | none => .error (.keyError, { session := .opened db })
  | some run => run.run env source forceRefresh { session := .opened db }

/-- An ingestion that has come to its end. -/
structure Triggered where
  /-- The `ok` of the response, or the exception that leaves `trigger_ingest`. -/
  ending : Except PyError Bool
  /-- The session before its last commit or rollback. -/
  session : Session
  /-- The database after it. -/
  db : Database

def triggerIngest (fetchedAt : Int) (connector : String) (db : Database) : Triggered :=
  match resolveSourceByConnector db.sources connector with
  | .error e => ⟨.error e, .opened db, db⟩
  | .ok source =>
      if (source.configJson.getD "connector_enabled" (.bool true)).truthy then
        match dispatchIngestion env registry connector source false db with
        | .error (_, state) => ⟨.ok false, state.session, db⟩
        | .ok (result, state) =>
            match finishRun env manualCaller fetchedAt source result state with
            | .error (e, session) => ⟨.error e, session, db⟩
            | .ok report => ⟨.ok result.ok, report.state.session, report.db⟩
      else ⟨.error .connectorDisabled, .opened db, db⟩

/-- The transaction has written the row of a key: what it records carries its start. -/
def Triggered.writes (key : String) (triggered : Triggered) : Bool :=
  triggered.session.working.ingestionFailures.any fun row =>
    row.dedupKey = key && row.occurredAt = env.startedAt

variable {env registry} {P : Session → Prop} {connector : String} {db : Database}

/-- What ingestions of some sources keep. -/
structure KeptByDispatch (env : RunEnv) (dispatched : Nat → Prop) (P : Session → Prop) : Prop where
  kept : Kept env.toIngestEnv (fun _ => True) P
  config : ∀ sourceId, dispatched sourceId → KeptByConfig sourceId P
  stamped : ∀ sourceId now s db, dispatched sourceId → stampFetched sourceId now s.working = .done db →
    P s → P { s with working := db }

/-- What ingestions keep that does not speak of the sources. -/
structure KeptByIngestion (env : RunEnv) (P : Session → Prop) : Prop where
  kept : Kept env.toIngestEnv (fun _ => True) P
  sources : ∀ s sources, P s → P { s with working := { s.working with sources } }

theorem KeptByIngestion.config (h : KeptByIngestion env P) {sourceId : Nat} :
    KeptByConfig sourceId P := by
  intro s configJson db hdone hs
  rw [← Attempt.done.inj hdone]
  exact h.sources s _ hs

theorem KeptByIngestion.onDispatch (h : KeptByIngestion env P) :
    KeptByDispatch env (fun _ => True) P where
  kept := h.kept
  config _ _ := h.config
  stamped sourceId now s db _ hdone hs := by
    rw [← Attempt.done.inj hdone]
    exact h.sources s _ hs

section Dispatched

variable {dispatched : Nat → Prop} {source : Source}

theorem dispatchIngestion_keptOn (hkept : KeptByDispatch env dispatched P) (h : P (.opened db))
    (hsource : dispatched source.id) {forceRefresh : Bool} :
    RunEnds P (dispatchIngestion env registry connector source forceRefresh db) := by
  unfold dispatchIngestion
  split
  · exact h
  · exact connectorRun_kept hkept.kept.onAll allowsRun_all admitsRun_all (hkept.config source.id hsource) h

theorem finishRun_keptOn (hkept : KeptByDispatch env dispatched P) (hsource : dispatched source.id)
    {caller : Caller} {now : Int} {result : IngestionResult} {state : RunState}
    (h : P state.session) :
    Ends P (·.2) (·.state.session) (finishRun env caller now source result state) := by
  have hrecorded : ∀ state : RunState, P state.session →
      P (recordRunFetchFailure env caller source result state).session := by
    intro state hstate
    unfold recordRunFetchFailure
    split
    · exact hstate
    · exact record_kept hkept.kept.onAll (fun _ _ => trivial) hstate
  unfold finishRun
  split
  · have hstamp : Ends P (·.2) id (state.session.write (stampFetched source.id now)) :=
      write_kept hkept.kept.rejected
        (fun s db hdone hs => hkept.stamped source.id now s db hsource hdone hs) h
    exact ends_bind hstamp fun session hsession => hrecorded { state with session } hsession
  · have hsame : Ends P (fun raised : Raised => raised.2) id (pure state.session) := h
    exact ends_bind hsame fun session hsession => hrecorded { state with session } hsession

end Dispatched

theorem dispatchIngestion_kept (hkept : KeptByIngestion env P) (h : P (.opened db))
    {source : Source} {forceRefresh : Bool} :
    RunEnds P (dispatchIngestion env registry connector source forceRefresh db) :=
  dispatchIngestion_keptOn hkept.onDispatch h trivial

theorem finishRun_db {caller : Caller} {now : Int} {source : Source} {result : IngestionResult}
    {state : RunState} {report : RunReport}
    (h : finishRun env caller now source result state = .ok report) :
    report.db = commit report.state.session := by
  unfold finishRun at h
  split at h
  all_goals
    obtain ⟨session, _, hend⟩ := bind_ok h
    rw [← Except.ok.inj hend]

/-- The sources that a triggered ingestion of a connector may be of. -/
def MayDispatch (connector : String) (db : Database) (sourceId : Nat) : Prop :=
  ∃ source, resolveSourceByConnector db.sources connector = .ok source ∧
    (source.configJson.getD "connector_enabled" (.bool true)).truthy = true ∧ source.id = sourceId

/-- The transaction of an ingestion keeps what runs keep, and its end commits it
or leaves nothing of it. -/
theorem triggerIngest_keptOn {dispatched : Nat → Prop} (hkept : KeptByDispatch env dispatched P)
    (hsource : ∀ sourceId, MayDispatch connector db sourceId → dispatched sourceId)
    {fetchedAt : Int} (h : P (.opened db)) :
    P (triggerIngest env registry fetchedAt connector db).session ∧
      ((triggerIngest env registry fetchedAt connector db).db = db ∨
        (triggerIngest env registry fetchedAt connector db).db =
          commit (triggerIngest env registry fetchedAt connector db).session) := by
  unfold triggerIngest
  split
  · exact ⟨h, .inl rfl⟩
  · next source hresolve =>
    split
    · next henabled =>
      have hallowed : dispatched source.id := hsource _ ⟨source, hresolve, henabled, rfl⟩
      have hdispatch : RunEnds P
          (dispatchIngestion env registry connector source false db) :=
        dispatchIngestion_keptOn hkept h hallowed
      split
      · next hraised =>
        rw [hraised] at hdispatch
        exact ⟨hdispatch, .inl rfl⟩
      · next result state hreturned =>
        rw [hreturned] at hdispatch
        have hfinish : Ends P (·.2) (·.state.session)
            (finishRun env manualCaller fetchedAt source result state) :=
          finishRun_keptOn hkept hallowed hdispatch
        split
        · next hraised =>
          rw [hraised] at hfinish
          exact ⟨hfinish, .inl rfl⟩
        · next report hreport =>
          rw [hreport] at hfinish
          exact ⟨hfinish, .inr (finishRun_db hreport)⟩
    · exact ⟨h, .inl rfl⟩

theorem triggerIngest_kept (hkept : KeptByIngestion env P) {fetchedAt : Int}
    (h : P (.opened db)) :
    P (triggerIngest env registry fetchedAt connector db).session ∧
      ((triggerIngest env registry fetchedAt connector db).db = db ∨
        (triggerIngest env registry fetchedAt connector db).db =
          commit (triggerIngest env registry fetchedAt connector db).session) :=
  triggerIngest_keptOn hkept.onDispatch (fun _ _ => trivial) h

end RecruFlow.Ingestion
