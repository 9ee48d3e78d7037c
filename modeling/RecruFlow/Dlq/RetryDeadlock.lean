import RecruFlow.Dlq.RetryBatch
import RecruFlow.Lib.RowLocks

/-!
# The locks of a tick

A tick sends the raised counter of a row before it triggers an ingestion, and so
holds the lock on the row while it waits for the ingestion, which runs in another
session and locks the rows of the failures that it records.
-/

namespace RecruFlow.Ingestion

/-- The keys of the rows that the transaction has written. -/
def Triggered.writtenKeys (env : Connectors.RunEnv) (triggered : Triggered) : List String :=
  (triggered.session.working.ingestionFailures.filter (·.occurredAt = env.startedAt)).map
    (·.dedupKey)

theorem Triggered.mem_writtenKeys {env : Connectors.RunEnv} {triggered : Triggered}
    {key : String} : key ∈ triggered.writtenKeys env ↔ triggered.writes env key = true := by
  simp only [writtenKeys, writes, List.mem_map, List.mem_filter, List.any_eq_true,
    Bool.and_eq_true, decide_eq_true_eq]
  constructor
  · rintro ⟨row, ⟨hrow, hoccurred⟩, hkey⟩
    exact ⟨row, hrow, hkey, hoccurred⟩
  · rintro ⟨row, hrow, hkey, hoccurred⟩
    exact ⟨row, ⟨hrow, hoccurred⟩, hkey⟩

end RecruFlow.Ingestion

namespace RecruFlow.Dlq

open Db Ingestion Lib.RowLocks Lib.Trace Lib.Transaction

/-- The ingestion that a turn of the loop triggers, after it has sent the raised
counter of the row. -/
def turnTriggers (env : RetryEnv) (maxAttempts : Int) (row : IngestionFailure) (db : Database) :
    Option Triggered :=
  if Exhausted maxAttempts row then none
  else match FailureType.ofValue row.failureType with
    | none => none
    | some failureType =>
        if externallyRecorded failureType then
          match getSource env (attemptedRow row) (.opened db) with
          | .error _ => none
          | .ok ((_, connector), _, _) =>
              some (triggerIngest env.toRunEnv env.registry env.fetchedAt connector db)
        else none

/-- The locks of a turn. -/
def turnJob (env : RetryEnv) (maxAttempts : Int) (row : IngestionFailure) (db : Database) :
    Job String :=
  ⟨row.dedupKey, (turnTriggers env maxAttempts row db).map (·.writtenKeys env.toRunEnv)⟩

section Tick

variable (envs : Nat → RetryEnv) (maxAttempts : Int)

/-- The locks of the turns that the loop comes to. -/
def tickJobs : (number : Nat) → List IngestionFailure → Database → List (Job String)
  | _, [], _ => []
  | number, row :: rows, db =>
      turnJob (envs number) maxAttempts row db ::
        match treatRow (envs number) maxAttempts row (.opened db) with
        | .error _ => []
        | .ok (_, s) => tickJobs (number + 1) rows (commit s)

/-- No ingestion that the loop triggers records a failure under the key of the row
that it is triggered for. -/
def RecordsElsewhere : (number : Nat) → List IngestionFailure → Database → Prop
  | _, [], _ => True
  | number, row :: rows, db =>
      (∀ triggered, turnTriggers (envs number) maxAttempts row db = some triggered →
        triggered.writes (envs number).toRunEnv row.dedupKey = false) ∧
      ∀ t s, treatRow (envs number) maxAttempts row (.opened db) = .ok (t, s) →
        RecordsElsewhere (number + 1) rows (commit s)

variable {envs maxAttempts} {number : Nat} {row : IngestionFailure}
  {rows : List IngestionFailure} {t : Tracked} {s : Session} {db : Database}

theorem recordsElsewhere_cons (h : treatRow (envs number) maxAttempts row (.opened db) = .ok (t, s)) :
    RecordsElsewhere envs maxAttempts number (row :: rows) db ↔
      (∀ triggered, turnTriggers (envs number) maxAttempts row db = some triggered →
        triggered.writes (envs number).toRunEnv row.dedupKey = false) ∧
      RecordsElsewhere envs maxAttempts (number + 1) rows (commit s) := by
  rw [RecordsElsewhere]
  refine and_congr_right fun _ => ⟨fun hrest => hrest t s h, fun hrest t' s' h' => ?_⟩
  obtain ⟨rfl, rfl⟩ := Prod.mk.inj (Except.ok.inj (h.symm.trans h'))
  exact hrest

theorem tickJobs_own_iff : (∃ job ∈ tickJobs envs maxAttempts number rows db,
      ∃ keys, job.call = some keys ∧ job.own ∈ keys) ↔
    ¬ RecordsElsewhere envs maxAttempts number rows db := by
  induction rows generalizing number db with
  | nil => simp [tickJobs, RecordsElsewhere]
  | cons row rows ih =>
      have hturn : (∃ keys, (turnJob (envs number) maxAttempts row db).call = some keys ∧
          (turnJob (envs number) maxAttempts row db).own ∈ keys) ↔
          ¬ ∀ triggered, turnTriggers (envs number) maxAttempts row db = some triggered →
            triggered.writes (envs number).toRunEnv row.dedupKey = false := by
        cases htriggers : turnTriggers (envs number) maxAttempts row db with
        | none => simp [turnJob, htriggers]
        | some triggered => simp [turnJob, htriggers, Triggered.mem_writtenKeys]
      cases htreat : treatRow (envs number) maxAttempts row (.opened db) with
      | error halted =>
          simp only [tickJobs, RecordsElsewhere, htreat, List.mem_singleton, exists_eq_left, hturn]
          simp
      | ok r =>
          obtain ⟨t, s⟩ := r
          rw [recordsElsewhere_cons htreat, not_and_or, ← hturn, ← ih]
          simp only [tickJobs, htreat, List.mem_cons, exists_eq_or_imp]

theorem raising_ne_waiting {α : Type} {x : Except Raised α} {s : Session} :
    raising x ≠ .error (.waiting, s) := by
  intro h
  cases x with
  | ok a => cases h
  | error raised => cases h

/-- A retry waits where its handler does. -/
theorem performRetry_waiting_iff {env : RetryEnv} {t : Tracked} {failureType : FailureType}
    (htype : FailureType.ofValue t.row.failureType = some failureType) {s s' : Session} :
    performRetry env t s = .error (.waiting, s') ↔
      retryHandler env t s failureType = .error (.waiting, s') := by
  unfold performRetry
  rw [htype]
  constructor
  · intro h
    rcases bind_error h with hhandler | ⟨handled, _, h⟩
    · exact hhandler
    · rcases bind_error h with hsettle | ⟨settled, _, h⟩
      · exact absurd hsettle raising_ne_waiting
      · exact absurd h raising_ne_waiting
  · intro h
    change (retryHandler env t s failureType >>= _) = _
    rw [h]
    rfl

/-- A retried fetch failure waits when its row is locked and the ingestion wants it. -/
theorem retryFetchFailed_waiting_iff {env : RetryEnv} :
    (∃ s, retryFetchFailed env (attemptedRow row) (.opened db) = .error (.waiting, s)) ↔
      ∃ source connector t s, getSource env (attemptedRow row) (.opened db) =
        .ok ((source, connector), t, s) ∧
        (triggerIngest env.toRunEnv env.registry env.fetchedAt connector db).writes env.toRunEnv
          row.dedupKey = true := by
  have hdirty : (attemptedRow row).row ≠ (attemptedRow row).loaded := by
    intro heq
    have hcount : row.retryCount + 1 = row.retryCount := congrArg IngestionFailure.retryCount heq
    omega
  unfold retryFetchFailed
  cases hget : getSource env (attemptedRow row) (.opened db) with
  | error raised =>
      constructor
      · rintro ⟨s, h⟩
        cases h
      · rintro ⟨_, _, _, _, h, _⟩
        cases h
  | ok r =>
      obtain ⟨⟨source, connector⟩, t, s⟩ := r
      obtain ⟨_, _, _, _, rfl⟩ := getSource_ok hget
      constructor
      · rintro ⟨s', h⟩
        refine ⟨source, connector, t, _, rfl, ?_⟩
        change (if _ then _ else _) = _ at h
        split at h
        · next hlocked => exact hlocked.2
        · split at h <;> cases h
      · rintro ⟨_, _, _, _, heq, hwrites⟩
        cases heq
        refine ⟨_, if_pos ⟨hdirty, hwrites⟩⟩

/-- A turn of the loop waits exactly when it triggers an ingestion that records a
failure under the key of its row. -/
theorem treatRow_waiting_iff {env : RetryEnv} :
    (∃ s, treatRow env maxAttempts row (.opened db) = .error (.waiting, s)) ↔
      ∃ triggered, turnTriggers env maxAttempts row db = some triggered ∧
        triggered.writes env.toRunEnv row.dedupKey = true := by
  unfold treatRow turnTriggers
  by_cases hexhausted : Exhausted maxAttempts row
  · rw [if_pos hexhausted, if_pos hexhausted]
    simp [raising_ne_waiting]
  · rw [if_neg hexhausted, if_neg hexhausted]
    cases htype : FailureType.ofValue row.failureType with
    | none => simp [performRetry, attemptedRow, htype]
    | some failureType =>
        have htype' : FailureType.ofValue (attemptedRow row).row.failureType = some failureType :=
          htype
        have hfetch : (∃ s, retryFetchFailed env (attemptedRow row) (.opened db) =
            .error (.waiting, s)) ↔ ∃ triggered,
              (match getSource env (attemptedRow row) (.opened db) with
                | .error _ => none
                | .ok ((_, connector), _, _) =>
                    some (triggerIngest env.toRunEnv env.registry env.fetchedAt connector db)) =
                some triggered ∧ triggered.writes env.toRunEnv row.dedupKey = true := by
          rw [retryFetchFailed_waiting_iff]
          cases getSource env (attemptedRow row) (.opened db) with
          | error raised => simp
          | ok r =>
              obtain ⟨⟨source, connector⟩, t, s⟩ := r
              simp
        simp only [performRetry_waiting_iff htype']
        cases failureType with
        | pageFetchFailed => exact hfetch
        | runFetchFailed => exact hfetch
        | validationFailed => simp [retryHandler, externallyRecorded, raising_ne_waiting]
        | scoringFailed => simp [retryHandler, externallyRecorded]
        | detailFetchBlocked => simp [retryHandler, externallyRecorded, raising_ne_waiting]

/-- A tick waits forever exactly when its sessions can deadlock. -/
theorem tick_waits_iff {summary : DetailRetrySummary} :
    (retryRows envs maxAttempts number rows summary db).ending = .error .waiting ↔
      ¬ RecordsElsewhere envs maxAttempts number rows db := by
  induction rows generalizing number summary db with
  | nil => simp [retryRows, RecordsElsewhere]
  | cons row rows ih =>
      have hturn : (∃ s, treatRow (envs number) maxAttempts row (.opened db) =
          .error (.waiting, s)) ↔
          ¬ ∀ triggered, turnTriggers (envs number) maxAttempts row db = some triggered →
            triggered.writes (envs number).toRunEnv row.dedupKey = false := by
        rw [treatRow_waiting_iff]
        simp
      cases htreat : treatRow (envs number) maxAttempts row (.opened db) with
      | error halted =>
          obtain ⟨halt, s⟩ := halted
          have hhalt : (∃ s', (.error (halt, s) : Retrying (Tracked × Session)) =
              .error (.waiting, s')) ↔ halt = .waiting := by simp
          rw [retryRows_cons_halt htreat, RecordsElsewhere, not_and_or, ← hturn, htreat, hhalt]
          simp
      | ok r =>
          obtain ⟨t, s⟩ := r
          have helsewhere : ∀ triggered,
              turnTriggers (envs number) maxAttempts row db = some triggered →
                triggered.writes (envs number).toRunEnv row.dedupKey = false := by
            apply not_not.mp
            rw [← hturn, htreat]
            rintro ⟨s', h⟩
            cases h
          rw [retryRows_cons htreat, recordsElsewhere_cons htreat, and_iff_right helsewhere]
          exact ih

end Tick

/-- No state that the sessions of a tick can reach is a deadlock exactly when no
ingestion that it triggers records a failure under the key of the row that it is
triggered for. -/
theorem tick_never_deadlocks_iff (envs : Nat → RetryEnv) (cutoff maxAttempts : Int)
    (db : Database) :
    (∀ turns s key, exec step (start (tickJobs envs maxAttempts 0 (eligibleRows cutoff db) db))
        turns = some s → ¬ Deadlocked key s) ↔
      RecordsElsewhere envs maxAttempts 0 (eligibleRows cutoff db) db := by
  rw [← not_iff_not, ← tickJobs_own_iff, ← deadlock_reachable_iff]
  simp only [not_forall, not_not, exists_prop]

/-- The second page is blocked again: the tick waits for the ingestion, and the
ingestion for the row that the tick has locked. -/
theorem blocked_page_deadlocks :
    ∃ turns s, exec step (start (tickJobs (fun _ => remotiveRetryEnv secondPageBlocked) 5 0
        (eligibleRows 0 blockedPageDb) blockedPageDb)) turns = some s ∧
      Deadlocked blockedPageRow.dedupKey s ∧
      (runDetailRetryBatch (fun _ => remotiveRetryEnv secondPageBlocked) 5 0
        blockedPageDb).ending = .error .waiting :=
  ⟨[.caller, .caller], _, rfl, ⟨⟨_, rfl⟩, List.mem_singleton_self _, _, rfl⟩, rfl⟩

end RecruFlow.Dlq
