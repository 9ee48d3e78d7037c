import RecruFlow.Dlq.RetryFrame
import RecruFlow.Lib.Trace

/-!
# Histories of dead letters

Failures are recorded, ticks go through the blocked rows, and users retry rows, one after
another. A history is taken apart into steps, each with the database before and after it:
a tick makes one step for each of its turns.
-/

namespace RecruFlow.Dlq

open Connectors Db Ingestion Lib.Outcome Lib.Trace Lib.Transaction

inductive HistoryEvent where
  | record (now : Int) (fields : IngestionFields)
  /-- A tick, with the surroundings of each of its rows. -/
  | tick (envs : Nat → RetryEnv) (cutoff : Int)
  /-- The manual retry of the row under a key. -/
  | retry (env : RetryEnv) (key : String)

inductive StepAction where
  | record (now : Int) (fields : IngestionFields)
  /-- A turn of a tick, on a row as the tick has selected it. -/
  | turn (env : RetryEnv) (row : IngestionFailure)
  | retry (env : RetryEnv) (key : String)

structure HistoryStep where
  action : StepAction
  before : Database
  after : Database

/-- The database that a manual retry leaves. -/
def afterManualRetry (env : RetryEnv) (key : String) (db : Database) : Database :=
  match storedFailure key db with
  | none => db
  | some row => afterRetry (performRetry env (.ofStored row) (.opened db))

section Steps

variable (envs : Nat → RetryEnv) (maxAttempts : Int)

/-- The steps of the turns that a tick comes to. -/
def turnSteps (number : Nat) (rows : List IngestionFailure) (db : Database) : List HistoryStep :=
  (turns envs maxAttempts number rows db).map fun turn =>
    ⟨.turn (envs turn.number) turn.row, turn.before, turn.after⟩

def HistoryEvent.steps (db : Database) : HistoryEvent → List HistoryStep
  | record now fields => [⟨.record now fields, db, recordIngestionFailure now fields db⟩]
  | tick envs cutoff => turnSteps envs maxAttempts 0 (eligibleRows cutoff db) db
  | retry env key => [⟨.retry env key, db, afterManualRetry env key db⟩]

/-- What the last of the steps leaves. -/
def afterSteps (db : Database) (steps : List HistoryStep) : Database :=
  (steps.getLast?.map (·.after)).getD db

/-- The steps of a history. -/
def history : Database → List HistoryEvent → List HistoryStep
  | _, [] => []
  | db, event :: events =>
      event.steps maxAttempts db ++ history (afterSteps db (event.steps maxAttempts db)) events

variable {envs maxAttempts} {number : Nat} {row : IngestionFailure} {rows : List IngestionFailure}
  {db : Database}

theorem turnSteps_cons : turnSteps envs maxAttempts number (row :: rows) db =
    ⟨.turn (envs number) row, db,
        afterRetry (treatRow (envs number) maxAttempts row (.opened db))⟩ ::
      match treatRow (envs number) maxAttempts row (.opened db) with
      | .error _ => []
      | .ok (_, s) => turnSteps envs maxAttempts (number + 1) rows (commit s) := by
  unfold turnSteps
  rw [turns_cons, List.map_cons]
  cases treatRow (envs number) maxAttempts row (.opened db) with
  | error halted => rfl
  | ok r => rfl

/-- A tick leaves what the last of its steps leaves. -/
theorem runDetailRetryBatch_db {cutoff : Int} :
    (runDetailRetryBatch envs maxAttempts cutoff db).db =
      afterSteps db ((HistoryEvent.tick envs cutoff).steps maxAttempts db) := by
  rw [runDetailRetryBatch, retryRows_db, afterSteps, HistoryEvent.steps, turnSteps,
    List.getLast?_map]
  cases (turns envs maxAttempts 0 (eligibleRows cutoff db) db).getLast? with
  | none => rfl
  | some turn => rfl

theorem afterSteps_cons {step : HistoryStep} {steps : List HistoryStep} :
    afterSteps db (step :: steps) = afterSteps step.after steps := by
  rw [afterSteps, afterSteps, List.getLast?_cons]
  cases steps.getLast? with
  | none => rfl
  | some last => rfl

end Steps

/-- The status of the row under a key. -/
def statusIn (key : String) (db : Database) : Option FailureStatus :=
  (storedFailure key db).map (·.status)

/-- Its retry counter. -/
def countIn (key : String) (db : Database) : Option Nat :=
  (storedFailure key db).map (·.retryCount)

/-- The row stays as it is, or a failure is recorded for it. -/
def staysOrOpens (old new : FailureStatus) : Prop :=
  new = old ∨ new = .open

/-- Or it is resolved. -/
def staysOpensOrResolves (old new : FailureStatus) : Prop :=
  new = old ∨ new = .open ∨ new = .resolved

/-- From one database to another, the status of the row under a key has moved in one of
some ways; a row that was not there is open. -/
structure StatusMoves (moves : FailureStatus → FailureStatus → Prop) (key : String)
    (before db : Database) : Prop where
  moved : ∀ old, statusIn key before = some old → ∃ new, statusIn key db = some new ∧ moves old new
  fresh : statusIn key before = none → statusIn key db = none ∨ statusIn key db = some .open

/-- Its counter has stayed; that of a row that was not there is 0. -/
structure CountStays (key : String) (before db : Database) : Prop where
  stayed : ∀ n, countIn key before = some n → countIn key db = some n
  fresh : countIn key before = none → countIn key db = none ∨ countIn key db = some 0

/-- The row that a retry holds is another one than that under the key. -/
def HoldsOther (key : String) (t : Tracked) : Prop :=
  t.loaded.dedupKey ≠ key ∧ t.row.dedupKey ≠ key

/-- It is that row, and its status is to stay, or to become resolved. -/
def HoldsStatus (key : String) (t : Tracked) : Prop :=
  t.loaded.dedupKey = key ∧ t.row.dedupKey = key ∧
    (t.row.status = t.loaded.status ∨ t.row.status = .resolved)

/-- It is that row, and its counter is to stay. -/
def HoldsCount (key : String) (t : Tracked) : Prop :=
  t.loaded.dedupKey = key ∧ t.row.dedupKey = key ∧ t.row.retryCount = t.loaded.retryCount

section Moves

variable {env : RetryEnv} {moves : FailureStatus → FailureStatus → Prop} {held : Tracked → Prop}
  {key : String} {before db db' : Database} {t : Tracked} {now : Int} {fields : IngestionFields}
  {row : IngestionFailure} {Q : Database → Prop}

/-- A property of the dead letters is kept if recording and writing them keeps it. -/
theorem keptByRetry_rows
    (hsame : ∀ db db', db'.ingestionFailures = db.ingestionFailures → Q db → Q db')
    (hfailure : ∀ db now fields, Q db → Q (recordIngestionFailure now fields db))
    (hrow : ∀ db t, held t → Q db → Q (t.storeIn db)) : KeptByRetry (fun _ => True) held Q where
  offer db _ := hsame db _ rfl
  failure := hfailure
  config db db' _ _ _ hdone := hsame db db' (by rw [← Attempt.done.inj hdone])
  stamped db db' _ _ _ hdone := hsame db db' (by rw [← Attempt.done.inj hdone])
  row := hrow

theorem statusIn_congr (h : db'.ingestionFailures = db.ingestionFailures) :
    statusIn key db' = statusIn key db := by
  rw [statusIn, statusIn, storedFailure, storedFailure, h]

theorem countIn_congr (h : db'.ingestionFailures = db.ingestionFailures) :
    countIn key db' = countIn key db := by
  rw [countIn, countIn, storedFailure, storedFailure, h]

theorem statusIn_record : statusIn key (recordIngestionFailure now fields db) =
    if fields.dedupKey = key then some .open else statusIn key db := by
  unfold statusIn
  rw [storedFailure_record]
  split
  · cases storedFailure key db with
    | none => rfl
    | some row => rfl
  · rfl

theorem countIn_record : countIn key (recordIngestionFailure now fields db) =
    if fields.dedupKey = key then some ((countIn key db).getD 0) else countIn key db := by
  unfold countIn
  rw [storedFailure_record]
  split
  · cases storedFailure key db with
    | none => rfl
    | some row => rfl
  · rfl

theorem statusMoves_refl (hmoves : ∀ old, moves old old) : StatusMoves moves key before before where
  moved old h := ⟨old, h, hmoves old⟩
  fresh := .inl

theorem countStays_refl : CountStays key before before where
  stayed _ h := h
  fresh := .inl

/-- Writes of rows that may be held keep how the status has moved; a row is held only
when it was there. -/
theorem statusMoves_kept (hopens : ∀ old, moves old .open)
    (hthere : ∀ t, held t → t.loaded.dedupKey = key → statusIn key before ≠ none)
    (hrow : ∀ t stored old, held t → t.loaded.dedupKey = key → moves old stored.status →
      moves old (t.store stored).status) :
    KeptByRetry (fun _ => True) held (StatusMoves moves key before) := by
  refine keptByRetry_rows (fun db db' hsame h => ?_) (fun db now fields h => ?_)
    (fun db t ht h => ?_)
  · refine ⟨?_, ?_⟩
    · rw [statusIn_congr hsame]
      exact h.moved
    · rw [statusIn_congr hsame]
      exact h.fresh
  · refine ⟨fun old hold => ?_, fun hnone => ?_⟩
    · rw [statusIn_record]
      split
      · exact ⟨.open, rfl, hopens old⟩
      · exact h.moved old hold
    · rw [statusIn_record]
      split
      · exact .inr rfl
      · exact h.fresh hnone
  · refine ⟨fun old hold => ?_, fun hnone => ?_⟩
    · obtain ⟨new, hnew, hmoves⟩ := h.moved old hold
      obtain ⟨stored, hstored, rfl⟩ := Option.map_eq_some_iff.mp hnew
      unfold statusIn
      rw [storedFailure_storeIn, hstored]
      split
      · next hkey => exact ⟨_, rfl, hrow t stored old ht hkey.symm hmoves⟩
      · exact ⟨_, rfl, hmoves⟩
    · unfold statusIn
      rw [storedFailure_storeIn, if_neg fun hkey => hthere t ht hkey.symm hnone]
      exact h.fresh hnone

theorem countStays_kept
    (hthere : ∀ t, held t → t.loaded.dedupKey = key → countIn key before ≠ none)
    (hrow : ∀ t stored, held t → t.loaded.dedupKey = key →
      (t.store stored).retryCount = stored.retryCount) :
    KeptByRetry (fun _ => True) held (CountStays key before) := by
  refine keptByRetry_rows (fun db db' hsame h => ?_) (fun db now fields h => ?_)
    (fun db t ht h => ?_)
  · refine ⟨?_, ?_⟩
    · rw [countIn_congr hsame]
      exact h.stayed
    · rw [countIn_congr hsame]
      exact h.fresh
  · refine ⟨fun n hn => ?_, fun hnone => ?_⟩
    · rw [countIn_record, h.stayed n hn]
      split <;> rfl
    · rw [countIn_record]
      split
      · rcases h.fresh hnone with hfresh | hfresh
        · rw [hfresh]
          exact .inr rfl
        · rw [hfresh]
          exact .inr rfl
      · exact h.fresh hnone
  · refine ⟨fun n hn => ?_, fun hnone => ?_⟩
    · obtain ⟨stored, hstored, rfl⟩ := Option.map_eq_some_iff.mp (h.stayed n hn)
      unfold countIn
      rw [storedFailure_storeIn, hstored]
      split
      · next hkey => exact congrArg some (hrow t stored ht hkey.symm)
      · rfl
    · unfold countIn
      rw [storedFailure_storeIn, if_neg fun hkey => hthere t ht hkey.symm hnone]
      exact h.fresh hnone

theorem holdsOther_held : HeldByRetry (HoldsOther key) (HoldsOther key) where
  sent _ h := ⟨h.2, h.2⟩
  stillFailing _ _ _ h := h
  weakened _ h := h
  resolved _ _ h := h
  refreshed _ _ h hkey := ⟨hkey.trans_ne h.1, hkey.trans_ne h.1⟩

theorem column_cases {α : Type} [DecidableEq α] {loaded row stored : α} :
    Tracked.column loaded row stored = stored ∨
      row ≠ loaded ∧ Tracked.column loaded row stored = row := by
  unfold Tracked.column
  split
  · exact .inl rfl
  · next hne => exact .inr ⟨hne, rfl⟩

theorem holdsStatus_held : HeldByRetry (HoldsStatus key) (HoldsStatus key) where
  sent _ h := ⟨h.2.1, h.2.1, .inl rfl⟩
  stillFailing _ _ _ h := h
  weakened _ h := h
  resolved _ _ h := ⟨h.1, h.2.1, .inr rfl⟩
  refreshed _ _ h hkey := ⟨hkey.trans h.1, hkey.trans h.1, .inl rfl⟩

theorem holdsCount_held : HeldByRetry (HoldsCount key) (HoldsCount key) where
  sent _ h := ⟨h.2.1, h.2.1, rfl⟩
  stillFailing _ _ _ h := h
  weakened _ h := h
  resolved _ _ h := h
  refreshed _ _ h hkey := ⟨hkey.trans h.1, hkey.trans h.1, rfl⟩

/-- What a retry does to its own row opens or resolves it. -/
theorem own_statusMoves (hthere : statusIn key before ≠ none) :
    KeptByRetry (fun _ => True) (HoldsStatus key)
      (StatusMoves staysOpensOrResolves key before) := by
  refine statusMoves_kept (fun _ => .inr (.inl rfl)) (fun _ _ _ => hthere) ?_
  rintro t stored old ⟨_, _, hstatus⟩ _ hmoves
  rcases @column_cases _ _ t.loaded.status t.row.status stored.status with hsame | ⟨hne, hrow⟩
  · rw [Tracked.store, hsame]
    exact hmoves
  · rw [Tracked.store, hrow]
    exact .inr (.inr (hstatus.resolve_left hne))

theorem own_countStays (hthere : countIn key before ≠ none) :
    KeptByRetry (fun _ => True) (HoldsCount key) (CountStays key before) := by
  refine countStays_kept (fun _ _ _ => hthere) ?_
  rintro t stored ⟨_, _, hcount⟩ _
  rw [Tracked.store, hcount, column_same]

/-- What is done to other rows only records failures under the key. -/
theorem other_statusMoves : KeptByRetry (fun _ => True) (HoldsOther key)
    (StatusMoves staysOrOpens key before) :=
  statusMoves_kept (fun _ => .inr rfl) (fun _ h hkey => absurd hkey h.1)
    fun _ _ _ h hkey => absurd hkey h.1

theorem other_countStays : KeptByRetry (fun _ => True) (HoldsOther key) (CountStays key before) :=
  countStays_kept (fun _ h hkey => absurd hkey h.1) fun _ _ h hkey => absurd hkey h.1

end Moves

/-- The row that a tick has selected is still open, with the counter that it had. -/
def StillSelected (row : IngestionFailure) (db : Database) : Prop :=
  row.status = .open ∧ statusIn row.dedupKey db = some .open ∧
    countIn row.dedupKey db = some row.retryCount

section Turns

variable {envs : Nat → RetryEnv} {env : RetryEnv} {maxAttempts : Int} {key : String}
  {row other : IngestionFailure} {rows : List IngestionFailure} {db : Database} {number : Nat}

/-- A turn on another row. -/
theorem turn_other (hkey : row.dedupKey ≠ key) :
    StatusMoves staysOrOpens key db
        (afterRetry (treatRow env maxAttempts row (.opened db))) ∧
      CountStays key db (afterRetry (treatRow env maxAttempts row (.opened db))) := by
  have hheld : HeldByRetry (HoldsOther key) (HoldsOther key) := holdsOther_held
  have hrow : HoldsOther key (abandonedRow row) := ⟨hkey, hkey⟩
  exact ⟨afterRetry_both (treatRow_both other_statusMoves hheld (fun _ _ => trivial) hrow
      ⟨hkey, hkey⟩ (statusMoves_refl fun _ => .inl rfl)),
    afterRetry_both (treatRow_both other_countStays hheld (fun _ _ => trivial) hrow
      ⟨hkey, hkey⟩ countStays_refl)⟩

/-- A manual retry of another row. -/
theorem manualRetry_other {key' : String} (hkey : key' ≠ key) :
    StatusMoves staysOrOpens key db (afterManualRetry env key' db) ∧
      CountStays key db (afterManualRetry env key' db) := by
  unfold afterManualRetry
  split
  · exact ⟨statusMoves_refl fun _ => .inl rfl, countStays_refl⟩
  · next row hrow =>
    have hrowKey : row.dedupKey = key' := by simpa using List.find?_some hrow
    have hheld : HoldsOther key (.ofStored row) := ⟨hrowKey.trans_ne hkey, hrowKey.trans_ne hkey⟩
    exact ⟨afterRetry_both (performRetry_both other_statusMoves (fun _ _ => trivial)
        (statusMoves_refl fun _ => .inl rfl) holdsOther_held hheld),
      afterRetry_both (performRetry_both other_countStays (fun _ _ => trivial) countStays_refl
        holdsOther_held hheld)⟩

/-- The manual retry of the row itself. -/
theorem manualRetry_own :
    StatusMoves staysOpensOrResolves key db (afterManualRetry env key db) ∧
      CountStays key db (afterManualRetry env key db) := by
  unfold afterManualRetry
  split
  · exact ⟨statusMoves_refl fun _ => .inl rfl, countStays_refl⟩
  · next row hrow =>
    have hrowKey : row.dedupKey = key := by simpa using List.find?_some hrow
    have hstatus : statusIn key db ≠ none := by
      rw [statusIn, hrow]
      exact nofun
    have hcount : countIn key db ≠ none := by
      rw [countIn, hrow]
      exact nofun
    exact ⟨afterRetry_both (performRetry_both (own_statusMoves hstatus) (fun _ _ => trivial)
        (statusMoves_refl fun _ => .inl rfl) holdsStatus_held ⟨hrowKey, hrowKey, .inl rfl⟩),
      afterRetry_both (performRetry_both (own_countStays hcount) (fun _ _ => trivial)
        countStays_refl holdsCount_held ⟨hrowKey, hrowKey, rfl⟩)⟩

/-- A turn that retries the row itself. -/
theorem attempt_status (hkey : row.dedupKey = key) (hretried : ¬ Exhausted maxAttempts row)
    (hthere : statusIn key db ≠ none) :
    StatusMoves staysOpensOrResolves key db
      (afterRetry (treatRow env maxAttempts row (.opened db))) := by
  unfold treatRow
  rw [if_neg hretried]
  exact afterRetry_both (performRetry_both (own_statusMoves hthere) (fun _ _ => trivial)
    (statusMoves_refl fun _ => .inl rfl) holdsStatus_held ⟨hkey, hkey, .inl rfl⟩)

/-- A turn that abandons the row, or raises. -/
theorem exhausted_cases (hexhausted : Exhausted maxAttempts row) :
    afterRetry (treatRow env maxAttempts row (.opened db)) = db ∨
      afterRetry (treatRow env maxAttempts row (.opened db)) = (abandonedRow row).storeIn db := by
  unfold treatRow
  rw [if_pos hexhausted]
  cases hflush : (abandonedRow row).flush env.postgres (.opened db) with
  | error raised =>
      have hcommitted : KeptByRow (fun _ => True) fun s : Session => s.committed = db :=
        ⟨fun _ h => h, fun _ _ _ h => h⟩
      exact .inl (ends_error (flush_keeps hcommitted trivial rfl) hflush)
  | ok r =>
      obtain ⟨t, s⟩ := r
      obtain ⟨rfl, rfl, _⟩ := flush_ok hflush
      exact .inr rfl

/-- After a turn on another row, a row is still as it was selected. -/
theorem StillSelected.turn (h : StillSelected other db) (hkey : row.dedupKey ≠ other.dedupKey) :
    StillSelected other (afterRetry (treatRow env maxAttempts row (.opened db))) := by
  obtain ⟨hopen, hstatus, hcount⟩ := h
  obtain ⟨hmoves, hstays⟩ := @turn_other env maxAttempts other.dedupKey row db hkey
  obtain ⟨new, hnew, hmove⟩ := hmoves.moved .open hstatus
  have hnewOpen : new = .open := by
    rcases hmove with h | h
    · exact h
    · exact h
  exact ⟨hopen, by rw [hnew, hnewOpen], hstays.stayed _ hcount⟩

end Turns

/-- No two dead letters have the same key. -/
def KeysUnique (db : Database) : Prop :=
  (db.ingestionFailures.map (·.dedupKey)).Nodup

theorem keysUnique_kept : KeptByRetry (fun _ => True) (fun _ => True) KeysUnique := by
  refine keptByRetry_rows (fun db db' hsame h => ?_) (fun db now fields h => ?_)
    (fun db t _ h => ?_)
  · rw [KeysUnique, hsame]
    exact h
  · exact upsert_nodup (fun _ => rfl) h
  · unfold KeysUnique Tracked.storeIn
    dsimp only
    rw [List.map_map]
    have hkeys : ((fun row : IngestionFailure => row.dedupKey) ∘ fun stored =>
        if stored.dedupKey = t.loaded.dedupKey then t.store stored else stored) =
          fun row => row.dedupKey := by
      funext stored
      simp only [Function.comp_apply]
      split <;> rfl
    rw [hkeys]
    exact h

section Induction

variable {γ : Type} {next : γ → HistoryStep → γ} {P : γ → HistoryStep → Prop}
  {Inv : Database → γ → Prop} {Allowed : HistoryStep → Prop} {maxAttempts : Int}

/-- A step that is allowed has the property, and keeps the invariant. -/
def StepKeeps (next : γ → HistoryStep → γ) (P : γ → HistoryStep → Prop)
    (Inv : Database → γ → Prop) (Allowed : HistoryStep → Prop) (step : HistoryStep) : Prop :=
  ∀ c, Inv step.before c → Allowed step → P c step ∧ Inv step.after (next c step)

/-- Steps that go on from a database have the property and keep the invariant. -/
def StepsKeep (next : γ → HistoryStep → γ) (P : γ → HistoryStep → Prop)
    (Inv : Database → γ → Prop) (db : Database) (c : γ) (steps : List HistoryStep) : Prop :=
  Throughout next P c steps ∧ KeysUnique (afterSteps db steps) ∧
    Inv (afterSteps db steps) (steps.foldl next c)

theorem StepsKeep.cons {db : Database} {c : γ} {step : HistoryStep} {steps : List HistoryStep}
    (hfirst : P c step) (hrest : StepsKeep next P Inv step.after (next c step) steps) :
    StepsKeep next P Inv db c (step :: steps) := by
  unfold StepsKeep
  rw [afterSteps_cons]
  exact ⟨⟨hfirst, hrest.1⟩, hrest.2⟩

theorem turn_unique {env : RetryEnv} {row : IngestionFailure} {db : Database} (h : KeysUnique db) :
    KeysUnique (afterRetry (treatRow env maxAttempts row (.opened db))) :=
  afterRetry_both (treatRow_both keysUnique_kept heldByRetry_all (fun _ _ => trivial)
    trivial trivial h)

theorem manualRetry_unique {env : RetryEnv} {key : String} {db : Database} (h : KeysUnique db) :
    KeysUnique (afterManualRetry env key db) := by
  unfold afterManualRetry
  split
  · exact h
  · exact afterRetry_both (performRetry_both keysUnique_kept (fun _ _ => trivial) h
      heldByRetry_all trivial)

/-- What each turn of a tick keeps, all of them keep. -/
theorem turnSteps_keep {envs : Nat → RetryEnv} {number : Nat} {rows : List IngestionFailure}
    {db : Database} {c : γ}
    (hturn : ∀ env row db, row ∈ rows → StillSelected row db → StepKeeps next P Inv Allowed
      ⟨.turn env row, db, afterRetry (treatRow env maxAttempts row (.opened db))⟩)
    (hnodup : (rows.map (·.dedupKey)).Nodup) (hselected : ∀ row ∈ rows, StillSelected row db)
    (hunique : KeysUnique db) (hinv : Inv db c)
    (hallowed : ∀ step ∈ turnSteps envs maxAttempts number rows db, Allowed step) :
    StepsKeep next P Inv db c (turnSteps envs maxAttempts number rows db) := by
  induction rows generalizing number db c with
  | nil => exact ⟨trivial, hunique, hinv⟩
  | cons row rows ih =>
      rw [turnSteps_cons] at hallowed ⊢
      rw [List.map_cons, List.nodup_cons] at hnodup
      obtain ⟨hfirst, hafter⟩ := hturn (envs number) row db List.mem_cons_self
        (hselected row List.mem_cons_self) c hinv (hallowed _ List.mem_cons_self)
      have huniqueAfter := @turn_unique maxAttempts (envs number) row db hunique
      refine .cons hfirst ?_
      dsimp only at hafter ⊢
      cases houtcome : treatRow (envs number) maxAttempts row (.opened db) with
      | error halted =>
          rw [houtcome] at hafter huniqueAfter
          exact ⟨trivial, huniqueAfter, hafter⟩
      | ok r =>
          obtain ⟨t, s⟩ := r
          rw [houtcome] at hafter huniqueAfter
          rw [houtcome] at hallowed
          refine ih (fun env other db hother => hturn env other db (List.mem_cons_of_mem row hother))
            hnodup.2 (fun other hother => ?_) huniqueAfter hafter
            fun step hstep => hallowed step (List.mem_cons_of_mem _ hstep)
          have hne : row.dedupKey ≠ other.dedupKey := by
            intro heq
            exact hnodup.1 (heq ▸ List.mem_map_of_mem hother)
          have hstill := @StillSelected.turn (envs number) maxAttempts row other db
            (hselected other (List.mem_cons_of_mem row hother)) hne
          rw [houtcome] at hstill
          exact hstill

theorem eligibleRows_stillSelected {cutoff : Int} {db : Database} (hunique : KeysUnique db) :
    ∀ row ∈ eligibleRows cutoff db, StillSelected row db := by
  intro row hrow
  obtain ⟨hmem, hpicked⟩ := List.mem_filter.mp hrow
  simp only [Bool.and_eq_true, decide_eq_true_eq] at hpicked
  have hstored := storedFailure_of_mem hunique hmem
  refine ⟨hpicked.1.1, ?_, ?_⟩
  · rw [statusIn, hstored]
    exact congrArg some hpicked.1.1
  · rw [countIn, hstored]
    rfl

/-- What each kind of step keeps, a whole history keeps. -/
theorem history_keeps {start : Database} {c : γ} {events : List HistoryEvent}
    (hrecord : ∀ now fields db, StepKeeps next P Inv Allowed
      ⟨.record now fields, db, recordIngestionFailure now fields db⟩)
    (hretry : ∀ env key db, StepKeeps next P Inv Allowed
      ⟨.retry env key, db, afterManualRetry env key db⟩)
    (hturn : ∀ env row db, (∃ selected c cutoff, Inv selected c ∧ row ∈ eligibleRows cutoff selected) →
      StillSelected row db → StepKeeps next P Inv Allowed
        ⟨.turn env row, db, afterRetry (treatRow env maxAttempts row (.opened db))⟩)
    (hunique : KeysUnique start) (hinv : Inv start c)
    (hallowed : ∀ step ∈ history maxAttempts start events, Allowed step) :
    Throughout next P c (history maxAttempts start events) := by
  induction events generalizing start c with
  | nil => trivial
  | cons event events ih =>
      rw [history] at hallowed ⊢
      have hevent : StepsKeep next P Inv start c (event.steps maxAttempts start) := by
        cases event with
        | record now fields =>
            obtain ⟨hfirst, hafter⟩ := hrecord now fields start c hinv
              (hallowed _ (List.mem_append_left _ (List.mem_singleton_self _)))
            exact .cons hfirst ⟨trivial, upsert_nodup (fun _ => rfl) hunique, hafter⟩
        | retry env key =>
            obtain ⟨hfirst, hafter⟩ := hretry env key start c hinv
              (hallowed _ (List.mem_append_left _ (List.mem_singleton_self _)))
            exact .cons hfirst ⟨trivial, manualRetry_unique hunique, hafter⟩
        | tick envs cutoff =>
            exact turnSteps_keep
              (fun env row db hrow => hturn env row db ⟨start, c, cutoff, hinv, hrow⟩)
              (eligibleRows_selected hunique).1 (eligibleRows_stillSelected hunique) hunique hinv
              fun step hstep => hallowed step (List.mem_append_left _ hstep)
      obtain ⟨hthroughout, huniqueAfter, hafter⟩ := hevent
      exact throughout_append.mpr ⟨hthroughout, ih huniqueAfter hafter
        fun step hstep => hallowed step (List.mem_append_right _ hstep)⟩

end Induction

end RecruFlow.Dlq
