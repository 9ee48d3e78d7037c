import RecruFlow.Dlq.RetryFetch

/-!
# The automatic retries

A tick selects the blocked rows that are old enough and goes through them in one
session, with a commit for each row. Nothing catches the exception of a row.
-/

namespace RecruFlow.Dlq

open Connectors Db Ingestion Lib.Outcome Lib.Transaction

structure DetailRetrySummary where
  attempted : Nat := 0
  resolved : Nat := 0
  stillBlocked : Nat := 0
  abandoned : Nat := 0
  deriving DecidableEq

/-- The rows that a tick selects. -/
def eligibleRows (cutoff : Int) (db : Database) : List IngestionFailure :=
  db.ingestionFailures.filter fun row =>
    row.status = .open && row.blockedStatus.isSome && row.occurredAt ≤ cutoff

/-- The row may not be retried once more. -/
def Exhausted (maxAttempts : Int) (row : IngestionFailure) : Prop :=
  maxAttempts ≤ row.retryCount

instance (maxAttempts : Int) (row : IngestionFailure) : Decidable (Exhausted maxAttempts row) :=
  inferInstanceAs (Decidable (_ ≤ _))

def abandonedRow (row : IngestionFailure) : Tracked := ⟨row, { row with status := .abandoned }⟩

def attemptedRow (row : IngestionFailure) : Tracked :=
  ⟨row, { row with retryCount := row.retryCount + 1 }⟩

/-- A turn of the loop, up to its `COMMIT`. -/
def treatRow (env : RetryEnv) (maxAttempts : Int) (row : IngestionFailure) (s : Session) :
    Retrying (Tracked × Session) :=
  if Exhausted maxAttempts row then raising ((abandonedRow row).flush env.postgres s)
  else performRetry env (attemptedRow row) s

def DetailRetrySummary.count (summary : DetailRetrySummary) (exhausted resolved : Bool) :
    DetailRetrySummary :=
  if exhausted then { summary with abandoned := summary.abandoned + 1 }
  else if resolved then
    { summary with
      attempted := summary.attempted + 1
      resolved := summary.resolved + 1 }
  else
    { summary with
      attempted := summary.attempted + 1
      stillBlocked := summary.stillBlocked + 1 }

/-- A tick: what it returns, or where it halts, the rows that it came to commit, as
their `COMMIT` is sent, and the database that it leaves. -/
structure Tick where
  ending : Except Halt DetailRetrySummary
  treated : List (Tracked × Session)
  db : Database

section Loop

-- the surroundings of each row, by its number
variable (envs : Nat → RetryEnv) (maxAttempts : Int)

def retryRows : (number : Nat) → List IngestionFailure → DetailRetrySummary → Database → Tick
  | _, [], summary, db => ⟨.ok summary, [], db⟩
  | number, row :: rows, summary, db =>
      match treatRow (envs number) maxAttempts row (.opened db) with
      | .error (halt, s) => ⟨.error halt, [], s.committed⟩
      | .ok (t, s) =>
          let summary :=
            summary.count (Exhausted maxAttempts row) (t.row.status = .resolved)
          let rest := retryRows (number + 1) rows summary (commit s)
          { rest with treated := (t, s) :: rest.treated }

def runDetailRetryBatch (cutoff : Int) (db : Database) : Tick :=
  retryRows envs maxAttempts 0 (eligibleRows cutoff db) {} db

/-- A row was abandoned, or retried with its counter raised for good. -/
def TreatedOnce (final : Database) (row : IngestionFailure) (treated : Tracked × Session) : Prop :=
  treated.1.row.dedupKey = row.dedupKey ∧
    if Exhausted maxAttempts row then
      (storedFailure row.dedupKey (commit treated.2)).map (·.status) = some .abandoned
    else (storedFailure row.dedupKey final).map (·.retryCount) = some (row.retryCount + 1)

/-- A tick returns, has treated every row once and says so. -/
def TreatsEvery (rows : List IngestionFailure) (tick : Tick) : Prop :=
  ∃ summary, tick.ending = .ok summary ∧
    List.Forall₂ (TreatedOnce maxAttempts tick.db) rows tick.treated ∧
    summary.attempted = summary.resolved + summary.stillBlocked ∧
    summary.attempted + summary.abandoned = rows.length

/-- Each row comes to its commit in a good transaction: it neither raises nor waits,
and no statement of its was rejected. -/
def EveryRowCommits : (number : Nat) → List IngestionFailure → Database → Prop
  | _, [], _ => True
  | number, row :: rows, db => ∃ t s,
      treatRow (envs number) maxAttempts row (.opened db) = .ok (t, s) ∧ s.aborted = false ∧
        EveryRowCommits (number + 1) rows (commit s)

end Loop

/-- What each step of a retry keeps, of a row and its session. -/
structure RetryKept (env : RetryEnv) (R : Tracked → Session → Prop) : Prop where
  session : ∀ t, KeptByIngestion env.toRunEnv (R t)
  stored : ∀ t s, R t s → R (.ofStored t.row) { s with working := t.storeIn s.working }
  reopened : ∀ t s db, R t (.opened db) → R t s → R t (.opened (commit s))
  marked : ∀ t t' s, t'.loaded = t.loaded → t'.row.dedupKey = t.row.dedupKey →
    t'.row.retryCount = t.row.retryCount → R t s → R t' s
  refreshed : ∀ t s row, t.row = t.loaded →
    storedFailure t.loaded.dedupKey s.working = some row → R t s → R (.ofStored row) s

section Kept

variable {env : RetryEnv} {R : Tracked → Session → Prop} {t t' : Tracked} {s s' : Session}
  {db : Database}

theorem flush_kept (hkept : RetryKept env R) (h : R t s)
    (hflush : t.flush env.postgres s = .ok (t', s')) : R t' s' := by
  obtain ⟨rfl, rfl, _⟩ := flush_ok hflush
  exact hkept.stored t s h

theorem getSource_kept (hkept : RetryKept env R) (h : R t s) {found : Source × String}
    (hget : getSource env t s = .ok (found, t', s')) : R t' s' := by
  obtain ⟨source, connector⟩ := found
  obtain ⟨_, _, rfl, _, rfl⟩ := getSource_ok hget
  exact hkept.stored t s h

theorem retryValidationFailed_kept (hkept : RetryKept env R) (h : R t s) {succeeded : Bool}
    (hretry : retryValidationFailed env t s = .ok (succeeded, t', s')) : R t' s' := by
  unfold retryValidationFailed at hretry
  split at hretry
  · cases hretry
    exact hkept.marked t _ s rfl rfl rfl h
  · split at hretry
    · cases hretry
      exact hkept.marked t _ s rfl rfl rfl h
    · obtain ⟨⟨t₁, s₁⟩, hflush, hretry⟩ := bind_ok hretry
      have hflushed : R t₁ s₁ := flush_kept hkept h hflush
      obtain ⟨⟨_, s₂⟩, hpersist, hend⟩ := bind_ok hretry
      obtain ⟨_, hrest⟩ := Prod.mk.inj (Except.ok.inj hend)
      obtain ⟨rfl, rfl⟩ := Prod.mk.inj hrest
      exact ends_ok
        (persistOffer_kept (hkept.session t₁).kept.onAll (fun _ _ => trivial) hflushed) hpersist

theorem retryDetailFetch_kept {P : Session → Prop}
    (hkept : Kept env.toIngestEnv (fun _ => True) P) (h : P s)
    {fetched : Except PyError (Option Dict)} {mapOffer : Nat → Dict → Except PyError Dict}
    {source : Source} :
    Ends P (·.2) (·.2) (retryDetailFetch env s fetched mapOffer source) := by
  refine ends_bind_same h sessionLift_same fun parsed _ => ?_
  cases parsed with
  | none => exact h
  | some parsed =>
      refine ends_bind_same h sessionLift_same fun mapped _ => ?_
      refine ends_bind (normalizeAndValidate_kept hkept.onAll (fun _ _ _ => trivial) h)
        fun r hr => ?_
      obtain ⟨offer, s'⟩ := r
      cases offer with
      | none => exact hr
      | some offer =>
          exact ends_bind (persistOffer_kept hkept.onAll (fun _ _ => trivial) hr) fun r hr => hr

theorem retryDetailFetchBlocked_kept (hkept : RetryKept env R) (h : R t s) {succeeded : Bool}
    (hretry : retryDetailFetchBlocked env t s = .ok (succeeded, t', s')) : R t' s' := by
  obtain ⟨⟨⟨source, connector⟩, t₁, s₁⟩, hget, hretry⟩ := bind_ok hretry
  have hgot : R t₁ s₁ := getSource_kept hkept h hget
  dsimp only at hretry
  split at hretry
  · cases hretry
    exact hkept.marked t₁ _ _ rfl rfl rfl hgot
  · split at hretry
    · cases hretry
    · split at hretry
      · cases hretry
      · next mapOffer _ =>
        have hdetail : ∀ fetched, Ends (R t₁) (fun raised : Raised => raised.2) (·.2)
            (retryDetailFetch env s₁ fetched mapOffer source) :=
          fun _ => retryDetailFetch_kept (hkept.session t₁).kept hgot
        split at hretry
        · next hreturned =>
          cases hretry
          exact ends_ok (hdetail _) hreturned
        · next hblocked =>
          cases hretry
          exact hkept.marked t₁ _ _ rfl rfl rfl (ends_error (hdetail _) hblocked)
        · cases hretry

theorem retryFetchFailed_kept (hkept : RetryKept env R) (h : R t (.opened db)) {succeeded : Bool}
    (hretry : retryFetchFailed env t (.opened db) = .ok (succeeded, t', s')) :
    R t' s' ∧ t'.row = t'.loaded := by
  obtain ⟨source, connector, hsource, hconnector⟩ := retryFetchFailed_source hretry
  obtain ⟨_, _, rfl, rfl⟩ := retryFetchFailed_ok hsource hconnector hretry
  obtain ⟨hsession, hdb⟩ := @triggerIngest_kept env.toRunEnv env.registry _ connector db
    (hkept.session t) env.fetchedAt h
  refine ⟨?_, rfl⟩
  rcases hdb with hdb | hdb
  · rw [hdb]
    exact hkept.stored t _ h
  · rw [hdb]
    exact hkept.stored t _ (hkept.reopened t _ db h hsession)

theorem retryHandler_kept (hkept : RetryKept env R) (h : R t (.opened db))
    {failureType : FailureType} {succeeded : Bool}
    (hretry : retryHandler env t (.opened db) failureType = .ok (succeeded, t', s')) :
    R t' s' ∧ (externallyRecorded failureType = true → t'.row = t'.loaded) := by
  cases failureType with
  | validationFailed => exact ⟨retryValidationFailed_kept hkept h (mapError_ok hretry), nofun⟩
  | pageFetchFailed =>
      have hfetch := retryFetchFailed_kept hkept h hretry
      exact ⟨hfetch.1, fun _ => hfetch.2⟩
  | runFetchFailed =>
      have hfetch := retryFetchFailed_kept hkept h hretry
      exact ⟨hfetch.1, fun _ => hfetch.2⟩
  | scoringFailed => cases hretry
  | detailFetchBlocked => exact ⟨retryDetailFetchBlocked_kept hkept h (mapError_ok hretry), nofun⟩

theorem settleRetry_kept (hkept : RetryKept env R) {failureType : FailureType} {succeeded : Bool}
    (h : R t s) (hclean : externallyRecorded failureType = true → t.row = t.loaded)
    (hsettle : settleRetry env failureType (succeeded, t, s) = .ok (t', s')) : R t' s' := by
  cases succeeded with
  | true =>
      cases hsettle
      exact hkept.marked t _ _ rfl rfl rfl h
  | false =>
      dsimp only [settleRetry] at hsettle
      split at hsettle
      · next hexternal =>
        obtain ⟨found, hselect, hsettle⟩ := bind_ok hsettle
        obtain ⟨_, rfl⟩ := Session.select_ok hselect
        split at hsettle
        · next row hfound =>
          cases hsettle
          exact hkept.refreshed t _ row (hclean hexternal) hfound h
        · cases hsettle
      · cases hsettle
        exact h

/-- What a retry that comes to its commit keeps. -/
theorem performRetry_kept (hkept : RetryKept env R) (h : R t (.opened db))
    (hretry : performRetry env t (.opened db) = .ok (t', s')) : R t' s' ∧ t'.row = t'.loaded := by
  unfold performRetry at hretry
  split at hretry
  · cases hretry
  · obtain ⟨⟨succeeded, t₁, s₁⟩, hhandler, hretry⟩ := bind_ok hretry
    obtain ⟨hhandled, hclean⟩ := retryHandler_kept hkept h hhandler
    obtain ⟨⟨t₂, s₂⟩, hsettle, hflush⟩ := bind_ok hretry
    have hsettled : R t₂ s₂ := settleRetry_kept hkept hhandled hclean (mapError_ok hsettle)
    have hflush := mapError_ok hflush
    refine ⟨flush_kept hkept hsettled hflush, ?_⟩
    rw [(flush_ok hflush).1]
    rfl

end Kept

/-- The retry counters of the row under a key, in the session and as committed. -/
def Counts (key : String) (working committed : Nat) (s : Session) : Prop :=
  (storedFailure key s.working).map (·.retryCount) = some working ∧
    (storedFailure key s.committed).map (·.retryCount) = some committed

section Counts

variable {env : RetryEnv} {key : String} {n w c : Nat} {t : Tracked} {s : Session}

theorem counts_kept {runEnv : RunEnv} : KeptByIngestion runEnv (Counts key w c) where
  kept :=
    { rejected := fun _ h => h
      offer := fun _ _ h => h
      failure := by
        rintro s fields - ⟨hworking, hcommitted⟩
        refine ⟨?_, hcommitted⟩
        rw [storedFailure_record]
        split
        · obtain ⟨row, hrow, hcount⟩ := Option.map_eq_some_iff.mp hworking
          rw [hrow]
          exact congrArg some hcount
        · exact hworking }
  sources _ _ h := h

theorem counts_commit (h : Counts key w c s) :
    (storedFailure key (commit s)).map (·.retryCount) = some (if s.aborted then c else w) := by
  unfold commit
  split
  · exact h.2
  · exact h.1

/-- The counter of another row. -/
theorem otherCount_kept : RetryKept env fun t s => t.loaded.dedupKey ≠ key ∧
    t.row.dedupKey ≠ key ∧ Counts key n n s where
  session t :=
    { kept :=
        { rejected := fun _ h => h
          offer := fun _ _ h => h
          failure := fun s fields ha h => ⟨h.1, h.2.1, counts_kept.kept.failure s fields ha h.2.2⟩ }
      sources := fun _ _ h => h }
  stored t s h := by
    obtain ⟨hloaded, hrow, hworking, hcommitted⟩ := h
    refine ⟨hrow, hrow, ?_, hcommitted⟩
    rw [storedFailure_storeIn, if_neg (Ne.symm hloaded)]
    exact hworking
  reopened t s db _ h := by
    have hcommit := counts_commit h.2.2
    rw [ite_self] at hcommit
    exact ⟨h.1, h.2.1, hcommit, hcommit⟩
  marked t t' s hloaded hrow _ h := by
    rw [hloaded, hrow]
    exact h
  refreshed t s row _ hfound h := by
    have hkey : row.dedupKey = t.loaded.dedupKey := by simpa using List.find?_some hfound
    exact ⟨by rw [Tracked.ofStored_loaded, hkey]; exact h.1,
      by rw [Tracked.ofStored_row, hkey]; exact h.1, h.2.2⟩

/-- The counter of the row that is retried: it is raised in the session, and sent
with the first flush. -/
def Charged (key : String) (n : Nat) (t : Tracked) (s : Session) : Prop :=
  t.loaded.dedupKey = key ∧ t.row.dedupKey = key ∧ t.row.retryCount = n + 1 ∧
    (t.loaded.retryCount = n ∧ Counts key n n s ∨
      t.loaded.retryCount = n + 1 ∧ Counts key (n + 1) n s)

theorem store_retryCount {stored : IngestionFailure} (hrow : t.row.retryCount = n + 1)
    (hcount : t.loaded.retryCount = n ∨ stored.retryCount = n + 1) :
    (t.store stored).retryCount = n + 1 := by
  simp only [Tracked.store, Tracked.column]
  split
  · next hsame => omega
  · exact hrow

theorem charged_kept : RetryKept env (Charged key n) where
  session t :=
    { kept :=
        { rejected := fun _ h => h
          offer := fun _ _ h => h
          failure := by
            rintro s fields ha ⟨hloaded, hrow, hcount, hcounts⟩
            refine ⟨hloaded, hrow, hcount, ?_⟩
            rcases hcounts with ⟨h, hcounts⟩ | ⟨h, hcounts⟩
            · exact .inl ⟨h, counts_kept.kept.failure s fields ha hcounts⟩
            · exact .inr ⟨h, counts_kept.kept.failure s fields ha hcounts⟩ }
      sources := fun _ _ h => h }
  stored t s h := by
    obtain ⟨hloaded, hrow, hcount, hcounts⟩ := h
    refine ⟨hrow, hrow, hcount, .inr ⟨hcount, ?_, ?_⟩⟩
    · rw [storedFailure_storeIn, if_pos hloaded.symm, Option.map_map]
      rcases hcounts with ⟨hold, hworking, _⟩ | ⟨_, hworking, _⟩
      · obtain ⟨stored, hstored, _⟩ := Option.map_eq_some_iff.mp hworking
        rw [hstored]
        exact congrArg some (store_retryCount hcount (.inl hold))
      · obtain ⟨stored, hstored, hsame⟩ := Option.map_eq_some_iff.mp hworking
        rw [hstored]
        exact congrArg some (store_retryCount hcount (.inr hsame))
    · rcases hcounts with ⟨_, hcounts⟩ | ⟨_, hcounts⟩
      · exact hcounts.2
      · exact hcounts.2
  reopened t s db hopened h := by
    obtain ⟨hloaded, hrow, hcount, hcounts⟩ := h
    have hold : t.loaded.retryCount = n := by
      rcases hopened.2.2.2 with ⟨hold, _⟩ | ⟨_, hworking, hcommitted⟩
      · exact hold
      · have hboth : n + 1 = n := Option.some.inj (hworking.symm.trans hcommitted)
        omega
    have hsame : Counts key n n s := by
      rcases hcounts with ⟨_, hcounts⟩ | ⟨hnew, _⟩
      · exact hcounts
      · omega
    have hcommit := counts_commit hsame
    rw [ite_self] at hcommit
    exact ⟨hloaded, hrow, hcount, .inl ⟨hold, hcommit, hcommit⟩⟩
  marked t t' s hloaded hrow hcount h := by
    obtain ⟨hkey, hkey', hn, hcounts⟩ := h
    exact ⟨hloaded ▸ hkey, hrow ▸ hkey', hcount ▸ hn, hloaded ▸ hcounts⟩
  refreshed t s row hclean hfound h := by
    obtain ⟨hloaded, _, hcount, hcounts⟩ := h
    have hkey : row.dedupKey = t.loaded.dedupKey := by simpa using List.find?_some hfound
    have hsent : Counts key (n + 1) n s := by
      rcases hcounts with ⟨hold, _⟩ | ⟨_, hcounts⟩
      · rw [hclean] at hcount
        omega
      · exact hcounts
    have hrow : row.retryCount = n + 1 := by
      have hworking := hsent.1
      rw [← hloaded, hfound] at hworking
      exact Option.some.inj hworking
    exact ⟨hkey.trans hloaded, hkey.trans hloaded, hrow, .inr ⟨hrow, hsent⟩⟩

end Counts

section Turn

variable {env : RetryEnv} {maxAttempts : Int} {row stored : IngestionFailure} {t : Tracked}
  {s : Session} {db : Database} {key : String} {n : Nat}

/-- A turn of the loop leaves the counters of the other rows alone. -/
theorem treatRow_other (h : treatRow env maxAttempts row (.opened db) = .ok (t, s))
    (hkey : row.dedupKey ≠ key) (hcount : (storedFailure key db).map (·.retryCount) = some n) :
    (storedFailure key (commit s)).map (·.retryCount) = some n := by
  have hcounts : Counts key n n s := by
    unfold treatRow at h
    split at h
    · exact (flush_kept (t := abandonedRow row) otherCount_kept ⟨hkey, hkey, hcount, hcount⟩
        (mapError_ok h)).2.2
    · exact (performRetry_kept (t := attemptedRow row) otherCount_kept
        ⟨hkey, hkey, hcount, hcount⟩ h).1.2.2
  have hcommit := counts_commit hcounts
  rwa [ite_self] at hcommit

/-- The counter of a retried row is raised unless its transaction was aborted. -/
theorem treatRow_attempted (h : treatRow env maxAttempts row (.opened db) = .ok (t, s))
    (hretried : ¬ Exhausted maxAttempts row)
    (hcount : (storedFailure row.dedupKey db).map (·.retryCount) = some row.retryCount) :
    t.row.dedupKey = row.dedupKey ∧
      (storedFailure row.dedupKey (commit s)).map (·.retryCount) =
        some (if s.aborted then row.retryCount else row.retryCount + 1) := by
  unfold treatRow at h
  rw [if_neg hretried] at h
  obtain ⟨⟨_, hkey, hrow, hcounts⟩, hclean⟩ := performRetry_kept (t := attemptedRow row)
    charged_kept ⟨rfl, rfl, rfl, .inl ⟨rfl, hcount, hcount⟩⟩ h
  refine ⟨hkey, counts_commit ?_⟩
  rcases hcounts with ⟨hold, _⟩ | ⟨_, hcounts⟩
  · rw [hclean] at hrow
    omega
  · exact hcounts

/-- A row that is abandoned is so in a good transaction. -/
theorem treatRow_abandoned (h : treatRow env maxAttempts row (.opened db) = .ok (t, s))
    (hexhausted : Exhausted maxAttempts row) (hopen : row.status = .open)
    (hstored : storedFailure row.dedupKey db = some stored) :
    t.row.dedupKey = row.dedupKey ∧ s.aborted = false ∧
      (storedFailure row.dedupKey (commit s)).map (·.status) = some .abandoned := by
  unfold treatRow at h
  rw [if_pos hexhausted] at h
  obtain ⟨rfl, rfl, _⟩ := flush_ok (mapError_ok h)
  refine ⟨rfl, rfl, ?_⟩
  change (storedFailure row.dedupKey ((abandonedRow row).storeIn db)).map (·.status) = _
  have hstatus : ((abandonedRow row).store stored).status = .abandoned := by
    simp [Tracked.store, Tracked.column, abandonedRow, hopen]
  rw [storedFailure_storeIn]
  simp [abandonedRow, hstored] at hstatus ⊢
  exact hstatus

end Turn

section Tick

variable {envs : Nat → RetryEnv} {maxAttempts : Int} {row : IngestionFailure}
  {rows : List IngestionFailure} {t : Tracked} {s : Session} {db : Database} {key : String}
  {n number : Nat} {summary final : DetailRetrySummary}

theorem retryRows_cons (h : treatRow (envs number) maxAttempts row (.opened db) = .ok (t, s)) :
    retryRows envs maxAttempts number (row :: rows) summary db =
      let summary := summary.count (Exhausted maxAttempts row) (t.row.status = .resolved)
      let rest := retryRows envs maxAttempts (number + 1) rows summary (commit s)
      { rest with treated := (t, s) :: rest.treated } := by
  rw [retryRows, h]

theorem retryRows_cons_halt {halt : Halt}
    (h : treatRow (envs number) maxAttempts row (.opened db) = .error (halt, s)) :
    retryRows envs maxAttempts number (row :: rows) summary db =
      ⟨.error halt, [], s.committed⟩ := by
  rw [retryRows, h]

/-- A loop that gets to its end has counted each row, on one side of the summary. -/
theorem retryRows_summary
    (h : (retryRows envs maxAttempts number rows summary db).ending = .ok final)
    (hsummary : summary.attempted = summary.resolved + summary.stillBlocked) :
    final.attempted = final.resolved + final.stillBlocked ∧
      final.attempted + final.abandoned = summary.attempted + summary.abandoned + rows.length := by
  induction rows generalizing number summary db with
  | nil =>
      obtain rfl := Except.ok.inj h
      exact ⟨hsummary, rfl⟩
  | cons row rows ih =>
      cases hturn : treatRow (envs number) maxAttempts row (.opened db) with
      | error halted =>
          obtain ⟨halt, s⟩ := halted
          rw [retryRows_cons_halt hturn] at h
          cases h
      | ok r =>
          obtain ⟨t, s⟩ := r
          rw [retryRows_cons hturn] at h
          have hcount : ∀ exhausted resolved,
              (summary.count exhausted resolved).attempted =
                (summary.count exhausted resolved).resolved +
                  (summary.count exhausted resolved).stillBlocked ∧
              (summary.count exhausted resolved).attempted +
                  (summary.count exhausted resolved).abandoned =
                summary.attempted + summary.abandoned + 1 := by
            intro exhausted resolved
            cases exhausted <;> cases resolved <;> simp [DetailRetrySummary.count] <;> omega
          have hcounted := hcount (Exhausted maxAttempts row) (t.row.status = .resolved)
          have hrest := ih h hcounted.1
          refine ⟨hrest.1, ?_⟩
          rw [hrest.2, hcounted.2, List.length_cons]
          omega

/-- A loop that gets to its end leaves the counters of other rows alone. -/
theorem retryRows_other
    (h : (retryRows envs maxAttempts number rows summary db).ending = .ok final)
    (hkeys : key ∉ rows.map (·.dedupKey))
    (hcount : (storedFailure key db).map (·.retryCount) = some n) :
    (storedFailure key (retryRows envs maxAttempts number rows summary db).db).map (·.retryCount) =
      some n := by
  induction rows generalizing number summary db with
  | nil => exact hcount
  | cons row rows ih =>
      rw [List.map_cons, List.mem_cons, not_or] at hkeys
      cases hturn : treatRow (envs number) maxAttempts row (.opened db) with
      | error halted =>
          obtain ⟨halt, s⟩ := halted
          rw [retryRows_cons_halt hturn] at h
          cases h
      | ok r =>
          obtain ⟨t, s⟩ := r
          rw [retryRows_cons hturn] at h ⊢
          exact ih h hkeys.2 (treatRow_other hturn (Ne.symm hkeys.1) hcount)

/-- The rows as they were selected: open, under keys of their own, with the counters
that they still have. -/
def Selected (rows : List IngestionFailure) (db : Database) : Prop :=
  (rows.map (·.dedupKey)).Nodup ∧ ∀ row ∈ rows, row.status = .open ∧
    (storedFailure row.dedupKey db).map (·.retryCount) = some row.retryCount

/-- After a turn of the loop the later rows are as they were selected. -/
theorem Selected.tail (h : Selected (row :: rows) db)
    (hturn : treatRow (envs number) maxAttempts row (.opened db) = .ok (t, s)) :
    Selected rows (commit s) := by
  obtain ⟨hnodup, hrows⟩ := h
  rw [List.map_cons, List.nodup_cons] at hnodup
  refine ⟨hnodup.2, fun other hother => ?_⟩
  obtain ⟨hopen, hcount⟩ := hrows other (List.mem_cons_of_mem row hother)
  have hne : row.dedupKey ≠ other.dedupKey := by
    intro heq
    exact hnodup.1 (heq ▸ List.mem_map_of_mem hother)
  exact ⟨hopen, treatRow_other hturn hne hcount⟩

/-- A row whose turn comes to its commit is treated for good exactly when its
transaction was not aborted. -/
theorem treatedOnce_iff (h : Selected (row :: rows) db)
    (hturn : treatRow (envs number) maxAttempts row (.opened db) = .ok (t, s))
    (hrest : (retryRows envs maxAttempts (number + 1) rows summary (commit s)).ending = .ok final) :
    TreatedOnce maxAttempts
        (retryRows envs maxAttempts (number + 1) rows summary (commit s)).db row (t, s) ↔
      s.aborted = false := by
  obtain ⟨hnodup, hrows⟩ := h
  rw [List.map_cons, List.nodup_cons] at hnodup
  obtain ⟨hopen, hcount⟩ := hrows row List.mem_cons_self
  unfold TreatedOnce
  by_cases hexhausted : Exhausted maxAttempts row
  · obtain ⟨stored, hstored, _⟩ := Option.map_eq_some_iff.mp hcount
    obtain ⟨hkey, hgood, hstatus⟩ := treatRow_abandoned hturn hexhausted hopen hstored
    rw [if_pos hexhausted]
    exact ⟨fun _ => hgood, fun _ => ⟨hkey, hstatus⟩⟩
  · obtain ⟨hkey, hcommit⟩ := treatRow_attempted hturn hexhausted hcount
    have hfinal := retryRows_other hrest hnodup.1 hcommit
    rw [if_neg hexhausted, hfinal]
    cases s.aborted with
    | true => simp
    | false => simpa using hkey

/-- A loop treats its rows exactly when each of them comes to its commit. -/
theorem retryRows_treated_iff (h : Selected rows db) :
    ((∃ final, (retryRows envs maxAttempts number rows summary db).ending = .ok final) ∧
        List.Forall₂ (TreatedOnce maxAttempts
          (retryRows envs maxAttempts number rows summary db).db) rows
          (retryRows envs maxAttempts number rows summary db).treated) ↔
      EveryRowCommits envs maxAttempts number rows db := by
  induction rows generalizing number summary db with
  | nil => exact ⟨fun _ => trivial, fun _ => ⟨⟨summary, rfl⟩, .nil⟩⟩
  | cons row rows ih =>
      cases hturn : treatRow (envs number) maxAttempts row (.opened db) with
      | error halted =>
          obtain ⟨halt, s⟩ := halted
          rw [retryRows_cons_halt hturn]
          simp [EveryRowCommits, hturn]
      | ok r =>
          obtain ⟨t, s⟩ := r
          rw [retryRows_cons hturn]
          constructor
          · rintro ⟨⟨final, hend⟩, hall⟩
            obtain ⟨htreated, hothers⟩ := List.forall₂_cons.mp hall
            exact ⟨t, s, hturn, (treatedOnce_iff h hturn hend).mp htreated,
              (ih (h.tail hturn)).mp ⟨⟨final, hend⟩, hothers⟩⟩
          · rintro ⟨t', s', hturn', hgood, hcommits⟩
            obtain ⟨rfl, rfl⟩ := Prod.mk.inj (Except.ok.inj (hturn.symm.trans hturn'))
            obtain ⟨⟨final, hend⟩, hothers⟩ := (ih (h.tail hturn)).mpr hcommits
            exact ⟨⟨final, hend⟩, .cons ((treatedOnce_iff h hturn hend).mpr hgood) hothers⟩

theorem storedFailure_of_mem (hkeys : (db.ingestionFailures.map (·.dedupKey)).Nodup)
    (hrow : row ∈ db.ingestionFailures) : storedFailure row.dedupKey db = some row := by
  unfold storedFailure
  generalize db.ingestionFailures = rows at hkeys hrow
  induction rows with
  | nil => cases hrow
  | cons first rows ih =>
      rw [List.map_cons, List.nodup_cons] at hkeys
      rcases List.mem_cons.mp hrow with rfl | hlater
      · simp
      · have hne : first.dedupKey ≠ row.dedupKey := by
          intro heq
          exact hkeys.1 (heq ▸ List.mem_map_of_mem hlater)
        rw [List.find?_cons_of_neg (by simpa using hne)]
        exact ih hkeys.2 hlater

theorem eligibleRows_selected {cutoff : Int}
    (hkeys : (db.ingestionFailures.map (·.dedupKey)).Nodup) :
    Selected (eligibleRows cutoff db) db := by
  refine ⟨hkeys.sublist (List.filter_sublist.map _), fun row hrow => ?_⟩
  obtain ⟨hmem, heligible⟩ := List.mem_filter.mp hrow
  simp only [Bool.and_eq_true, decide_eq_true_eq] at heligible
  exact ⟨heligible.1.1, by rw [storedFailure_of_mem hkeys hmem]; rfl⟩

end Tick

/-- One tick treats every eligible row exactly once, and says so, exactly when each of
them comes to its commit. -/
theorem tick_treats_every_row_iff (envs : Nat → RetryEnv) (cutoff maxAttempts : Int)
    (db : Database) (hkeys : (db.ingestionFailures.map (·.dedupKey)).Nodup) :
    TreatsEvery maxAttempts (eligibleRows cutoff db)
        (runDetailRetryBatch envs maxAttempts cutoff db) ↔
      EveryRowCommits envs maxAttempts 0 (eligibleRows cutoff db) db := by
  have htreated : ((∃ final, (runDetailRetryBatch envs maxAttempts cutoff db).ending = .ok final) ∧
      List.Forall₂ (TreatedOnce maxAttempts (runDetailRetryBatch envs maxAttempts cutoff db).db)
        (eligibleRows cutoff db) (runDetailRetryBatch envs maxAttempts cutoff db).treated) ↔
      EveryRowCommits envs maxAttempts 0 (eligibleRows cutoff db) db :=
    retryRows_treated_iff (eligibleRows_selected hkeys)
  rw [← htreated]
  constructor
  · rintro ⟨summary, hend, hall, _⟩
    exact ⟨⟨summary, hend⟩, hall⟩
  · rintro ⟨⟨summary, hend⟩, hall⟩
    obtain ⟨hsplit, htotal⟩ := retryRows_summary hend rfl
    exact ⟨summary, hend, hall, hsplit, by simpa using htotal⟩

/-! ## A stopped connector -/

/-- A blocked posting whose url was not stored. -/
def blockedDetailRow : IngestionFailure :=
  { blockedPageRow with
    dedupKey := "source:1:detail_url:a"
    failureType := FailureType.detailFetchBlocked.value
    page := none }

def stoppedDb : Database :=
  { sources :=
      [{ id := 1
         name := "remotive"
         connector := some "remotive"
         configJson := ⟨[("connector_enabled", .bool false)]⟩
         lastFetchedAt := none }]
    ingestionFailures := [blockedPageRow, blockedDetailRow] }

/-- The first row raises, and the second is not retried. -/
theorem stopped_connector_blocks_others :
    let tick := runDetailRetryBatch (fun _ => remotiveRetryEnv quietBoard) 5 0 stoppedDb
    eligibleRows 0 stoppedDb = [blockedPageRow, blockedDetailRow] ∧
      tick.ending = .error (.raised .connectorDisabled) ∧ tick.db = stoppedDb ∧
      ¬ TreatsEvery 5 (eligibleRows 0 stoppedDb) tick := by
  intro tick
  have hend : tick.ending = .error (.raised .connectorDisabled) := rfl
  refine ⟨rfl, hend, rfl, fun h => ?_⟩
  obtain ⟨summary, hreturned, _⟩ := h
  rw [hend] at hreturned
  cases hreturned

def blockedDetailDb : Database :=
  { stoppedDb with ingestionFailures := [blockedDetailRow] }

theorem tick_treats_every_row_iff_detail :
    TreatsEvery 5 (eligibleRows 0 blockedDetailDb)
      (runDetailRetryBatch (fun _ => remotiveRetryEnv quietBoard) 5 0 blockedDetailDb) := by
  apply (tick_treats_every_row_iff _ 0 5 blockedDetailDb (by decide)).mpr
  exact ⟨_, _, rfl, rfl, trivial⟩

end RecruFlow.Dlq
