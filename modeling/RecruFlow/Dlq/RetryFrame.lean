import RecruFlow.Dlq.RetryBatch

/-!
# What retries keep of the database

A retry updates its row, and beside that inserts an offer or has a connector run.
What these writes keep, the database has however the retry ends, and after every
turn of a tick.
-/

namespace RecruFlow.Dlq

open Connectors Db Ingestion Lib.Outcome Lib.Transaction

/-- A handler goes on holding the row of its retry in some way, and the retry then in
another, whatever they make of it. -/
structure HeldByRetry (held settled : Tracked → Prop) : Prop where
  sent : ∀ t, held t → held (.ofStored t.row)
  stillFailing : ∀ t now errorMessage, held t → held (t.markStillFailing now errorMessage)
  weakened : ∀ t, held t → settled t
  resolved : ∀ t now, held t → settled (t.markResolved now)
  refreshed : ∀ t row, held t → row.dedupKey = t.loaded.dedupKey → settled (.ofStored row)

theorem heldByRetry_all : HeldByRetry (fun _ => True) fun _ => True :=
  ⟨fun _ _ => trivial, fun _ _ _ _ => trivial, fun _ _ => trivial, fun _ _ _ => trivial,
    fun _ _ _ _ => trivial⟩

/-- Writing a row that is held in such a way keeps a property of the session. -/
structure KeptByRow (held : Tracked → Prop) (P : Session → Prop) : Prop where
  rejected : ∀ s, P s → P { s with aborted := true }
  row : ∀ s (t : Tracked), held t → P s → P { s with working := t.storeIn s.working }

/-- So do the writes of ingestions of some sources. -/
structure KeptByWrites (env : RunEnv) (dispatched : Nat → Prop) (held : Tracked → Prop)
    (P : Session → Prop) : Prop
    extends KeptByDispatch env dispatched P, KeptByRow held P

/-- The writes of a retry, and of runs of some sources, keep a property of the database. -/
structure KeptByRetry (dispatched : Nat → Prop) (held : Tracked → Prop)
    (Q : Database → Prop) : Prop where
  offer : ∀ db row, Q db →
    Q { db with offers := db.offers ++ [row], nextOfferId := db.nextOfferId + 1 }
  failure : ∀ db now fields, Q db → Q (recordIngestionFailure now fields db)
  config : ∀ db db' sourceId configJson, dispatched sourceId →
    updateConfig sourceId configJson db = .done db' → Q db → Q db'
  stamped : ∀ db db' sourceId now, dispatched sourceId →
    stampFetched sourceId now db = .done db' → Q db → Q db'
  row : ∀ db (t : Tracked), held t → Q db → Q (t.storeIn db)

/-- The database has the property, with the open transaction and without it. -/
def Both (Q : Database → Prop) (s : Session) : Prop :=
  Q s.working ∧ Q s.committed

/-- The database that a retry leaves: what it has committed, or what was committed
when it halted. -/
def afterRetry : Retrying (Tracked × Session) → Database
  | .ok (_, s) => commit s
  | .error (_, s) => s.committed

/-- The sources that the retry of a row may have run. -/
def RetryDispatches (row : IngestionFailure) (db : Database) (sourceId : Nat) : Prop :=
  ∃ source connector,
    db.sources.find? (fun source => (source.id : Int) = row.sourceId) = some source ∧
      source.connector = some connector ∧ MayDispatch connector db sourceId

section Handlers

variable {env : RetryEnv} {dispatched : Nat → Prop} {held settled : Tracked → Prop}
  {P : Session → Prop} {Q : Database → Prop} {t t' : Tracked} {s s' : Session} {db : Database}

theorem Both.opened (h : Q db) : Both Q (.opened db) := ⟨h, h⟩

theorem Both.commit (h : Both Q s) : Q (commit s) := by
  unfold Lib.Transaction.commit
  split
  · exact h.2
  · exact h.1

theorem KeptByRetry.both {runEnv : RunEnv} (h : KeptByRetry dispatched held Q) :
    KeptByWrites runEnv dispatched held (Both Q) where
  kept :=
    { rejected := fun _ hs => hs
      offer := fun s row hs => ⟨h.offer s.working row hs.1, hs.2⟩
      failure := fun s fields _ hs => ⟨h.failure s.working _ fields hs.1, hs.2⟩ }
  config sourceId hsource s configJson db hdone hs :=
    ⟨h.config s.working db sourceId configJson hsource hdone hs.1, hs.2⟩
  stamped sourceId now s db hsource hdone hs :=
    ⟨h.stamped s.working db sourceId now hsource hdone hs.1, hs.2⟩
  rejected _ hs := hs
  row s t ht hs := ⟨h.row s.working t ht hs.1, hs.2⟩

theorem raising_ends {α : Type} {done : α → Session} {x : Except Raised α}
    (h : Ends P (·.2) done x) : Ends P (·.2) done (raising x) :=
  ends_mapError h fun _ hs => hs

section Held

variable (hheld : HeldByRetry held settled) (ht : held t)
include hheld ht

theorem flush_held {postgres : Postgres} (h : t.flush postgres s = .ok (t', s')) : held t' := by
  obtain ⟨rfl, _, _⟩ := flush_ok h
  exact hheld.sent t ht

theorem getSource_held {found : Source × String}
    (h : getSource env t s = .ok (found, t', s')) : held t' := by
  obtain ⟨source, connector⟩ := found
  obtain ⟨_, _, rfl, _, _⟩ := getSource_ok h
  exact hheld.sent t ht

theorem retryValidationFailed_held {succeeded : Bool}
    (h : retryValidationFailed env t s = .ok (succeeded, t', s')) : held t' := by
  unfold retryValidationFailed at h
  split at h
  · cases h
    exact hheld.stillFailing t _ _ ht
  · split at h
    · cases h
      exact hheld.stillFailing t _ _ ht
    · obtain ⟨⟨t₁, s₁⟩, hflush, h⟩ := bind_ok h
      obtain ⟨⟨result, s₂⟩, _, hend⟩ := bind_ok h
      cases hend
      exact flush_held hheld ht hflush

theorem retryFetchFailed_held {succeeded : Bool}
    (h : retryFetchFailed env t s = .ok (succeeded, t', s')) : held t' := by
  obtain ⟨⟨⟨source, connector⟩, t₁, s₁⟩, hget, h⟩ := bind_ok h
  have ht₁ := getSource_held hheld ht (mapError_ok hget)
  dsimp only at h
  split at h
  · cases h
  · split at h
    · cases h
    · cases h
      exact ht₁

theorem retryDetailFetchBlocked_held {succeeded : Bool}
    (h : retryDetailFetchBlocked env t s = .ok (succeeded, t', s')) : held t' := by
  obtain ⟨⟨⟨source, connector⟩, t₁, s₁⟩, hget, h⟩ := bind_ok h
  have ht₁ := getSource_held hheld ht hget
  dsimp only at h
  split at h
  · cases h
    exact hheld.stillFailing t₁ _ _ ht₁
  · split at h
    · cases h
    · split at h
      · cases h
      · split at h
        · cases h
          exact ht₁
        · cases h
          exact hheld.stillFailing t₁ _ _ ht₁
        · cases h

theorem retryHandler_held {failureType : FailureType} {succeeded : Bool}
    (h : retryHandler env t s failureType = .ok (succeeded, t', s')) : held t' := by
  cases failureType with
  | validationFailed => exact retryValidationFailed_held hheld ht (mapError_ok h)
  | pageFetchFailed => exact retryFetchFailed_held hheld ht h
  | runFetchFailed => exact retryFetchFailed_held hheld ht h
  | scoringFailed => cases h
  | detailFetchBlocked => exact retryDetailFetchBlocked_held hheld ht (mapError_ok h)

theorem settleRetry_held {failureType : FailureType} {succeeded : Bool}
    (h : settleRetry env failureType (succeeded, t, s) = .ok (t', s')) : settled t' := by
  cases succeeded with
  | true =>
      cases h
      exact hheld.resolved t _ ht
  | false =>
      dsimp only [settleRetry] at h
      split at h
      · obtain ⟨found, hselect, h⟩ := bind_ok h
        obtain ⟨_, rfl⟩ := Session.select_ok hselect
        split at h
        · next row hfound =>
          cases h
          exact hheld.refreshed t row ht (by simpa using List.find?_some hfound)
        · cases h
      · cases h
        exact hheld.weakened t ht

end Held

section Session

variable (hrow : KeptByRow held P)
include hrow

theorem flush_keeps (ht : held t) (h : P s) : Ends P (·.2) (·.2) (t.flush env.postgres s) := by
  unfold Tracked.flush
  split
  · exact h
  · have hwrite : Ends P (fun raised : Raised => raised.2) id
        (s.write fun db => (env.postgres.ingestionFailure t.row db).insert (t.storeIn db)) := by
      refine write_kept hrow.rejected (fun s db hdone hs => ?_) h
      rw [Verdict.insert_done hdone]
      exact hrow.row s t ht hs
    exact ends_bind hwrite fun s' hs => hs

theorem getSource_keeps (ht : held t) (h : P s) :
    Ends P (·.2) (·.2.2) (getSource env t s) := by
  refine ends_bind (flush_keeps hrow ht h) fun r hr => ?_
  obtain ⟨t', s'⟩ := r
  refine ends_bind_same hr select_same fun source _ => ?_
  cases source with
  | none => exact hr
  | some source =>
      dsimp only
      split
      · exact hr
      · exact hr

omit hrow in
theorem settleRetry_keeps {failureType : FailureType} {handled : Handled} (h : P handled.2.2) :
    Ends P (·.2) (·.2) (settleRetry env failureType handled) := by
  obtain ⟨succeeded, t, s⟩ := handled
  cases succeeded with
  | true => exact h
  | false =>
      dsimp only [settleRetry]
      split
      · refine ends_bind_same h select_same fun found _ => ?_
        cases found with
        | none => exact h
        | some stored => exact h
      · exact h

/-- A retry keeps what its handler does. -/
theorem performRetry_keeps {handling : Tracked → Prop} (hheld : HeldByRetry handling held)
    (ht : handling t) (h : P s)
    (hhandler : ∀ failureType, FailureType.ofValue t.row.failureType = some failureType →
      Ends P (·.2) (·.2.2) (retryHandler env t s failureType)) :
    Ends P (·.2) (·.2) (performRetry env t s) := by
  unfold performRetry
  split
  · exact h
  · next failureType htype =>
    refine ends_bind_of (hhandler failureType htype) fun handled hreturned hhandled => ?_
    obtain ⟨succeeded, t₁, s₁⟩ := handled
    have ht₁ := retryHandler_held hheld ht hreturned
    refine ends_bind_of (raising_ends (settleRetry_keeps hhandled)) fun r hsettled hr => ?_
    exact raising_ends (flush_keeps hrow (settleRetry_held hheld ht₁ (mapError_ok hsettled)) hr)

end Session

theorem retryValidationFailed_keeps (hkept : KeptByWrites env.toRunEnv dispatched held P)
    (ht : held t) (h : P s) :
    Ends P (·.2) (·.2.2) (retryValidationFailed env t s) := by
  unfold retryValidationFailed
  split
  · exact h
  · split
    · exact h
    · refine ends_bind (flush_keeps hkept.toKeptByRow ht h) fun r hr => ?_
      exact ends_bind (persistOffer_kept hkept.kept.onAll (fun _ _ => trivial) hr) fun r hr => hr

theorem retryDetailFetchBlocked_keeps (hkept : KeptByWrites env.toRunEnv dispatched held P)
    (ht : held t) (h : P s) :
    Ends P (·.2) (·.2.2) (retryDetailFetchBlocked env t s) := by
  refine ends_bind (getSource_keeps hkept.toKeptByRow ht h) fun r hr => ?_
  obtain ⟨⟨source, connector⟩, t', s'⟩ := r
  dsimp only
  split
  · exact hr
  · split
    · exact hr
    · split
      · exact hr
      · next mapOffer _ =>
        have hdetail : ∀ fetched, Ends P (fun raised : Raised => raised.2) (·.2)
            (retryDetailFetch env s' fetched mapOffer source) :=
          fun _ => retryDetailFetch_kept hkept.kept hr
        split
        · next hreturned =>
          have hs := ends_ok (hdetail _) hreturned
          exact hs
        · next hblocked =>
          have hs := ends_error (hdetail _) hblocked
          exact hs
        · next hraised =>
          have hs := ends_error (hdetail _) hraised
          exact hs

section Database

variable (hkept : KeptByRetry dispatched held Q)
  (hdispatch : ∀ sourceId, RetryDispatches t.row db sourceId → dispatched sourceId)
  (ht : held t) (h : Q db)
include hkept hdispatch ht h

theorem retryFetchFailed_both :
    Ends (Both Q) (·.2) (·.2.2) (retryFetchFailed env t (.opened db)) := by
  have hwrites : KeptByWrites env.toRunEnv dispatched held (Both Q) := hkept.both
  have hget : Ends (Both Q) (fun raised : Halt × Session => raised.2) (·.2.2)
      (raising (getSource env t (.opened db))) :=
    raising_ends (getSource_keeps hwrites.toKeptByRow ht (.opened h))
  unfold retryFetchFailed
  cases hgot : raising (getSource env t (.opened db)) with
  | error halted =>
      rw [hgot] at hget
      exact hget
  | ok r =>
      obtain ⟨⟨source, connector⟩, t', s'⟩ := r
      rw [hgot] at hget
      obtain ⟨hsource, hconnector, _, _, rfl⟩ := getSource_ok (mapError_ok hgot)
      have htriggered : Q (triggerIngest env.toRunEnv env.registry env.fetchedAt connector db).db := by
        obtain ⟨hsession, hdb⟩ := @triggerIngest_keptOn env.toRunEnv env.registry _ connector db
          dispatched hwrites.toKeptByDispatch
          (fun sourceId hmay => hdispatch sourceId ⟨source, connector, hsource, hconnector, hmay⟩)
          env.fetchedAt (Both.opened h)
        rcases hdb with hdb | hdb
        · rw [hdb]
          exact h
        · rw [hdb]
          exact hsession.commit
      change Ends (Both Q) (fun raised : Halt × Session => raised.2)
        (fun handled : Handled => handled.2.2) (ite _ _ _)
      split
      · exact hget
      · dsimp only
        split
        · exact ⟨hkept.row _ t ht htriggered, htriggered⟩
        · exact ⟨hkept.row _ t ht htriggered, htriggered⟩

theorem retryHandler_both {failureType : FailureType} :
    Ends (Both Q) (·.2) (·.2.2) (retryHandler env t (.opened db) failureType) := by
  cases failureType with
  | validationFailed =>
      exact raising_ends (retryValidationFailed_keeps hkept.both ht (.opened h))
  | pageFetchFailed => exact retryFetchFailed_both hkept hdispatch ht h
  | runFetchFailed => exact retryFetchFailed_both hkept hdispatch ht h
  | scoringFailed => exact Both.opened h
  | detailFetchBlocked =>
      exact raising_ends (retryDetailFetchBlocked_keeps hkept.both ht (.opened h))

omit ht in
theorem performRetry_both {handling : Tracked → Prop} (hheld : HeldByRetry handling held)
    (ht : handling t) : Ends (Both Q) (·.2) (·.2) (performRetry env t (.opened db)) := by
  have hwrites : KeptByWrites env.toRunEnv dispatched held (Both Q) := hkept.both
  exact performRetry_keeps hwrites.toKeptByRow hheld ht (.opened h) fun _ _ =>
    retryHandler_both hkept hdispatch (hheld.weakened t ht) h

end Database

theorem treatRow_both {maxAttempts : Int} {row : IngestionFailure} {handling : Tracked → Prop}
    (hkept : KeptByRetry dispatched held Q) (hheld : HeldByRetry handling held)
    (hdispatch : ∀ sourceId, RetryDispatches row db sourceId → dispatched sourceId)
    (habandoned : held (abandonedRow row)) (hattempted : handling (attemptedRow row)) (h : Q db) :
    Ends (Both Q) (·.2) (·.2) (treatRow env maxAttempts row (.opened db)) := by
  have hwrites : KeptByWrites env.toRunEnv dispatched held (Both Q) := hkept.both
  unfold treatRow
  split
  · exact raising_ends (flush_keeps hwrites.toKeptByRow habandoned (.opened h))
  · exact performRetry_both hkept hdispatch h hheld hattempted

theorem afterRetry_both {outcome : Retrying (Tracked × Session)}
    (h : Ends (Both Q) (·.2) (·.2) outcome) : Q (afterRetry outcome) := by
  cases outcome with
  | error halted => exact h.2
  | ok r => exact Both.commit h

end Handlers

/-- A turn of a tick: its number, its row as it was selected, and the database before
and after it. -/
structure Turn where
  number : Nat
  row : IngestionFailure
  before : Database
  after : Database

section Turns

variable (envs : Nat → RetryEnv) (maxAttempts : Int)

/-- The turns that a tick comes to. -/
def turns : (number : Nat) → List IngestionFailure → Database → List Turn
  | _, [], _ => []
  | number, row :: rows, db =>
      let outcome := treatRow (envs number) maxAttempts row (.opened db)
      ⟨number, row, db, afterRetry outcome⟩ ::
        match outcome with
        | .error _ => []
        | .ok (_, s) => turns (number + 1) rows (commit s)

variable {envs maxAttempts} {number : Nat} {row : IngestionFailure} {rows : List IngestionFailure}
  {db : Database} {summary : DetailRetrySummary} {turn : Turn}

theorem turns_cons : turns envs maxAttempts number (row :: rows) db =
    ⟨number, row, db, afterRetry (treatRow (envs number) maxAttempts row (.opened db))⟩ ::
      match treatRow (envs number) maxAttempts row (.opened db) with
      | .error _ => []
      | .ok (_, s) => turns envs maxAttempts (number + 1) rows (commit s) := rfl

/-- A tick leaves what its last turn leaves. -/
theorem retryRows_db : (retryRows envs maxAttempts number rows summary db).db =
    ((turns envs maxAttempts number rows db).getLast?.map (·.after)).getD db := by
  induction rows generalizing number summary db with
  | nil => rfl
  | cons row rows ih =>
      rw [turns_cons]
      cases hturn : treatRow (envs number) maxAttempts row (.opened db) with
      | error halted =>
          obtain ⟨halt, s⟩ := halted
          rw [retryRows_cons_halt hturn]
          rfl
      | ok r =>
          obtain ⟨t, s⟩ := r
          rw [retryRows_cons hturn, List.getLast?_cons]
          dsimp only
          rw [ih]
          cases (turns envs maxAttempts (number + 1) rows (commit s)).getLast? with
          | none => rfl
          | some last => rfl

/-- The rows of the turns are those of the tick, and each starts in a database with
what the turns keep. -/
theorem turns_both {dispatched : Nat → Prop} {Q : Database → Prop}
    (hkept : KeptByRetry dispatched (fun _ => True) Q)
    (hdispatch : ∀ row db sourceId, Q db → RetryDispatches row db sourceId → dispatched sourceId)
    (h : Q db) (hturn : turn ∈ turns envs maxAttempts number rows db) :
    Q turn.before ∧ Q turn.after ∧
      turn.after = afterRetry (treatRow (envs turn.number) maxAttempts turn.row (.opened turn.before)) ∧
      number ≤ turn.number ∧ rows[turn.number - number]? = some turn.row := by
  induction rows generalizing number db with
  | nil => cases hturn
  | cons row rows ih =>
      have hafter : Q (afterRetry (treatRow (envs number) maxAttempts row (.opened db))) :=
        afterRetry_both (treatRow_both hkept heldByRetry_all
          (fun sourceId => hdispatch row db sourceId h) trivial trivial h)
      rw [turns_cons] at hturn
      rcases List.mem_cons.mp hturn with rfl | hlater
      · exact ⟨h, hafter, rfl, Nat.le_refl _, by simp⟩
      · cases houtcome : treatRow (envs number) maxAttempts row (.opened db) with
        | error halted =>
            rw [houtcome] at hlater
            cases hlater
        | ok r =>
            obtain ⟨t, s⟩ := r
            rw [houtcome] at hlater hafter
            obtain ⟨hbefore, hturnAfter, heq, hle, hrow⟩ := ih hafter hlater
            refine ⟨hbefore, hturnAfter, heq, Nat.le_of_succ_le hle, ?_⟩
            have hnumber : turn.number - number = turn.number - (number + 1) + 1 := by omega
            rw [hnumber, List.getElem?_cons_succ]
            exact hrow

end Turns

end RecruFlow.Dlq
