import RecruFlow.Dlq.RetryFrame
import RecruFlow.Scoring.Backlog

/-!
# Retrying a scoring failure

The handler scores the offer again and adds one row for the score, whatever scores the
pair has. The handlers are chosen by the type of the failure alone, whichever table its
row is in.
-/

namespace RecruFlow.Dlq

open Db Ingestion Lib.Outcome Lib.Transaction Schemas Scoring

/-- A row of `scoring_failures` in the session: its attributes, and what they were when
the row was last read or written. -/
structure TrackedScoring where
  loaded : ScoringFailure
  row : ScoringFailure

namespace TrackedScoring

def ofStored (row : ScoringFailure) : TrackedScoring := ⟨row, row⟩

/-- The columns that a retry changes. -/
def store (t : TrackedScoring) (stored : ScoringFailure) : ScoringFailure :=
  { stored with
    errorMessage := Tracked.column t.loaded.errorMessage t.row.errorMessage stored.errorMessage
    status := Tracked.column t.loaded.status t.row.status stored.status
    occurredAt := Tracked.column t.loaded.occurredAt t.row.occurredAt stored.occurredAt
    resolvedAt := Tracked.column t.loaded.resolvedAt t.row.resolvedAt stored.resolvedAt }

def storeIn (t : TrackedScoring) (db : Database) : Database :=
  { db with
    scoringFailures := db.scoringFailures.map fun stored =>
      if stored.dedupKey = t.loaded.dedupKey then t.store stored else stored }

def flush (postgres : Postgres) (t : TrackedScoring) (s : Session) :
    Except Raised (TrackedScoring × Session) :=
  if t.row = t.loaded then pure (t, s)
  else do
    let s ← s.write fun db => (postgres.scoringFailure t.row db).insert (t.storeIn db)
    pure ({ t with loaded := t.row }, s)

def markStillFailing (now : Int) (errorMessage : String) (t : TrackedScoring) : TrackedScoring :=
  { t with row := { t.row with errorMessage, occurredAt := now } }

def markResolved (now : Int) (t : TrackedScoring) : TrackedScoring :=
  { t with row := { t.row with status := .resolved, resolvedAt := some now } }

end TrackedScoring

/-- What surrounds the retry of a scoring failure. -/
structure ScoringRetryEnv extends IngestEnv where
  /-- `score_offer_with_langchain`: a score or the text of a `MatcherError`. -/
  scoreOffer : Profile → OfferRow → Except PyError (Except String Score)
  /-- `datetime.now(UTC)` of the retry. -/
  retriedAt : Int

variable (env : ScoringRetryEnv) (t : TrackedScoring) (s : Session)

/-- What a handler returns: whether the retry succeeded, the row, the scores that were
added to the session, and the session. -/
structure HandledScoring where
  succeeded : Bool
  tracked : TrackedScoring
  added : List MatchScore
  session : Session

/-- The row of `match_scores` for a score. -/
def newMatchScore (offerRow : OfferRow) (profileRow : ProfileRow) (score : Score) : MatchScore where
  offerId := offerRow.id
  profileId := profileRow.id
  scorePercent := score.scorePercent
  rationale := score.rationale
  computedFrom := profileRow.data.getD .empty

def retryScoringFailed : Except Raised HandledScoring := do
  let (t, s) ← t.flush env.postgres s
  let offerRow ← s.select fun db => db.offers.find? (·.id = t.row.offerId)
  let profileRow ← s.select fun db => getProfileById db t.row.profileId
  match offerRow, profileRow with
  | some offerRow, some profileRow =>
      match ← s.lift (env.scoreOffer (profileRow.data.getD .empty) offerRow) with
      | .error message => pure ⟨false, t.markStillFailing env.retriedAt message, [], s⟩
      | .ok score => pure ⟨true, t, [newMatchScore offerRow profileRow score], s⟩
  | _, _ =>
      pure ⟨false, t.markStillFailing env.retriedAt
        "cannot retry: offer or profile no longer exists", [], s⟩

/-- `_retry_validation_failed`, which reads columns that both tables have. -/
def retryScoringPayload : Except Raised HandledScoring :=
  match t.row.rawPayload with
  | none =>
      pure ⟨false, t.markStillFailing env.retriedAt "cannot retry: no raw payload stored", [], s⟩
  | some rawPayload =>
      match Offer.modelValidate env.pydantic rawPayload with
      | none =>
          pure ⟨false, t.markStillFailing env.retriedAt (env.validationError rawPayload), [], s⟩
      | some offer => do
          let (t, s) ← t.flush env.postgres s
          let (_, s) ← persistOffer env.toIngestEnv offer rawPayload s
          pure ⟨true, t, [], s⟩

/-- `RETRY_HANDLERS`, for a row of `scoring_failures`. -/
def scoringRetryHandler : FailureType → Except Raised HandledScoring
  | .validationFailed => retryScoringPayload env t s
  | .scoringFailed => retryScoringFailed env t s
  -- `row.source_id`
  | .pageFetchFailed | .runFetchFailed | .detailFetchBlocked => .error (.attributeError, s)

def addScores (scores : List MatchScore) (db : Database) : Database :=
  { db with matchScores := db.matchScores ++ scores }

/-- The `INSERT`s of the scores in the session. -/
def insertScores (postgres : Postgres) : List MatchScore → Session → Except Raised Session
  | [], s => pure s
  | score :: scores, s => do
      let s ← s.write fun db => (postgres.matchScore score db).insert (addScores [score] db)
      insertScores postgres scores s

/-- What `perform_retry` sends once its handler has answered. -/
def settleScoring (handled : HandledScoring) : Except Raised (TrackedScoring × Session) := do
  let t := if handled.succeeded then handled.tracked.markResolved env.retriedAt
    else handled.tracked
  let s ← insertScores env.postgres handled.added handled.session
  t.flush env.postgres s

/-- `perform_retry`; the session is as its `COMMIT` is sent. -/
def performScoringRetry : Except Raised (TrackedScoring × Session) :=
  match FailureType.ofValue t.row.failureType with
  | none => .error (.unknownFailureType, s)
  | some failureType => do
      let handled ← scoringRetryHandler env t s failureType
      settleScoring env handled

/-- The row of `scoring_failures` under a key. -/
def storedScoringFailure (key : String) (db : Database) : Option ScoringFailure :=
  db.scoringFailures.find? (·.dedupKey = key)

def afterScoringRetry : Except Raised (TrackedScoring × Session) → Database
  | .ok (_, s) => commit s
  | .error (_, s) => s.committed

/-- The database that the manual retry of a scoring failure leaves. -/
def afterManualScoringRetry (key : String) (db : Database) : Database :=
  match storedScoringFailure key db with
  | none => db
  | some row => afterScoringRetry (performScoringRetry env (.ofStored row) (.opened db))

/-- The retry of a stored row comes to its commit, and its handler has reported success. -/
def scoringRetryResolves (row : ScoringFailure) (db : Database) : Bool :=
  match FailureType.ofValue row.failureType with
  | none => false
  | some failureType =>
      match scoringRetryHandler env (.ofStored row) (.opened db) failureType with
      | .ok handled =>
          handled.succeeded && (performScoringRetry env (.ofStored row) (.opened db)).isOk
      | .error _ => false

section Rows

variable {env : ScoringRetryEnv} {row : ScoringFailure} {t t' : TrackedScoring} {s s' : Session}
  {db : Database} {key : String} {scores : List MatchScore} {handled : HandledScoring}

theorem scoringStoreIn_clean (h : t.row = t.loaded) : t.storeIn db = db := by
  have hrows : (db.scoringFailures.map fun stored =>
      if stored.dedupKey = t.loaded.dedupKey then t.store stored else stored) =
        db.scoringFailures := by
    simp [TrackedScoring.store, h]
  rw [TrackedScoring.storeIn, hrows]

theorem scoringFlush_clean {postgres : Postgres} (h : t.row = t.loaded) :
    t.flush postgres s = .ok (t, s) :=
  if_pos h

theorem scoringFlush_ok {postgres : Postgres} (h : t.flush postgres s = .ok (t', s')) :
    s' = { s with working := t.storeIn s.working } := by
  unfold TrackedScoring.flush at h
  split at h
  · next hclean =>
    obtain ⟨_, rfl⟩ := Prod.mk.inj (Except.ok.inj h)
    rw [scoringStoreIn_clean hclean]
  · obtain ⟨s₁, hwrite, hend⟩ := bind_ok h
    obtain ⟨_, rfl⟩ := Prod.mk.inj (Except.ok.inj hend)
    obtain ⟨_, db, hdone, rfl⟩ := Session.write_done hwrite
    rw [← Verdict.insert_done hdone]

theorem insertScores_ok {postgres : Postgres} (h : insertScores postgres scores s = .ok s') :
    s' = { s with working := addScores scores s.working } := by
  induction scores generalizing s with
  | nil =>
      rw [addScores, List.append_nil]
      exact (Except.ok.inj h).symm
  | cons score scores ih =>
      obtain ⟨s₁, hwrite, hrest⟩ := bind_ok h
      obtain ⟨_, db, hdone, rfl⟩ := Session.write_done hwrite
      rw [ih hrest, Verdict.insert_done hdone]
      simp only [addScores, List.append_assoc, List.singleton_append]

theorem storedScoringFailure_storeIn : storedScoringFailure key (t.storeIn db) =
    if key = t.loaded.dedupKey then (storedScoringFailure key db).map t.store
    else storedScoringFailure key db :=
  find?_map_update fun _ => rfl

/-- The offer, the profile and the score that a retry finds. -/
structure Rescored (env : ScoringRetryEnv) (row : ScoringFailure) (db : Database)
    (score : MatchScore) : Prop where
  answered : ∃ offerRow profileRow answer,
    db.offers.find? (·.id = row.offerId) = some offerRow ∧
      getProfileById db row.profileId = some profileRow ∧
      env.scoreOffer (profileRow.data.getD .empty) offerRow = .ok (.ok answer) ∧
      score = newMatchScore offerRow profileRow answer

theorem Rescored.pair {score : MatchScore} (h : Rescored env row db score) :
    score.offerId = row.offerId ∧ score.profileId = row.profileId := by
  obtain ⟨offerRow, profileRow, answer, hoffer, hprofile, _, rfl⟩ := h.answered
  have hofferId : offerRow.id = row.offerId := by simpa using List.find?_some hoffer
  have hprofileId : profileRow.id = row.profileId := by simpa using List.find?_some hprofile
  exact ⟨hofferId, hprofileId⟩

theorem Rescored.unique {score score' : MatchScore} (h : Rescored env row db score)
    (h' : Rescored env row db score') : score = score' := by
  obtain ⟨offerRow, profileRow, answer, hoffer, hprofile, hanswer, rfl⟩ := h.answered
  obtain ⟨offerRow', profileRow', answer', hoffer', hprofile', hanswer', rfl⟩ := h'.answered
  obtain rfl := Option.some.inj (hoffer.symm.trans hoffer')
  obtain rfl := Option.some.inj (hprofile.symm.trans hprofile')
  obtain rfl := Except.ok.inj (Except.ok.inj (hanswer.symm.trans hanswer'))
  rfl

/-- What the handler of a scoring failure answers, for a row that it has not changed. -/
theorem retryScoringFailed_ok
    (h : retryScoringFailed env (.ofStored row) (.opened db) = .ok handled) :
    handled.session = .opened db ∧ handled.tracked.loaded = row ∧
      (handled.succeeded = false ∧ handled.added = [] ∨
        handled.succeeded = true ∧ ∃ score, Rescored env row db score ∧ handled.added = [score]) := by
  obtain ⟨⟨t₁, s₁⟩, hflush, h⟩ := bind_ok h
  rw [scoringFlush_clean rfl] at hflush
  obtain ⟨rfl, rfl⟩ := Prod.mk.inj (Except.ok.inj hflush)
  obtain ⟨offerRow, hoffer, h⟩ := bind_ok h
  obtain ⟨_, rfl⟩ := Session.select_ok hoffer
  obtain ⟨profileRow, hprofile, h⟩ := bind_ok h
  obtain ⟨_, rfl⟩ := Session.select_ok hprofile
  split at h
  · next offerRow profileRow hoffer hprofile =>
    obtain ⟨answer, hanswer, h⟩ := bind_ok h
    have hanswer := Session.lift_ok hanswer
    cases answer with
    | error message =>
        obtain rfl := Except.ok.inj h
        exact ⟨rfl, rfl, .inl ⟨rfl, rfl⟩⟩
    | ok answer =>
        obtain rfl := Except.ok.inj h
        exact ⟨rfl, rfl, .inr ⟨rfl, _, ⟨offerRow, profileRow, answer, hoffer, hprofile, hanswer, rfl⟩,
          rfl⟩⟩
  · obtain rfl := Except.ok.inj h
    exact ⟨rfl, rfl, .inl ⟨rfl, rfl⟩⟩

theorem performScoringRetry_of_type {failureType : FailureType}
    (htype : FailureType.ofValue row.failureType = some failureType) :
    performScoringRetry env (.ofStored row) s =
      (scoringRetryHandler env (.ofStored row) s failureType >>= settleScoring env) := by
  unfold performScoringRetry
  change (match FailureType.ofValue row.failureType with | none => _ | some failureType => _) = _
  rw [htype]

theorem settleScoring_ok (h : settleScoring env handled = .ok (t', s')) :
    ∃ t : TrackedScoring, t.loaded = handled.tracked.loaded ∧
      s' = { handled.session with
        working := t.storeIn (addScores handled.added handled.session.working) } := by
  obtain ⟨s, hinsert, hflush⟩ := bind_ok h
  obtain rfl := insertScores_ok hinsert
  rw [scoringFlush_ok hflush]
  refine ⟨_, ?_, rfl⟩
  split <;> rfl

theorem scoringFlush_keeps {postgres : Postgres} {P : Session → Prop}
    (hrejected : ∀ s, P s → P { s with aborted := true })
    (hrow : ∀ s (t : TrackedScoring), P s → P { s with working := t.storeIn s.working }) (h : P s) :
    Ends P (·.2) (·.2) (t.flush postgres s) := by
  unfold TrackedScoring.flush
  split
  · exact h
  · have hwrite : Ends P (fun raised : Raised => raised.2) id
        (s.write fun db => (postgres.scoringFailure t.row db).insert (t.storeIn db)) := by
      refine write_kept hrejected (fun s db hdone hs => ?_) h
      rw [Verdict.insert_done hdone]
      exact hrow s t hs
    exact ends_bind hwrite fun _ hs => hs

/-- The writes of the retry of a scoring failure keep a property of the session. -/
structure KeptByScoringRetry (env : IngestEnv) (P : Session → Prop) : Prop
    extends KeptFor env (fun _ => True) (fun _ => True) P where
  score : ∀ s score, P s → P { s with working := addScores [score] s.working }
  row : ∀ s (t : TrackedScoring), P s → P { s with working := t.storeIn s.working }

section Kept

variable {P : Session → Prop} (hkept : KeptByScoringRetry env.toIngestEnv P) (h : P s)
include hkept h

theorem insertScores_keeps {postgres : Postgres} :
    Ends P (·.2) id (insertScores postgres scores s) := by
  induction scores generalizing s with
  | nil => exact h
  | cons score scores ih =>
      have hwrite : Ends P (fun raised : Raised => raised.2) id
          (s.write fun db => (postgres.matchScore score db).insert (addScores [score] db)) := by
        refine write_kept hkept.rejected (fun s db hdone hs => ?_) h
        rw [Verdict.insert_done hdone]
        exact hkept.score s score hs
      exact ends_bind hwrite fun _ hs => ih hs

omit h in
theorem settleScoring_keeps (hs : P handled.session) :
    Ends P (·.2) (·.2) (settleScoring env handled) :=
  ends_bind (insertScores_keeps hkept hs) fun _ hs => scoringFlush_keeps hkept.rejected hkept.row hs

theorem scoringRetryHandler_keeps {failureType : FailureType} :
    Ends P (·.2) (·.session) (scoringRetryHandler env t s failureType) := by
  cases failureType with
  | pageFetchFailed => exact h
  | runFetchFailed => exact h
  | detailFetchBlocked => exact h
  | validationFailed =>
      change Ends _ _ _ (retryScoringPayload env t s)
      unfold retryScoringPayload
      split
      · exact h
      · split
        · exact h
        · refine ends_bind (scoringFlush_keeps hkept.rejected hkept.row h) fun r hr => ?_
          exact ends_bind (persistOffer_kept hkept.toKeptFor (fun _ _ => trivial) hr) fun _ hs => hs
  | scoringFailed =>
      refine ends_bind (scoringFlush_keeps hkept.rejected hkept.row h) fun r hr => ?_
      refine ends_bind_same hr select_same fun offerRow _ => ?_
      refine ends_bind_same hr select_same fun profileRow _ => ?_
      split
      · refine ends_bind_same hr sessionLift_same fun answer _ => ?_
        cases answer with
        | error message => exact hr
        | ok score => exact hr
      · exact hr

theorem performScoringRetry_keeps : Ends P (·.2) (·.2) (performScoringRetry env t s) := by
  unfold performScoringRetry
  split
  · exact h
  · exact ends_bind (scoringRetryHandler_keeps hkept h) fun _ hs => settleScoring_keeps hkept hs

end Kept

/-- Nothing is committed before the end. -/
theorem performScoringRetry_committed :
    Ends (fun s : Session => s.committed = db) (·.2) (·.2)
      (performScoringRetry env t (.opened db)) := by
  have hkept : KeptByScoringRetry env.toIngestEnv fun s : Session => s.committed = db :=
    { rejected := fun _ h => h
      offer := fun _ _ _ h => h
      failure := fun _ _ _ h => h
      score := fun _ _ h => h
      row := fun _ _ h => h }
  exact performScoringRetry_keeps hkept rfl

theorem afterScoringRetry_both {Q : Database → Prop}
    {outcome : Except Raised (TrackedScoring × Session)} (h : Ends (Both Q) (·.2) (·.2) outcome) :
    Q (afterScoringRetry outcome) := by
  cases outcome with
  | error raised => exact h.2
  | ok r => exact Both.commit h

/-- The retry of a scoring failure: one score more when it is resolved, and the row. -/
theorem scoringRetry_cases
    (htype : FailureType.ofValue row.failureType = some .scoringFailed) :
    (scoringRetryResolves env row db = false ∧ ∃ t : TrackedScoring, t.loaded = row ∧
      afterScoringRetry (performScoringRetry env (.ofStored row) (.opened db)) = t.storeIn db) ∨
    (scoringRetryResolves env row db = true ∧ ∃ t : TrackedScoring, t.loaded = row ∧
      ∃ score, Rescored env row db score ∧
        afterScoringRetry (performScoringRetry env (.ofStored row) (.opened db)) =
          t.storeIn (addScores [score] db)) := by
  have hclean : (TrackedScoring.ofStored row).storeIn db = db := scoringStoreIn_clean rfl
  have hretry := @performScoringRetry_of_type env row (.opened db) _ htype
  unfold scoringRetryResolves
  rw [htype]
  dsimp only
  have hhalted : ∀ raised, performScoringRetry env (.ofStored row) (.opened db) = .error raised →
      afterScoringRetry (performScoringRetry env (.ofStored row) (.opened db)) =
        (TrackedScoring.ofStored row).storeIn db := by
    intro raised herror
    have hcommitted := ends_error performScoringRetry_committed herror
    rw [herror, hclean]
    exact hcommitted
  cases hhandler : scoringRetryHandler env (.ofStored row) (.opened db) .scoringFailed with
  | error raised =>
      rw [hhandler] at hretry
      exact .inl ⟨rfl, _, rfl, hhalted raised hretry⟩
  | ok handled =>
      rw [hhandler] at hretry
      have hretry : performScoringRetry env (.ofStored row) (.opened db) =
          settleScoring env handled := hretry
      obtain ⟨hsession, hloaded, hadded⟩ := retryScoringFailed_ok hhandler
      cases hsettled : settleScoring env handled with
      | error raised =>
          rw [hsettled] at hretry
          refine .inl ⟨?_, _, rfl, hhalted raised hretry⟩
          rw [hretry]
          exact Bool.and_false _
      | ok r =>
          obtain ⟨t', s'⟩ := r
          rw [hsettled] at hretry
          rw [hretry]
          obtain ⟨t, ht, rfl⟩ := settleScoring_ok hsettled
          rw [hsession]
          rcases hadded with ⟨hfailed, hnone⟩ | ⟨hsucceeded, score, hscore, hone⟩
          · refine .inl ⟨congrArg (· && _) hfailed, t, ht.trans hloaded, ?_⟩
            rw [hnone]
            change t.storeIn (addScores [] db) = _
            rw [addScores, List.append_nil]
          · refine .inr ⟨?_, t, ht.trans hloaded, score, hscore, ?_⟩
            · dsimp only
              rw [hsucceeded]
              rfl
            · rw [hone]
              rfl

end Rows

end RecruFlow.Dlq
