import RecruFlow.Ingestion.Persist

/-!
# What a rejected dead letter costs its run

The writes of a run share one transaction, and `record_failure` opens no
savepoint. Swallowing the exception of its `INSERT` keeps the run going, but
from then on the transaction can only be rolled back.
-/

namespace RecruFlow.Dlq

open Db Ingestion Schemas Lib.Transaction

/-- A write of a run in its session. What the unit of work flushes later, a
score or a cursor, stands where the run asks for it. -/
inductive Call where
  | persistOffer (offer : Offer) (rawPayload : Dict)
  | addScore (score : MatchScore)
  | setConfig (sourceId : Nat) (configJson : Dict)
  | ingestionFailure (fields : IngestionFields)
  | scoringFailure (fields : ScoringFields)

variable (env : IngestEnv)

def insertScore (score : MatchScore) (db : Database) : Attempt Database :=
  (env.postgres.matchScore score db).insert
    { db with matchScores := db.matchScores ++ [score] }

/-- The statement of a call of `record_failure`. -/
def Call.deadLetter : Call → Option (Database → Attempt Database)
  | ingestionFailure fields => some (insertIngestionFailure env.postgres env.startedAt fields)
  | scoringFailure fields => some (insertScoringFailure env.postgres env.startedAt fields)
  | _ => none

def Call.perform (s : Session) : Call → Except Raised Session
  | persistOffer offer rawPayload => do
      let (_, s) ← Ingestion.persistOffer env offer rawPayload s
      pure s
  | addScore score => s.write (insertScore env score)
  | setConfig sourceId configJson => s.write (updateConfig sourceId configJson)
  | ingestionFailure fields => pure (recordFailure env.postgres env.startedAt fields s)
  | scoringFailure fields =>
      pure (attempt (insertScoringFailure env.postgres env.startedAt fields) s).2

/-- How a run ends: whether it got through, and the session that it leaves. -/
def ended : Except Raised Session → Bool × Session
  | .ok s => (true, s)
  | .error (_, s) => (false, s)

/-- The database after a run. The error handler of a scheduled run commits, that
of a manual run rolls back. -/
def runCalls (commitsOnError : Bool) (calls : List Call) (db : Database) : Database :=
  settle commitsOnError (ended (calls.foldlM (Call.perform env) (Session.opened db)))

/-- What becomes of storing an offer, taken as one statement. -/
def attemptOffer (offer : Offer) (rawPayload : Dict) (db : Database) : Attempt Database :=
  match persistOffer env offer rawPayload (Session.opened db) with
  | .ok (_, s) => .done s.working
  | .error (_, s) => if s.aborted then .rejected else .unsent

def Call.work : Call → Work Database
  | persistOffer offer rawPayload => .write (attemptOffer env offer rawPayload)
  | addScore score => .write (insertScore env score)
  | setConfig sourceId configJson => .write (updateConfig sourceId configJson)
  | ingestionFailure fields =>
      .swallowed (insertIngestionFailure env.postgres env.startedAt fields)
  | scoringFailure fields => .swallowed (insertScoringFailure env.postgres env.startedAt fields)

/-- What a run has to commit, computed on the database alone; `none` is nothing. -/
def effects (commitsOnError : Bool) (calls : List Call) (db : Database) : Option Database :=
  Lib.Transaction.effects commitsOnError (calls.map (·.work env)) db

variable {env} {commitsOnError : Bool} {calls before after : List Call} {call : Call}
  {stmt : Database → Attempt Database} {db : Database} {s : Session}

theorem ended_write {f : Database → Attempt Database} : ended (s.write f) = attempt f s := by
  unfold Session.write
  split
  · next h => exact h.symm
  · next h => exact h.symm

theorem ended_persistOffer (offer : Offer) (rawPayload : Dict) :
    ended (Call.perform env s (.persistOffer offer rawPayload)) =
      attempt (attemptOffer env offer rawPayload) s := by
  obtain ⟨base, w, aborted⟩ := s
  cases aborted with
  | true => rfl
  | false =>
      have hcases := @persistOffer_cases env offer rawPayload w
      rcases hcases with ⟨result, w', _, h⟩ | ⟨e, aborted, h⟩
      · simp [Call.perform, h, attempt, attemptOffer, Session.opened, bind, Except.bind, pure,
          Except.pure, ended]
      · cases aborted <;>
          simp [Call.perform, h, attempt, attemptOffer, Session.opened, bind, Except.bind, ended]

/-- Performing calls is running their works. -/
theorem ended_foldlM : ended (calls.foldlM (Call.perform env) s) =
    run (calls.map (·.work env)) s := by
  induction calls generalizing s with
  | nil => rfl
  | cons call calls ih =>
      have hwrite : ∀ f : Database → Attempt Database,
          ended (Call.perform env s call) = attempt f s →
          ended ((call :: calls).foldlM (Call.perform env) s) =
            run (.write f :: calls.map (·.work env)) s := by
        intro f hf
        rw [List.foldlM_cons, run, ← hf]
        cases Call.perform env s call with
        | ok s' => exact ih
        | error raised => rfl
      cases call with
      | persistOffer offer rawPayload => exact hwrite _ (ended_persistOffer offer rawPayload)
      | addScore score => exact hwrite _ ended_write
      | setConfig sourceId configJson => exact hwrite _ ended_write
      | ingestionFailure fields => exact ih
      | scoringFailure fields => exact ih

theorem runCalls_eq_outcome : runCalls env commitsOnError calls db =
    outcome commitsOnError (calls.map (·.work env)) db := by
  rw [runCalls, ended_foldlM, outcome]

theorem runCalls_eq : runCalls env commitsOnError calls db =
    (effects env commitsOnError calls db).getD db :=
  runCalls_eq_outcome.trans outcome_eq

theorem deadLetter_work (hcall : call.deadLetter env = some stmt) :
    call.work env = .swallowed stmt := by
  cases call with
  | ingestionFailure fields => exact congrArg Work.swallowed (Option.some.inj hcall)
  | scoringFailure fields => exact congrArg Work.swallowed (Option.some.inj hcall)
  | persistOffer offer rawPayload => cases hcall
  | addScore score => cases hcall
  | setConfig sourceId configJson => cases hcall

theorem run_of_foldlM
    (hrun : before.foldlM (Call.perform env) (Session.opened db) = .ok s) :
    run (before.map (·.work env)) (Session.opened db) = (true, s) := by
  rw [← ended_foldlM, hrun]
  rfl

/-- A run with a rejected dead letter commits nothing. -/
theorem runCalls_of_rejected (hcall : call.deadLetter env = some stmt)
    (hrun : before.foldlM (Call.perform env) (Session.opened db) = .ok s)
    (hrejected : s.aborted = true ∨ stmt s.working = .rejected) :
    runCalls env commitsOnError (before ++ call :: after) db = db := by
  rw [runCalls_eq_outcome, List.map_append, List.map_cons, deadLetter_work hcall]
  exact outcome_of_rejected (run_of_foldlM hrun) hrejected

/-- A rejected dead letter leaves the other writes of its run as if it had not
been tried exactly when there is nothing to lose: the other calls have nothing
to commit, or change nothing. -/
theorem rejected_deadLetter_harmless_iff (hcall : call.deadLetter env = some stmt)
    (hrun : before.foldlM (Call.perform env) (Session.opened db) = .ok s)
    (hrejected : s.aborted = true ∨ stmt s.working = .rejected) :
    runCalls env commitsOnError (before ++ call :: after) db =
        runCalls env commitsOnError (before ++ after) db ↔
      effects env commitsOnError (before ++ after) db = none ∨
        effects env commitsOnError (before ++ after) db = some db := by
  simp only [runCalls_eq_outcome, effects, List.map_append, List.map_cons, deadLetter_work hcall]
  exact outcome_rejected_iff (run_of_foldlM hrun) hrejected

/-! ## A title that the key cannot hold -/

/-- A record without url and company. -/
def untitledFields (title : String) : Dict :=
  ⟨[("source_id", .int 1), ("title", .str title)]⟩

def untitledKey (title : String) : String := "validation:" ++ "1" ++ ":" ++ title ++ ":" ++ ""

theorem untitledFields_key (title : String) :
    validationFailureDedupKey acmeEnv (untitledFields title) = .ok (untitledKey title) :=
  rfl

theorem untitledFields_invalid (title : String) :
    Offer.modelValidate acmeEnv.pydantic (untitledFields title) = none :=
  rfl

def untitledFailure (title : String) : IngestionFields :=
  validationFields acmeEnv (untitledFields title) (untitledKey title) 1

/-- One stored offer, before the record that is not valid. -/
def storedFirst : Call := .persistOffer firstOffer (acmeFields "a")

theorem untitledFailure_rejected {title : String} (h : 255 ≤ title.length) (db : Database) :
    insertIngestionFailure acmeEnv.postgres acmeEnv.startedAt (untitledFailure title) db =
      .rejected := by
  have hprefix : ("validation:" ++ "1" ++ ":" ++ title).length =
      ("validation:" ++ "1" ++ ":").length + title.length :=
    String.length_append _ title
  have hkey : untitledKey title = "validation:" ++ "1" ++ ":" ++ title ++ ":" :=
    String.append_empty
  have hstored : storedKey (untitledFailure title).dedupKey = none := by
    have hdedup : (untitledFailure title).dedupKey = untitledKey title := rfl
    rw [hdedup, hkey]
    exact storedKey_append_colon (by omega)
  exact insertIngestionFailure_of_long_key hstored nofun

/-- The session after the first call. -/
def storedSession : Session :=
  let row := newOfferRow acmeEnv firstOffer (acmeFields "a")
    "45bea61968abc70597864c25a863e19aa7e03888dca7e43ff6461bb1de0bcef6" {}
  ⟨{}, { offers := [row], nextOfferId := 2 }, false⟩

theorem storedFirst_run :
    [storedFirst].foldlM (Call.perform acmeEnv) (Session.opened {}) = .ok storedSession := by
  rfl

/-- Irreducible, so that no step of a proof spells it out. -/
@[irreducible] def longTitle : String := String.ofList (List.replicate 300 'x')

theorem length_longTitle : longTitle.length = 300 := by
  unfold longTitle
  exact String.length_ofList.trans List.length_replicate

theorem rejected_deadLetter_harmless_iff_acme :
    runCalls acmeEnv true [storedFirst, .ingestionFailure (untitledFailure longTitle)] {} =
        runCalls acmeEnv true [storedFirst] {} ↔
      effects acmeEnv true [storedFirst] {} = none ∨
        effects acmeEnv true [storedFirst] {} = some {} :=
  @rejected_deadLetter_harmless_iff acmeEnv true [storedFirst] []
    (.ingestionFailure (untitledFailure longTitle)) _ {} storedSession rfl storedFirst_run
    (.inr (untitledFailure_rejected (by rw [length_longTitle]; omega) _))

/-- The offer that the run has stored before is lost. -/
theorem rejected_deadLetter_loses_offer :
    validationFailureDedupKey acmeEnv (untitledFields longTitle) = .ok (untitledKey longTitle) ∧
      Offer.modelValidate acmeEnv.pydantic (untitledFields longTitle) = none ∧
      insertIngestionFailure acmeEnv.postgres acmeEnv.startedAt (untitledFailure longTitle)
        storedSession.working = .rejected ∧
      runCalls acmeEnv true [storedFirst, .ingestionFailure (untitledFailure longTitle)] {} ≠
        runCalls acmeEnv true [storedFirst] {} := by
  have hrejected := @untitledFailure_rejected longTitle (by rw [length_longTitle]; omega)
    storedSession.working
  refine ⟨untitledFields_key longTitle, untitledFields_invalid longTitle, hrejected, ?_⟩
  have hlost :
      runCalls acmeEnv true [storedFirst, .ingestionFailure (untitledFailure longTitle)] {} = {} :=
    @runCalls_of_rejected acmeEnv true [storedFirst] []
      (.ingestionFailure (untitledFailure longTitle)) _ {} storedSession rfl storedFirst_run
      (.inr hrejected)
  have hkept : runCalls acmeEnv true [storedFirst] {} = storedSession.working := by
    rw [runCalls, storedFirst_run]
    rfl
  rw [hlost, hkept]
  intro heq
  have : ([] : List OfferRow) = storedSession.working.offers := congrArg (·.offers) heq
  cases this

end RecruFlow.Dlq
