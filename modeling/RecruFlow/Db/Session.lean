import RecruFlow.Db.Models
import RecruFlow.Lib.Transaction

/-!
# The session of a run

One session, one open transaction. What PostgreSQL and its driver make of the
values of a row is a parameter; unique keys are the model's own. An exception
carries the session as it was when it was raised, since an error handler may
commit it.
-/

namespace RecruFlow.Db

open Lib.Transaction

/-- What becomes of an `INSERT` of a row. -/
inductive Verdict where
  | taken
  /-- A value cannot be encoded: nothing is sent, and the transaction goes on. -/
  | unsent
  /-- A constraint or a type of a column rejects the row. -/
  | rejected
  deriving DecidableEq, Repr

/-- The verdict on a row, given the database that it is inserted into. -/
structure Postgres where
  offer : OfferRow → Database → Verdict
  matchScore : MatchScore → Database → Verdict
  ingestionFailure : IngestionFailure → Database → Verdict
  scoringFailure : ScoringFailure → Database → Verdict

/-- An `INSERT` with its verdict. -/
def Verdict.insert {α : Type} (verdict : Verdict) (result : α) : Attempt α :=
  match verdict with
  | .taken => .done result
  | .unsent => .unsent
  | .rejected => .rejected

/-- An `INSERT` goes through exactly when its row is taken. -/
theorem Verdict.insert_done_iff {α : Type} {verdict : Verdict} {result : α} :
    (∃ done, verdict.insert result = .done done) ↔ verdict = .taken := by
  cases verdict <;> simp [Verdict.insert]

theorem Verdict.insert_done {α : Type} {verdict : Verdict} {result done : α}
    (h : verdict.insert result = .done done) : done = result := by
  cases verdict with
  | taken => exact (Attempt.done.inj h).symm
  | unsent => cases h
  | rejected => cases h

abbrev Session := Lib.Transaction.Session Database

/-- An exception, and the session as it left it. -/
abbrev Raised := PyError × Session

namespace Session

variable {α : Type}

/-- A computation that does not touch the session. -/
def lift (x : Except PyError α) (s : Session) : Except Raised α :=
  x.mapError (·, s)

/-- A `SELECT`. -/
def select (query : Database → α) (s : Session) : Except Raised α :=
  if s.aborted then .error (.database, s) else .ok (query s.working)

/-- A statement whose error the caller lets through. -/
def execute (stmt : Database → Attempt (α × Database)) (s : Session) : Except Raised (α × Session) :=
  if s.aborted then .error (.database, s)
  else match stmt s.working with
    | .done (a, db) => .ok (a, { s with working := db })
    | .unsent => .error (.database, s)
    | .rejected => .error (.database, { s with aborted := true })

/-- A statement without a result. -/
def write (f : Database → Attempt Database) (s : Session) : Except Raised Session :=
  match attempt f s with
  | (true, s) => .ok s
  | (false, s) => .error (.database, s)

variable {s s' : Session} {a : α}

theorem lift_ok {x : Except PyError α} (h : s.lift x = .ok a) : x = .ok a :=
  mapError_ok h

/-- A `SELECT` that returns reads a good transaction. -/
theorem select_ok {query : Database → α} (h : s.select query = .ok a) :
    s.aborted = false ∧ a = query s.working := by
  unfold select at h
  split at h
  · cases h
  · next hgood => exact ⟨Bool.eq_false_iff.mpr hgood, (Except.ok.inj h).symm⟩

theorem execute_ok {stmt : Database → Attempt (α × Database)}
    (h : s.execute stmt = .ok (a, s')) :
    ∃ db, stmt s.working = .done (a, db) ∧ s' = { s with working := db } := by
  unfold execute at h
  split at h
  · cases h
  · split at h
    · next hdone =>
      obtain ⟨rfl, rfl⟩ := Prod.mk.inj (Except.ok.inj h)
      exact ⟨_, hdone, rfl⟩
    · cases h
    · cases h

/-- A write that goes through is done in a good transaction, and changes only
what it writes. -/
theorem write_done {f : Database → Attempt Database} (h : s.write f = .ok s') :
    s.aborted = false ∧ ∃ db, f s.working = .done db ∧ s' = { s with working := db } := by
  unfold Session.write attempt at h
  split at h
  · next heq =>
    obtain rfl := Except.ok.inj h
    split at heq
    · cases (Prod.mk.inj heq).1
    · next hgood =>
      split at heq
      · next db hdone =>
        obtain rfl := (Prod.mk.inj heq).2
        exact ⟨Bool.eq_false_iff.mpr hgood, db, hdone, rfl⟩
      · cases (Prod.mk.inj heq).1
      · cases (Prod.mk.inj heq).1
  · cases h

theorem write_ok {f : Database → Attempt Database} (h : s.write f = .ok s') :
    s'.aborted = false ∧ f s.working = .done s'.working := by
  obtain ⟨hgood, db, hdone, rfl⟩ := write_done h
  exact ⟨hgood, hdone⟩

end Session

/-- `source.config_json = ...`, where the unit of work sends it. -/
def updateConfig (sourceId : Nat) (configJson : Dict) (db : Database) : Attempt Database :=
  .done { db with
    sources := db.sources.map fun source =>
      if source.id = sourceId then { source with configJson } else source }

end RecruFlow.Db
