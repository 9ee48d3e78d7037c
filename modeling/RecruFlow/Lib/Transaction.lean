import Mathlib.Data.List.Basic

/-!
# Transactions without savepoints

After a rejected statement every later statement of the transaction fails, and
its `COMMIT` is a rollback. A caller may swallow the error of a statement; that
does not mend the transaction.
-/

namespace RecruFlow.Lib.Transaction

variable {σ : Type*}

/-- A session with its open transaction. -/
structure Session (σ : Type*) where
  committed : σ
  working : σ
  aborted : Bool

/-- A session whose transaction has just begun. -/
def Session.opened (db : σ) : Session σ :=
  ⟨db, db, false⟩

/-- What becomes of a statement. -/
inductive Attempt (α : Type*) where
  | done (result : α)
  /-- It raises in the client; nothing is sent. -/
  | unsent
  | rejected

/-- What is committed in the end. -/
def commit (s : Session σ) : σ :=
  if s.aborted then s.committed else s.working

/-- A write whose error stops the run, or one whose error is swallowed. -/
inductive Work (σ : Type*) where
  | write (f : σ → Attempt σ)
  | swallowed (f : σ → Attempt σ)

/-- The session after a write, and whether it went through. -/
def attempt (f : σ → Attempt σ) (s : Session σ) : Bool × Session σ :=
  if s.aborted then (false, s)
  else match f s.working with
    | .done db => (true, { s with working := db })
    | .unsent => (false, s)
    | .rejected => (false, { s with aborted := true })

/-- Run the works in order; the flag says whether the run got to its end. -/
def run : List (Work σ) → Session σ → Bool × Session σ
  | [], s => (true, s)
  | .write f :: works, s =>
      match attempt f s with
      | (true, s) => run works s
      | (false, s) => (false, s)
  | .swallowed f :: works, s => run works (attempt f s).2

/-- A run that got to its end is committed; one that stopped is rolled back,
unless its error handler commits too. -/
def settle (commitsOnError : Bool) : Bool × Session σ → σ
  | (true, s) => commit s
  | (false, s) => if commitsOnError then commit s else s.committed

/-- The database after a run. -/
def outcome (commitsOnError : Bool) (works : List (Work σ)) (db : σ) : σ :=
  settle commitsOnError (run works (Session.opened db))

/-- What a run has to commit, computed on the database alone; `none` is nothing. -/
def effects (commitsOnError : Bool) : List (Work σ) → σ → Option σ
  | [], db => some db
  | .write f :: works, db =>
      match f db with
      | .done db => effects commitsOnError works db
      | .unsent => if commitsOnError then some db else none
      | .rejected => none
  | .swallowed f :: works, db =>
      match f db with
      | .done db => effects commitsOnError works db
      | .unsent => effects commitsOnError works db
      | .rejected => none

variable {commitsOnError : Bool} {works before after : List (Work σ)} {f : σ → Attempt σ}
  {db : σ} {s : Session σ}

theorem attempt_committed : (attempt f s).2.committed = s.committed := by
  unfold attempt
  split
  · rfl
  · split <;> rfl

/-- What a swallowed write leaves to commit. -/
theorem commit_attempt (hgood : s.aborted = false) :
    commit (attempt f s).2 = match f s.working with
      | .done db => db
      | .unsent => s.working
      | .rejected => s.committed := by
  rw [attempt, hgood]
  cases hf : f s.working <;> simp [commit, hgood]

/-- A transaction stays good unless a statement is rejected. -/
theorem attempt_good_iff :
    (attempt f s).2.aborted = false ↔ s.aborted = false ∧ f s.working ≠ .rejected := by
  unfold attempt
  cases haborted : s.aborted with
  | true => simp [haborted]
  | false => cases hf : f s.working <;> simp [haborted]

theorem run_committed : (run works s).2.committed = s.committed := by
  induction works generalizing s with
  | nil => rfl
  | cons work works ih =>
      cases work with
      | write f =>
          have hcommitted := @attempt_committed _ f s
          unfold run
          split
          · next hattempt =>
            rw [hattempt] at hcommitted
            exact ih.trans hcommitted
          · next hattempt =>
            rw [hattempt] at hcommitted
            exact hcommitted
      | swallowed f => exact ih.trans attempt_committed

theorem run_append (hrun : run before (Session.opened db) = (true, s)) :
    run (before ++ after) (Session.opened db) = run after s := by
  generalize Session.opened db = s₀ at hrun ⊢
  induction before generalizing s₀ with
  | nil =>
      have hs : s₀ = s := (Prod.mk.inj hrun).2
      rw [List.nil_append, hs]
  | cons work before ih =>
      cases work with
      | write f =>
          rw [run] at hrun
          rw [List.cons_append, run]
          split at hrun
          · exact ih _ hrun
          · cases (Prod.mk.inj hrun).1
      | swallowed f => exact ih _ hrun

/-- From a rejected statement on, nothing of the transaction is committed. -/
theorem settle_run_aborted {w : σ} :
    settle commitsOnError (run works ⟨db, w, true⟩) = db := by
  induction works with
  | nil => rfl
  | cons work works ih =>
      cases work with
      | write f =>
          have hstop : run (.write f :: works) ⟨db, w, true⟩ = (false, ⟨db, w, true⟩) := rfl
          rw [hstop, settle]
          split <;> rfl
      | swallowed f => exact ih

theorem settle_run_working {w : σ} :
    settle commitsOnError (run works ⟨db, w, false⟩) =
      (effects commitsOnError works w).getD db := by
  induction works generalizing w with
  | nil => rfl
  | cons work works ih =>
      cases work with
      | write f =>
          cases hf : f w with
          | done w' => simpa [run, attempt, effects, hf] using ih
          | unsent => cases commitsOnError <;> simp [run, attempt, effects, settle, commit, hf]
          | rejected => cases commitsOnError <;> simp [run, attempt, effects, settle, commit, hf]
      | swallowed f =>
          cases hf : f w with
          | done w' => simpa [run, attempt, effects, hf] using ih
          | unsent => simpa [run, attempt, effects, hf] using ih
          | rejected =>
              have haborted : settle commitsOnError (run works ⟨db, w, true⟩) = db :=
                settle_run_aborted
              simpa [run, attempt, effects, hf] using haborted

theorem outcome_eq :
    outcome commitsOnError works db = (effects commitsOnError works db).getD db :=
  settle_run_working

/-- Once a swallowed work is rejected, the run commits nothing. -/
theorem outcome_of_rejected (hrun : run before (Session.opened db) = (true, s))
    (hrejected : s.aborted = true ∨ f s.working = .rejected) :
    outcome commitsOnError (before ++ .swallowed f :: after) db = db := by
  have hcommitted : s.committed = db := by
    have := @run_committed _ before (Session.opened db)
    rwa [hrun] at this
  have haborted : (attempt f s).2 = ⟨db, s.working, true⟩ := by
    obtain ⟨committed, working, aborted⟩ := s
    obtain rfl : committed = db := hcommitted
    cases aborted with
    | true => rfl
    | false =>
        have hf : f working = .rejected := hrejected.resolve_left Bool.false_ne_true
        simp [attempt, hf]
  have hswallowed : run (.swallowed f :: after) s = run after (attempt f s).2 := rfl
  rw [outcome, run_append hrun, hswallowed, haborted]
  exact settle_run_aborted

/-- A rejected, swallowed work leaves the rest of the run as if it had not been
tried exactly when there is nothing to lose: the others have nothing to commit,
or change nothing. -/
theorem outcome_rejected_iff (hrun : run before (Session.opened db) = (true, s))
    (hrejected : s.aborted = true ∨ f s.working = .rejected) :
    outcome commitsOnError (before ++ .swallowed f :: after) db =
        outcome commitsOnError (before ++ after) db ↔
      effects commitsOnError (before ++ after) db = none ∨
        effects commitsOnError (before ++ after) db = some db := by
  rw [outcome_of_rejected hrun hrejected, outcome_eq]
  cases effects commitsOnError (before ++ after) db with
  | none => simp
  | some w => simp [eq_comm]

end RecruFlow.Lib.Transaction
