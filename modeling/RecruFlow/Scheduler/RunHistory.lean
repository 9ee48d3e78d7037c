import RecruFlow.Scheduler.Boot

/-!
# The runs over the life of the process

Runs start and end in any order, each with its own row; the process may stop at
any moment and start again. A run that is cut off never closes its row: the next
start-up does.
-/

namespace RecruFlow.Scheduler

open Connectors Db Dlq Ingestion Lib.Outcome Lib.Trace Lib.Transaction

structure Process (τ : Type) where
  db : Database
  up : Bool
  /-- The rows of the runs in flight, as their sessions hold them. -/
  live : τ → Option SchedulerRun

/-- The process is not running. -/
def Process.down (τ : Type) (db : Database) : Process τ :=
  ⟨db, false, fun _ => none⟩

/-- How a run is closed. -/
inductive RunEnding where
  | ok (fetched created : Nat) (warning : Bool)
  | error (errorMessage : String)

inductive ProcessEvent (τ : Type) where
  | boot (env : SeedEnv) (now : Int)
  /-- A crash or a shutdown: every coroutine is gone. -/
  | stop
  | start (t : τ) (connector triggerType : String)
  | close (t : τ) (ending : RunEnding)
  /-- An exception ends the run before its row is closed. -/
  | abandon (t : τ)
  /-- What else is committed, which does not write the rows of the runs. -/
  | elsewhere (db : Database)

variable {τ : Type} [DecidableEq τ] (env : τ → ScheduledEnv)

def closeRun (env : ScheduledEnv) (run : SchedulerRun) (s : Session) :
    RunEnding → Except Raised (SchedulerRun × Session)
  | .ok fetched created warning => finishRunOk env run fetched created warning s
  | .error errorMessage => finishRunError env run errorMessage s

def processStep (s : Process τ) : ProcessEvent τ → Option (Process τ)
  | .boot seeds now =>
      if s.up then none
      else some { s with db := bootDatabase seeds now s.db, up := true }
  | .stop => some (.down τ s.db)
  | .start t connector triggerType =>
      if s.up ∧ s.live t = none then
        match beforeDispatch (env t) connector triggerType s.db with
        | .error (_, db) => some { s with db }
        | .ok (_, run, started) => some
            { s with db := started, live := Function.update s.live t (some run) }
      else none
  | .close t ending =>
      match s.live t with
      | none => none
      | some run =>
          let live := Function.update s.live t none
          match closeRun (env t) run (.opened s.db) ending with
          | .error _ => some { s with live }
          | .ok (_, session) => some { s with db := commit session, live }
  | .abandon t => (s.live t).map fun _ => { s with live := Function.update s.live t none }
  | .elsewhere db =>
      if db.schedulerRuns = s.db.schedulerRuns ∧ db.nextSchedulerRunId = s.db.nextSchedulerRunId
      then some { s with db }
      else none

/-- A run that ends closes its row. -/
def ClosesTaken (s : Process τ) : ProcessEvent τ → Prop
  | .close t ending => ∀ run, s.live t = some run →
      ∃ r, closeRun (env t) run (.opened s.db) ending = .ok r
  | .abandon _ => False
  | _ => True

/-- The rows of the runs as the program leaves them. -/
structure RunRows (db : Database) : Prop where
  ids : (db.schedulerRuns.map (·.id)).Nodup
  below : ∀ run ∈ db.schedulerRuns, run.id < db.nextSchedulerRunId
  finished : ∀ run ∈ db.schedulerRuns, run.finishedAt = none ↔ run.status = .running

/-- The rows of the runs, and of those in flight. -/
structure Tracked (s : Process τ) : Prop where
  rows : RunRows s.db
  live : ∀ t run, s.live t = some run → run ∈ s.db.schedulerRuns ∧ run.status = .running
  apart : ∀ t t' run run', s.live t = some run → s.live t' = some run' → run.id = run'.id → t = t'
  down : s.up = false → ∀ t, s.live t = none

/-! ## One step -/

section Steps

variable {env} {s s' : Process τ} {run run' : SchedulerRun} {db started : Database} {t : τ}
  {now : Int}

theorem beforeDispatch_row {e : ScheduledEnv} {connector triggerType : String} {source : Source}
    (h : beforeDispatch e connector triggerType db = .ok (source, run, started)) :
    run.id = db.nextSchedulerRunId ∧ run.status = .running ∧ run.finishedAt = none ∧
      run.sourceId = source.id ∧ started.schedulerRuns = db.schedulerRuns ++ [run] ∧
      started.nextSchedulerRunId = db.nextSchedulerRunId + 1 := by
  obtain ⟨found, _, h⟩ := bind_ok h
  split at h
  · obtain ⟨⟨run', session⟩, hstart, hend⟩ := bind_ok h
    obtain ⟨rfl, hrest⟩ := Prod.mk.inj (Except.ok.inj hend)
    obtain ⟨rfl, rfl⟩ := Prod.mk.inj hrest
    obtain ⟨db', hdone, rfl⟩ := Session.execute_ok (mapError_ok hstart)
    obtain ⟨rfl, rfl⟩ := Prod.mk.inj (Verdict.insert_done hdone)
    exact ⟨rfl, rfl, rfl, rfl, rfl, rfl⟩
  · cases h

/-- A closing writes the row of its run, and no other. -/
theorem closeRun_ok {e : ScheduledEnv} {ending : RunEnding} {session : Session}
    (h : closeRun e run (.opened db) ending = .ok (run', session)) :
    run'.id = run.id ∧ run'.status ≠ .running ∧ run'.finishedAt ≠ none ∧
      commit session = updateRun run' db := by
  cases ending with
  | ok fetched created warning =>
      obtain ⟨rfl, hgood, hworking⟩ := flushRun_ok h
      refine ⟨rfl, by simp [SchedulerRun.finishedOk], by simp [SchedulerRun.finishedOk], ?_⟩
      rw [commit, if_neg (by simp [hgood]), hworking]
      rfl
  | error errorMessage =>
      obtain ⟨rfl, hgood, hworking⟩ := flushRun_ok h
      refine ⟨rfl, by simp [SchedulerRun.finishedError], by simp [SchedulerRun.finishedError], ?_⟩
      rw [commit, if_neg (by simp [hgood]), hworking]
      rfl

theorem updateRun_ids (run : SchedulerRun) (db : Database) :
    (updateRun run db).schedulerRuns.map (·.id) = db.schedulerRuns.map (·.id) := by
  rw [updateRun, List.map_map]
  refine List.map_congr_left fun row _ => ?_
  simp only [Function.comp_apply]
  split
  · next hid => exact hid.symm
  · rfl

theorem bootDatabase_runs {seeds : SeedEnv} : (bootDatabase seeds now db).schedulerRuns =
    db.schedulerRuns.map fun run =>
      if run.status = .running then run.finishedError now interruptedMessage else run := rfl

theorem bootDatabase_next {seeds : SeedEnv} :
    (bootDatabase seeds now db).nextSchedulerRunId = db.nextSchedulerRunId := by
  dsimp only [bootDatabase, reconcileStaleRunningRuns]

theorem RunRows.boot (h : RunRows db) (seeds : SeedEnv) : RunRows (bootDatabase seeds now db) := by
  have hids : (bootDatabase seeds now db).schedulerRuns.map (·.id) =
      db.schedulerRuns.map (·.id) := by
    rw [bootDatabase_runs, List.map_map]
    refine List.map_congr_left fun row _ => ?_
    simp only [Function.comp_apply]
    split <;> rfl
  constructor
  · rw [hids]
    exact h.ids
  · intro run hrun
    have hmem : run.id ∈ db.schedulerRuns.map (·.id) := by
      rw [← hids]
      exact List.mem_map_of_mem hrun
    obtain ⟨old, hold, hid⟩ := List.mem_map.mp hmem
    rw [bootDatabase_next, ← hid]
    exact h.below old hold
  · intro run hrun
    rw [bootDatabase_runs] at hrun
    obtain ⟨old, hold, rfl⟩ := List.mem_map.mp hrun
    split
    · simp [SchedulerRun.finishedError]
    · exact h.finished old hold

theorem RunRows.append (h : RunRows db) (hid : run.id = db.nextSchedulerRunId)
    (hstatus : run.status = .running) (hfinished : run.finishedAt = none)
    (hruns : started.schedulerRuns = db.schedulerRuns ++ [run])
    (hnext : started.nextSchedulerRunId = db.nextSchedulerRunId + 1) : RunRows started := by
  constructor
  · rw [hruns, List.map_append]
    refine List.nodup_append.mpr ⟨h.ids, List.nodup_singleton _, fun id hmem other hother heq => ?_⟩
    obtain ⟨row, hrow, rfl⟩ := List.mem_map.mp hmem
    have hother : other = run.id := List.mem_singleton.mp hother
    have hbelow := h.below row hrow
    omega
  · intro row hrow
    rw [hruns] at hrow
    rw [hnext]
    rcases List.mem_append.mp hrow with hrow | hrow
    · exact Nat.lt_succ_of_lt (h.below row hrow)
    · rw [List.mem_singleton.mp hrow, hid]
      exact Nat.lt_succ_self _
  · intro row hrow
    rw [hruns] at hrow
    rcases List.mem_append.mp hrow with hrow | hrow
    · exact h.finished row hrow
    · rw [List.mem_singleton.mp hrow]
      exact iff_of_true hfinished hstatus

theorem RunRows.update (h : RunRows db) (hmem : run ∈ db.schedulerRuns) (hid : run'.id = run.id)
    (hstatus : run'.status ≠ .running) (hfinished : run'.finishedAt ≠ none) :
    RunRows (updateRun run' db) := by
  constructor
  · rw [updateRun_ids]
    exact h.ids
  · intro row hrow
    obtain ⟨old, hold, rfl⟩ := List.mem_map.mp hrow
    split
    · rw [hid]
      exact h.below run hmem
    · exact h.below old hold
  · intro row hrow
    obtain ⟨old, hold, rfl⟩ := List.mem_map.mp hrow
    split
    · exact iff_of_false hfinished hstatus
    · exact h.finished old hold

/-- A row that the update is not about stays. -/
theorem mem_updateRun (hmem : run ∈ db.schedulerRuns) (hid : run.id ≠ run'.id) :
    run ∈ (updateRun run' db).schedulerRuns :=
  List.mem_map.mpr ⟨run, hmem, if_neg hid⟩

theorem RunRows.eq_of_id (h : RunRows db) (hrun : run ∈ db.schedulerRuns)
    (hrun' : run' ∈ db.schedulerRuns) (hid : run.id = run'.id) : run = run' :=
  List.inj_on_of_nodup_map h.ids hrun hrun' hid

/-- What a step does to the rows, by what it does. -/
theorem processStep_cases {e : ProcessEvent τ} (h : processStep env s e = some s') :
    (∃ seeds now, s.up = false ∧
      s' = { s with db := bootDatabase seeds now s.db, up := true }) ∨
    s' = .down τ s.db ∨
    (s'.up = s.up ∧ s'.live = s.live ∧ s'.db.schedulerRuns = s.db.schedulerRuns ∧
      s'.db.nextSchedulerRunId = s.db.nextSchedulerRunId) ∨
    (∃ t run started, s.up = true ∧ s.live t = none ∧ run.id = s.db.nextSchedulerRunId ∧
      run.status = .running ∧ run.finishedAt = none ∧
      started.schedulerRuns = s.db.schedulerRuns ++ [run] ∧
      started.nextSchedulerRunId = s.db.nextSchedulerRunId + 1 ∧
      s' = { s with db := started, live := Function.update s.live t (some run) }) ∨
    ∃ t run db, s.live t = some run ∧
      s' = { s with db := db, live := Function.update s.live t none } ∧
      ((db = s.db ∧ ¬ ClosesTaken env s e) ∨ ∃ run', run'.id = run.id ∧
        run'.status ≠ .running ∧ run'.finishedAt ≠ none ∧ db = updateRun run' s.db) := by
  cases e with
  | boot seeds now =>
      simp only [processStep] at h
      split at h
      · cases h
      · next hup =>
        exact .inl ⟨seeds, now, by simpa using hup, (Option.some.inj h).symm⟩
  | stop => exact .inr (.inl (Option.some.inj h).symm)
  | start t connector triggerType =>
      simp only [processStep] at h
      split at h
      · next hup =>
        cases hstarted : beforeDispatch (env t) connector triggerType s.db with
        | error failure =>
            obtain ⟨e, db⟩ := failure
            rw [hstarted] at h
            obtain rfl := beforeDispatch_error hstarted
            rw [← Option.some.inj h]
            exact .inr (.inr (.inl ⟨rfl, rfl, rfl, rfl⟩))
        | ok r =>
            obtain ⟨source, run, started⟩ := r
            rw [hstarted] at h
            obtain ⟨hid, hstatus, hfinished, -, hruns, hnext⟩ := beforeDispatch_row hstarted
            exact .inr (.inr (.inr (.inl ⟨t, run, started, hup.1, hup.2, hid, hstatus, hfinished,
              hruns, hnext, (Option.some.inj h).symm⟩)))
      · cases h
  | close t ending =>
      simp only [processStep] at h
      split at h
      · cases h
      · next run hlive =>
        cases hclose : closeRun (env t) run (.opened s.db) ending with
        | error failure =>
            rw [hclose] at h
            refine .inr (.inr (.inr (.inr ⟨t, run, s.db, hlive, (Option.some.inj h).symm, .inl
              ⟨rfl, fun htaken => ?_⟩⟩)))
            obtain ⟨r, hr⟩ := htaken run hlive
            rw [hclose] at hr
            cases hr
        | ok r =>
            obtain ⟨run', session⟩ := r
            rw [hclose] at h
            obtain ⟨hid, hstatus, hfinished, hcommit⟩ := closeRun_ok hclose
            exact .inr (.inr (.inr (.inr ⟨t, run, commit session, hlive,
              (Option.some.inj h).symm, .inr ⟨run', hid, hstatus, hfinished, hcommit⟩⟩)))
  | abandon t =>
      obtain ⟨run, hlive, rfl⟩ := Option.map_eq_some_iff.mp h
      exact .inr (.inr (.inr (.inr ⟨t, run, s.db, hlive, rfl, .inl ⟨rfl, id⟩⟩)))
  | elsewhere db =>
      simp only [processStep] at h
      split at h
      · next hsame =>
        rw [← Option.some.inj h]
        exact .inr (.inr (.inl ⟨rfl, rfl, hsame⟩))
      · cases h

theorem RunRows.of_eq (h : RunRows db) (hruns : started.schedulerRuns = db.schedulerRuns)
    (hnext : started.nextSchedulerRunId = db.nextSchedulerRunId) : RunRows started := by
  constructor
  · rw [hruns]
    exact h.ids
  · rw [hruns, hnext]
    exact h.below
  · rw [hruns]
    exact h.finished

theorem tracked_step {e : ProcessEvent τ} (h : Tracked s)
    (hstep : processStep env s e = some s') : Tracked s' := by
  rcases processStep_cases hstep with ⟨seeds, now, hup, rfl⟩ | rfl | ⟨hup, hlive, hruns, hnext⟩ |
    ⟨t, run, started, hup, hnone, hid, hstatus, hfinished, hruns, hnext, rfl⟩ |
    ⟨t, run, db, hlive, rfl, hdb⟩
  · exact
      { rows := h.rows.boot seeds
        live := fun t run ht => by
          rw [h.down hup t] at ht
          cases ht
        apart := h.apart
        down := fun hdown => by cases hdown }
  · exact
      { rows := h.rows
        live := fun _ _ ht => by cases ht
        apart := fun _ _ _ _ ht => by cases ht
        down := fun _ _ => rfl }
  · constructor
    · exact h.rows.of_eq hruns hnext
    · rw [hlive, hruns]
      exact h.live
    · rw [hlive]
      exact h.apart
    · rw [hup, hlive]
      exact h.down
  · have hmem : ∀ run' ∈ s.db.schedulerRuns, run'.id ≠ run.id := fun run' hrun' => by
      have := h.rows.below run' hrun'
      omega
    constructor
    · exact h.rows.append hid hstatus hfinished hruns hnext
    · intro t' run' ht'
      change Function.update s.live t (some run) t' = some run' at ht'
      rw [hruns]
      by_cases ht : t' = t
      · rw [ht, Function.update_self] at ht'
        rw [← Option.some.inj ht']
        exact ⟨List.mem_append_right _ (List.mem_singleton_self _), hstatus⟩
      · rw [Function.update_of_ne ht] at ht'
        exact ⟨List.mem_append_left _ (h.live t' run' ht').1, (h.live t' run' ht').2⟩
    · intro t₁ t₂ run₁ run₂ h₁ h₂ hsame
      change Function.update s.live t (some run) t₁ = some run₁ at h₁
      change Function.update s.live t (some run) t₂ = some run₂ at h₂
      by_cases ht₁ : t₁ = t
      · by_cases ht₂ : t₂ = t
        · rw [ht₁, ht₂]
        · rw [ht₁, Function.update_self] at h₁
          rw [Function.update_of_ne ht₂] at h₂
          obtain rfl := Option.some.inj h₁
          exact absurd hsame.symm (hmem run₂ (h.live t₂ run₂ h₂).1)
      · rw [Function.update_of_ne ht₁] at h₁
        by_cases ht₂ : t₂ = t
        · rw [ht₂, Function.update_self] at h₂
          obtain rfl := Option.some.inj h₂
          exact absurd hsame (hmem run₁ (h.live t₁ run₁ h₁).1)
        · rw [Function.update_of_ne ht₂] at h₂
          exact h.apart t₁ t₂ run₁ run₂ h₁ h₂ hsame
    · intro hdown
      change s.up = false at hdown
      rw [hup] at hdown
      cases hdown
  · have hother : ∀ t' run', Function.update s.live t none t' = some run' →
        t' ≠ t ∧ s.live t' = some run' := by
      intro t' run' ht'
      by_cases ht : t' = t
      · rw [ht, Function.update_self] at ht'
        cases ht'
      · rw [Function.update_of_ne ht] at ht'
        exact ⟨ht, ht'⟩
    constructor
    · rcases hdb with ⟨rfl, -⟩ | ⟨run', hid, hstatus, hfinished, rfl⟩
      · exact h.rows
      · exact h.rows.update (h.live t run hlive).1 hid hstatus hfinished
    · intro t' run' hafter
      obtain ⟨hne, ht'⟩ := hother t' run' hafter
      obtain ⟨hmem, hrunning⟩ := h.live t' run' ht'
      refine ⟨?_, hrunning⟩
      rcases hdb with ⟨rfl, -⟩ | ⟨closed, hid, -, -, rfl⟩
      · exact hmem
      · exact mem_updateRun hmem fun hsame =>
          hne (h.apart t' t run' run ht' hlive (hsame.trans hid))
    · intro t₁ t₂ run₁ run₂ h₁ h₂
      exact h.apart t₁ t₂ run₁ run₂ (hother t₁ run₁ h₁).2 (hother t₂ run₂ h₂).2
    · intro hdown t'
      change Function.update s.live t none t' = none
      rw [h.down hdown t] at hlive
      cases hlive

/-- A row that is closed stays as it is. -/
theorem closed_step {e : ProcessEvent τ} (h : Tracked s) (hstep : processStep env s e = some s')
    (hrun : run ∈ s.db.schedulerRuns) (hclosed : run.status ≠ .running) :
    run ∈ s'.db.schedulerRuns := by
  rcases processStep_cases hstep with ⟨seeds, now, -, rfl⟩ | rfl | ⟨-, -, hruns, -⟩ |
    ⟨t, other, started, -, -, -, -, -, hruns, -, rfl⟩ | ⟨t, other, db, hlive, rfl, hdb⟩
  · change run ∈ (bootDatabase seeds now s.db).schedulerRuns
    rw [bootDatabase_runs]
    exact List.mem_map.mpr ⟨run, hrun, if_neg hclosed⟩
  · exact hrun
  · exact hruns ▸ hrun
  · change run ∈ started.schedulerRuns
    rw [hruns]
    exact List.mem_append_left _ hrun
  · rcases hdb with ⟨rfl, -⟩ | ⟨closed, hid, -, -, rfl⟩
    · exact hrun
    · refine mem_updateRun hrun fun hsame => hclosed ?_
      obtain ⟨hmem, hrunning⟩ := h.live t other hlive
      rw [h.rows.eq_of_id hrun hmem (hsame.trans hid)]
      exact hrunning

end Steps

/-! ## A run that nobody disturbs -/

section Undisturbed

variable {env : ScheduledEnv} {source : Source} {run run' : SchedulerRun} {s s' : Session}
  {db : Database}

/-- The table of the runs as it is in `db`. -/
def SameRuns (db : Database) (s : Session) : Prop :=
  s.working.schedulerRuns = db.schedulerRuns ∧
    s.working.nextSchedulerRunId = db.nextSchedulerRunId

theorem sameRuns_kept : KeptByIngestion env.toRunEnv (SameRuns db) where
  kept :=
    { rejected := fun _ h => h
      offer := fun _ _ h => h
      failure := fun _ _ _ h => h }
  sources _ _ h := h

/-- A run that comes to an end closes its row in the transaction that is left to it. -/
theorem afterDispatch_closes {outcome : RunOutcome} (hdispatch : RunEnds (SameRuns db) outcome)
    (h : afterDispatch env source run outcome = .ok (run', s')) :
    ∃ left ending, SameRuns db left ∧ closeRun env run left ending = .ok (run', s') := by
  cases outcome with
  | error raised =>
      obtain ⟨e, state⟩ := raised
      exact ⟨state.session, .error (env.errorText e), hdispatch, h⟩
  | ok r =>
      obtain ⟨result, state⟩ := r
      have hstamped : ∃ session : Session, SameRuns db session ∧
          onSuccess env source run result { state with session } = .ok (run', s') := by
        simp only [afterDispatch] at h
        split at h
        · obtain ⟨session, hstamp, hclose⟩ := bind_ok h
          have hdone := (Session.write_ok hstamp).2
          refine ⟨session, ?_, hclose⟩
          rw [SameRuns, ← Attempt.done.inj hdone]
          exact hdispatch
        · obtain ⟨session, hsame, hclose⟩ := bind_ok h
          refine ⟨session, ?_, hclose⟩
          rw [← Except.ok.inj hsame]
          exact hdispatch
      obtain ⟨session, hruns, hclose⟩ := hstamped
      refine ⟨_, .ok result.fetched result.created (result.fetched = 0), ?_, hclose⟩
      unfold recordRunFetchFailure
      split
      · exact hruns
      · exact record_kept sameRuns_kept.kept.onAll (fun _ _ => trivial) hruns

/-- The same row closes in a transaction of its own. -/
theorem closeRun_opened {ending : RunEnding} (h : closeRun env run s ending = .ok (run', s')) :
    ∃ session, closeRun env run (.opened s.working) ending = .ok (run', session) ∧
      commit session = commit s' := by
  have hflush : ∀ closed, flushRun env closed s = .ok (run', s') →
      ∃ session, flushRun env closed (.opened s.working) = .ok (run', session) ∧
        commit session = commit s' := by
    intro closed h
    obtain ⟨haborted, htaken⟩ := flushRun_ok_iff.mp ⟨_, h⟩
    rw [flushRun_eq, if_pos ⟨haborted, htaken⟩] at h
    obtain ⟨rfl, rfl⟩ := Prod.mk.inj (Except.ok.inj h)
    refine ⟨_, by rw [flushRun_eq, if_pos ⟨rfl, htaken⟩], ?_⟩
    rw [commit, commit, if_neg (by simp [Session.opened]), if_neg (by simp [haborted])]
    rfl
  cases ending with
  | ok fetched created warning => exact hflush _ h
  | error errorMessage => exact hflush _ h

end Undisturbed

/-- A scheduled run is a history of its own: its start, what its dispatch commits, its end. -/
theorem runSourceAsync_history {p : Process τ} {t : τ} {registry : Registry}
    {connector triggerType : String} (hup : p.up = true) (hnone : p.live t = none) :
    ∃ es, exec (processStep env) p es = some
      { p with db := databaseAfter (runSourceAsync (env t) registry connector triggerType p.db) } := by
  cases hstarted : beforeDispatch (env t) connector triggerType p.db with
  | error failure =>
      obtain ⟨e, db⟩ := failure
      refine ⟨[], ?_⟩
      rw [runSourceAsync, hstarted, exec_nil]
      obtain rfl := beforeDispatch_error hstarted
      rfl
  | ok r =>
      obtain ⟨source, run, started⟩ := r
      have hback : Function.update (Function.update p.live t (some run)) t none = p.live := by
        rw [Function.update_idem, Function.update_eq_self_iff.mpr hnone.symm]
      have hstart : processStep env p (.start t connector triggerType) = some
          { p with db := started, live := Function.update p.live t (some run) } := by
        simp only [processStep, if_pos (And.intro hup hnone), hstarted]
      cases hafter : afterDispatch (env t) source run
          (dispatchIngestion (env t).toRunEnv registry connector source false started) with
      | error raised =>
          refine ⟨[.start t connector triggerType, .abandon t], ?_⟩
          rw [exec_cons, hstart, Option.bind_some, exec_cons]
          simp only [processStep, Function.update_self, Option.map_some, Option.bind_some, exec_nil,
            hback, runSourceAsync, hstarted, hafter, bind, Except.bind, Except.mapError,
            databaseAfter]
      | ok r =>
          obtain ⟨run', session⟩ := r
          have hdispatch : RunEnds (SameRuns started) (dispatchIngestion (env t).toRunEnv registry
              connector source false started) :=
            dispatchIngestion_kept sameRuns_kept ⟨rfl, rfl⟩
          obtain ⟨left, ending, hsame, hclose⟩ := afterDispatch_closes hdispatch hafter
          obtain ⟨session', hclose', hcommit⟩ := closeRun_opened hclose
          refine ⟨[.start t connector triggerType, .elsewhere left.working, .close t ending], ?_⟩
          have helsewhere : processStep env
              { p with db := started, live := Function.update p.live t (some run) }
              (.elsewhere left.working) = some
                { p with db := left.working, live := Function.update p.live t (some run) } :=
            if_pos hsame
          rw [exec_cons, hstart, Option.bind_some, exec_cons, helsewhere, Option.bind_some,
            exec_cons]
          simp only [processStep, Function.update_self, hclose', Option.bind_some, exec_nil, hback,
            hcommit, runSourceAsync, hstarted, hafter, bind, Except.bind, Except.mapError,
            databaseAfter, pure, Except.pure]

/-! ## Whole histories -/

section Histories

variable {env} {s₁ s₂ : Process τ} {db : Database} {earlier later es : List (ProcessEvent τ)}

theorem tracked_exec (h : Tracked s₁) (hrun : exec (processStep env) s₁ es = some s₂) :
    Tracked s₂ :=
  invariant (fun _ _ _ => tracked_step) h (.last hrun)

omit [DecidableEq τ] in
theorem tracked_down (h : RunRows db) : Tracked (.down τ db) :=
  { rows := h
    live := fun _ _ ht => by cases ht
    apart := fun _ _ _ _ ht => by cases ht
    down := fun _ _ => rfl }

/-- Whatever runs, crashes and restarts follow, a run that was closed keeps its
row as it was closed, and the ids stay distinct. -/
theorem closed_runs_never_change (h : RunRows db)
    (hearlier : exec (processStep env) (.down τ db) earlier = some s₁)
    (hlater : exec (processStep env) s₁ later = some s₂) :
    (∀ run ∈ s₁.db.schedulerRuns, run.status ≠ .running → run ∈ s₂.db.schedulerRuns) ∧
      RunRows s₂.db := by
  have htracked : Tracked s₁ := tracked_exec (tracked_down h) hearlier
  refine ⟨fun run hrun hclosed => ?_, (tracked_exec htracked hlater).rows⟩
  have hkept : Tracked s₂ ∧ run ∈ s₂.db.schedulerRuns :=
    invariant (I := fun s => Tracked s ∧ run ∈ s.db.schedulerRuns)
      (fun _ _ _ hI hstep => ⟨tracked_step hI.1 hstep, closed_step hI.1 hstep hI.2 hclosed⟩)
      ⟨htracked, hrun⟩ (.last hlater)
  exact hkept.2

end Histories

/-! ## A restart in the middle of a run -/

def restartSeeds : SeedEnv :=
  { drawnId := fun connector => 10 + connector.length
    since := fun _ => "2026-07-01T00:00:00+00:00" }

theorem startedDb_runRows : RunRows startedDb := by
  constructor <;> simp [startedDb, remotiveRun]

/-- The run that the old process left open is closed by the restart, and stays closed. -/
theorem closed_runs_never_change_restart :
    ∃ s : Process Unit, exec (processStep fun _ => scheduledEnv)
        { Process.down Unit startedDb with db := bootDatabase restartSeeds 5 startedDb, up := true }
        [.start () "remotive" "manual", .stop] = some s ∧
      remotiveRun.finishedError 5 interruptedMessage ∈ s.db.schedulerRuns := by
  refine ⟨_, rfl, ?_⟩
  exact (@closed_runs_never_change Unit _ (fun _ => scheduledEnv) _ _ startedDb
    [.boot restartSeeds 5] [.start () "remotive" "manual", .stop] startedDb_runRows rfl rfl).1 _
    List.mem_cons_self (by decide)

end RecruFlow.Scheduler
