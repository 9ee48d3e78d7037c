import RecruFlow.Ingestion.RunInvariant

/-!
# The dead letters of a run

What a run does to the table of ingestion failures. `record_failure` swallows
its error, so that in the end a property of the rows counts as long as no
statement was rejected.
-/

namespace RecruFlow.Ingestion

open Connectors Db Dlq Lib.Outcome Lib.Pages Lib.Transaction

/-- The failures that the transaction has written have a property, if it is good. -/
def Keeps (rows : List IngestionFailure → Prop) (s : Session) : Prop :=
  s.aborted = false → rows s.working.ingestionFailures

/-- A property of the failures that recording one under an allowed key keeps. -/
def ClosedUnder (env : IngestEnv) (allowed : String → Prop)
    (rows : List IngestionFailure → Prop) : Prop :=
  ∀ fields db, allowed fields.dedupKey → rows db.ingestionFailures →
    rows (recordIngestionFailure env.startedAt fields db).ingestionFailures

section Steps

variable {env : IngestEnv} {args : RunnerArgs} {allowed : String → Prop}
  {rows : List IngestionFailure → Prop} {s s' : Session} {raw : Dict} {w w' : Walk}

theorem ClosedUnder.kept (hclosed : ClosedUnder env allowed rows) :
    Kept env allowed (Keeps rows) where
  rejected _ _ := fun hfalse => absurd hfalse.symm Bool.false_ne_true
  offer _ _ h := h
  failure s fields hkey h := fun hgood => hclosed fields s.working hkey (h hgood)

theorem updateConfig_failures {sourceId : Nat} {configJson : Dict} {db db' : Database}
    (h : updateConfig sourceId configJson db = .done db') :
    db'.ingestionFailures = db.ingestionFailures := by
  rw [← Attempt.done.inj h]

theorem keeps_keptByConfig {sourceId : Nat} : KeptByConfig sourceId (Keeps rows) := by
  intro s configJson db hdone h hgood
  rw [updateConfig_failures hdone]
  exact h hgood

@[simp] theorem count_fetchFailed (result : Option (OfferRow × Bool)) :
    (w.count result).fetchFailed = w.fetchFailed := by
  match result with
  | none => rfl
  | some (_, true) => rfl
  | some (_, false) => rfl

theorem step_fetchFailed (hstep : step env args w raw = .ok w') :
    w'.fetchFailed = w.fetchFailed := by
  obtain ⟨mapped, _, hturned⟩ := step_turned hstep
  cases hturned with
  | skipped houtside => rfl
  | ingested hinside hingest => rw [count_fetchFailed]

theorem foldlM_fetchFailed {records : List Dict}
    (hfold : records.foldlM (step env args) w = .ok w') : w'.fetchFailed = w.fetchFailed := by
  apply foldlM_related (R := fun w w' : Walk => w'.fetchFailed = w.fetchFailed) _ _ _ hfold
  · exact fun _ => rfl
  · exact fun _ _ _ hfirst hrest => hrest.trans hfirst
  · exact fun _ _ _ hstep => step_fetchFailed hstep

/-- How a run of the loop ends: without a failed fetch, with that of its first
page, or with that of a later page, which it has recorded. -/
theorem runPaginatedIngestion_keeps {Cursor : Type} {fetchPage : FetchPage Cursor}
    {initialCursor : Cursor} {state state' : RunState} {result : IngestionResult}
    (hclosed : ClosedUnder env allowed rows)
    (hvalidation : ∀ rest, StoredIn allowed ("validation:" ++ rest)) (h : Keeps rows state.session)
    (hrun : runPaginatedIngestion env args fetchPage initialCursor state = .ok (result, state')) :
    (result.ok = true ∧ state'.fetchFailed = state.fetchFailed ∧ Keeps rows state'.session) ∨
      ((feedFrom fetchPage args.maxPages 0 initialCursor).2.isSome = true ∧
        state'.fetchFailed = true ∧
        ((result.ok = false ∧ Keeps rows state'.session) ∨
          ∃ s pageIndex blockedStatus, Keeps rows s ∧ state'.session =
            recordFailure env.postgres env.startedAt
              (pageFailureFields args pageIndex blockedStatus) s)) := by
  rw [runPaginatedIngestion_eq] at hrun
  cases hwalk : walkFeed env args fetchPage initialCursor state with
  | error raised =>
      rw [hwalk] at hrun
      cases hrun
  | ok r =>
      obtain ⟨stopped, older, w⟩ := r
      rw [hwalk] at hrun
      have hrecords := @walkFeed_records Cursor env args fetchPage initialCursor state
      rw [hwalk] at hrecords
      have hflag : w.fetchFailed = state.fetchFailed := foldlM_fetchFailed hrecords.symm
      have hends := @walkFeed_kept env args allowed (fun _ => True) (Keeps rows) state Cursor
        fetchPage initialCursor hclosed.kept.onAll hvalidation admitsRecords_all h
      have hkeeps := ends_ok hends hwalk
      have hend := Prod.mk.inj (Except.ok.inj hrun)
      split at hend
      · next hfailure =>
        refine .inr ⟨by rw [hfailure]; rfl, ?_⟩
        unfold pageFailure at hend
        dsimp only at hend
        split at hend
        · rw [← hend.1, ← hend.2]
          exact ⟨rfl, .inl ⟨rfl, hkeeps⟩⟩
        · rw [← hend.1, ← hend.2]
          exact ⟨rfl, .inr ⟨w.session, _, _, hkeeps, rfl⟩⟩
      · rw [← hend.1, ← hend.2]
        exact .inl ⟨rfl, hflag, hkeeps⟩

end Steps

section State

variable {env : RunEnv} {allowed : String → Prop} {rows : List IngestionFailure → Prop}
  {state state' : RunState} {source : Source}

theorem recordBlocked_fetchFailed {name : String} {blocked : List (String × Nat)} :
    (recordBlocked env source.id name blocked state).fetchFailed = state.fetchFailed := by
  induction blocked generalizing state with
  | nil => rfl
  | cons b blocked ih => exact ih

theorem writeConfig_fetchFailed {sourceId : Nat} {configJson : Dict}
    (hwrite : writeConfig sourceId configJson state = .ok state') :
    state'.fetchFailed = state.fetchFailed := by
  obtain ⟨session, _, hend⟩ := bind_ok hwrite
  rw [← Except.ok.inj hend]

theorem writeConfig_keeps {configJson : Dict} (hclosed : ClosedUnder env.toIngestEnv allowed rows)
    (h : Keeps rows state.session) (hwrite : writeConfig source.id configJson state = .ok state') :
    Keeps rows state'.session ∧ state'.fetchFailed = state.fetchFailed :=
  ⟨ends_ok (writeConfig_kept hclosed.kept.onAll keeps_keptByConfig h) hwrite,
    writeConfig_fetchFailed hwrite⟩

theorem recordBlocked_keeps {name : String} {blocked : List (String × Nat)}
    (hclosed : ClosedUnder env.toIngestEnv allowed rows)
    (hdetail : ∀ url, StoredIn allowed (buildDetailUrlDedupKey env source.id url))
    (h : Keeps rows state.session) :
    Keeps rows (recordBlocked env source.id name blocked state).session ∧
      (recordBlocked env source.id name blocked state).fetchFailed = state.fetchFailed :=
  ⟨recordBlocked_kept hclosed.kept.onAll hdetail h, recordBlocked_fetchFailed⟩

end State

end RecruFlow.Ingestion
