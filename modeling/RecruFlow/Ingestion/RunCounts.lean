import RecruFlow.Ingestion.RunInvariant
import RecruFlow.Ingestion.UndatedRecords

/-!
# What a run counts

A run that returns has fetched the pages it has got and created the rows it has
added, and it fails where its first page does.
-/

namespace RecruFlow.Ingestion

open Connectors Db Dlq Lib.Outcome Lib.Pages Lib.Transaction Schemas

variable {Cursor : Type} {env : IngestEnv} {args : RunnerArgs} {fetchPage : FetchPage Cursor}
  {initialCursor : Cursor} {state state' : RunState} {result : IngestionResult} {w w₁ : Walk}
  {raw : Dict}

/-- A call counts as one that has created a row exactly when it has added one. -/
theorem ingestOffer_rows {mapped : Dict} {s t : Session} {outcome : Option (OfferRow × Bool)}
    (h : ingestOffer env mapped raw s = .ok (outcome, t)) :
    t.working.offers.length = s.working.offers.length +
      if outcome.any (·.2) then 1 else 0 := by
  cases hvalid : Offer.modelValidate env.pydantic mapped with
  | none =>
      rw [ingestOffer_invalid hvalid] at h
      obtain ⟨t', hrecord, hend⟩ := bind_ok h
      obtain ⟨rfl, rfl⟩ := Prod.mk.inj (Except.ok.inj hend)
      rw [recordInvalid_offers hrecord]
      rfl
  | some offer =>
      rw [ingestOffer_valid hvalid] at h
      obtain ⟨r, hpersist, hend⟩ := bind_ok h
      obtain ⟨rfl, rfl⟩ := Prod.mk.inj (Except.ok.inj hend)
      have hpersisted := persistOffer_ok hpersist
      generalize r.1 = stored at hpersisted
      generalize r.2.working = db at hpersisted
      cases hpersisted with
      | found hmem hduplicate => rfl
      | created hcontent hhash hfree =>
          rw [List.length_append]
          rfl

theorem count_rows (outcome : Option (OfferRow × Bool)) :
    (w.count outcome).totalCreated = w.totalCreated + if outcome.any (·.2) then 1 else 0 := by
  match outcome with
  | none => rfl
  | some (_, true) => rfl
  | some (_, false) => rfl

/-- The rows that are there are those of the start and those that were counted. -/
theorem step_created (hstep : step env args w raw = .ok w₁) :
    w₁.session.working.offers.length + w.totalCreated =
      w.session.working.offers.length + w₁.totalCreated := by
  obtain ⟨mapped, _, hturned⟩ := step_turned hstep
  cases hturned with
  | skipped houtside => rfl
  | ingested hinside hingest =>
      rw [count_session, count_rows, ingestOffer_rows hingest]
      dsimp only
      omega

theorem foldlM_step_created {records : List Dict} (h : records.foldlM (step env args) w = .ok w₁) :
    w₁.session.working.offers.length + w.totalCreated =
      w.session.working.offers.length + w₁.totalCreated := by
  apply foldlM_related (R := fun w w₁ : Walk =>
    w₁.session.working.offers.length + w.totalCreated =
      w.session.working.offers.length + w₁.totalCreated) _ _ _ h
  · exact fun _ => rfl
  · intro w m w₁ hfirst hrest
    omega
  · exact fun _ _ _ hstep => step_created hstep

/-- What a run that returns counts, and when it fails. -/
structure Counts (env : IngestEnv) (args : RunnerArgs) (fetchPage : FetchPage Cursor)
    (initialCursor : Cursor) (state : RunState) (result : IngestionResult) (state' : RunState) :
    Prop where
  /-- It fetches the pages that the loop has got. -/
  fetched : result.fetched =
    (((feed args fetchPage initialCursor).take state'.pagesFetched).map List.length).sum
  created : state.session.working.offers.length + result.created =
    state'.session.working.offers.length
  ok_iff : result.ok = false ↔ (firstFailure args fetchPage initialCursor).isSome = true
  untouched : result.ok = false → state'.session = state.session

theorem afterWalk_offers {n : Nat} {failure : Option (Option Nat)} {stopped : Bool} :
    (afterWalk env args n failure stopped w).2.session.working.offers =
      w.session.working.offers := by
  have hkept : KeptFor env (fun _ => True) (fun _ => False)
      fun t => t.working.offers = w.session.working.offers :=
    { rejected := fun _ ht => ht
      offer := fun _ _ hadmitted => hadmitted.elim
      failure := fun _ _ _ ht => ht }
  unfold afterWalk
  split
  · unfold pageFailure
    dsimp only
    split
    · rfl
    · exact recordFailure_kept hkept (fun _ _ => trivial) rfl
  · rfl

/-- A run counts what it does, and fails where its first fetch does, before anything is written. -/
theorem runPaginatedIngestion_counts
    (hrun : runPaginatedIngestion env args fetchPage initialCursor state = .ok (result, state')) :
    Counts env args fetchPage initialCursor state result state' := by
  cases hfirst : firstFailure args fetchPage initialCursor with
  | some blockedStatus =>
      rw [runPaginatedIngestion_of_firstFailure hfirst] at hrun
      obtain ⟨rfl, rfl⟩ := Prod.mk.inj (Except.ok.inj hrun)
      exact ⟨rfl, rfl, by simp [hfirst], fun _ => rfl⟩
  | none =>
      have hok := (runPaginatedIngestion_of_firstFetched hfirst hrun).1
      obtain ⟨stopped, s, hwalk, hresult, hstate⟩ := runPaginatedIngestion_ok hrun
      have hpages : state'.pagesFetched = reached env args fetchPage initialCursor state := by
        rw [← hstate, afterWalk_pagesFetched]
      rw [afterWalk_later (failure_of_firstFetched hfirst)] at hresult
      have hrecords := @walkFeed_records Cursor env args fetchPage initialCursor state
      rw [hwalk] at hrecords
      have hturn := (foldlM_step_ok hrecords.symm).1
      have hcreated := foldlM_step_created hrecords.symm
      refine ⟨?_, ?_, by simp [hok, hfirst], fun h => absurd (hok.symm.trans h) (by simp)⟩
      · rw [← hresult, hpages, ← List.length_flatten]
        exact hturn.trans (Nat.zero_add _)
      · rw [← hresult, ← hstate, afterWalk_offers]
        exact hcreated.symm

end RecruFlow.Ingestion
