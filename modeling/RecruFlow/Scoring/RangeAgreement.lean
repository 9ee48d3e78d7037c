import RecruFlow.Ingestion.OlderPageStop
import RecruFlow.Scoring.Selection

/-!
# Two filters for one fetch range

The pagination loop goes over records out of the fetch range, and a batch leaves
offers out that are not in it. Both filters are written out, and they agree:
what is stored for its date is scored for its date.
-/

namespace RecruFlow.Scoring

open Connectors Db Ingestion

/-- The loop goes over the record and does nothing else. -/
def Skips (env : IngestEnv) (args : RunnerArgs) (w : Walk) (raw : Dict) : Prop :=
  step env args w raw = .ok { w with turn := w.turn + 1 }

/-- The loop hands the record to `ingest_offer`, whatever becomes of it. -/
def HandsOver (env : IngestEnv) (args : RunnerArgs) (w : Walk) (raw : Dict) : Prop :=
  Walk.handedBy (step env args w raw) = w.handed ++ [raw]

/-- The offer has the date of the record, and is tested at the instant of its turn. -/
structure SameDate (env : BatchEnv) (args : RunnerArgs) (turn : Nat) (raw : Dict) (row : OfferRow) :
    Prop where
  posted : ∃ mapped, args.mapOffer args.sourceId raw = .ok mapped ∧
    args.parseDatetime (mapped.getD "posted_at" .none) = row.offer.postedAt
  instant : args.now turn = ⟨env.now row.id, true⟩

/-- The bounds of the loop are those of the configuration. -/
def BoundsOf (env : BatchEnv) (args : RunnerArgs) (configJson : Dict) : Prop :=
  resolveFetchRange env.parseDatetime (configJson.get "fetch_range") = (args.since, args.limit)

variable {env : IngestEnv} {batch : BatchEnv} {args : RunnerArgs} {w : Walk} {turn : Nat}
  {raw : Dict} {row : OfferRow} {configJson : Dict}

/-- Where there are no bounds, the test for them finds nothing outside. -/
theorem inFetchRange_eq_not_outside (hbounds : BoundsOf batch args configJson) :
    inFetchRange batch row configJson =
      (outsideRange args.since args.limit
        (row.offer.postedAt.getD ⟨batch.now row.id, true⟩)).map fun outside => !outside := by
  unfold inFetchRange
  rw [hbounds]
  dsimp only
  split
  · next hnone =>
    rw [hnone.1, hnone.2]
    rfl
  · cases outsideRange args.since args.limit (row.offer.postedAt.getD ⟨batch.now row.id, true⟩) <;>
      rfl

theorem SameDate.effectiveDate_eq (h : SameDate batch args turn raw row) :
    ∃ mapped, args.mapOffer args.sourceId raw = .ok mapped ∧
      effectiveDate args turn mapped = row.offer.postedAt.getD ⟨batch.now row.id, true⟩ := by
  obtain ⟨mapped, hmapped, hposted⟩ := h.posted
  exact ⟨mapped, hmapped, by rw [effectiveDate, hposted, h.instant]⟩

/-- The batch keeps the offer where the record is in the range. -/
theorem inFetchRange_true_iff (hbounds : BoundsOf batch args configJson)
    (hdate : SameDate batch args turn raw row) :
    inFetchRange batch row configJson = .ok true ↔ inRangeAt args turn raw = true := by
  obtain ⟨mapped, hmapped, heffective⟩ := hdate.effectiveDate_eq
  rw [inFetchRange_eq_not_outside hbounds, inRangeAt, hmapped, ← heffective]
  dsimp only
  cases outsideRange args.since args.limit (effectiveDate args turn mapped) with
  | error e => simp [Except.map]
  | ok outside => simp [Except.map]

/-- With time zones everywhere a record is in the range, or not due. -/
theorem inRangeAt_eq_dueAt (hdate : SameDate batch args turn raw row)
    (hposted : ∀ posted ∈ row.offer.postedAt, posted.aware = true)
    (hsince : ∀ since ∈ args.since, since.aware = true)
    (hlimit : ∀ limit ∈ args.limit, limit.aware = true) :
    inRangeAt args turn raw = dueAt args turn raw := by
  obtain ⟨mapped, hmapped, heffective⟩ := hdate.effectiveDate_eq
  have haware : (row.offer.postedAt.getD ⟨batch.now row.id, true⟩).aware = true := by
    cases hrow : row.offer.postedAt with
    | none => rfl
    | some posted => exact hposted posted hrow
  rw [inRangeAt, dueAt, hmapped]
  dsimp only
  rw [heffective, outsideRange_eq haware hsince hlimit]
  simp

theorem handsOver_iff_inRangeAt : HandsOver env args w raw ↔ inRangeAt args w.turn raw = true := by
  constructor
  · intro h
    by_contra hrange
    have hrange : inRangeAt args w.turn raw = false := Bool.eq_false_iff.mpr hrange
    unfold HandsOver at h
    cases hdue : dueAt args w.turn raw with
    | false =>
        rw [step_of_not_due hdue] at h
        exact absurd h.symm (by simp [Walk.handedBy])
    | true =>
        obtain ⟨e, hstep⟩ := @step_of_due env args raw w hdue hrange
        rw [hstep] at h
        exact absurd h.symm (by simp [Walk.handedBy])
  · exact step_of_inRange

/-- What is not due is gone over, and what is due is not. -/
theorem skips_iff_not_due : Skips env args w raw ↔ dueAt args w.turn raw = false := by
  constructor
  · intro h
    obtain ⟨recent, hrecord⟩ := step_ok h
    have hhanded := (ingestRecord_ok hrecord).2.2
    by_contra hdue
    rw [if_pos (Bool.eq_true_of_not_eq_false hdue)] at hhanded
    exact absurd hhanded (by simp)
  · exact step_of_not_due

/-- The filter of a batch keeps an offer exactly when the loop, at the same instant
and with the bounds of the same configuration, does not go over its record. -/
theorem inFetchRange_iff_not_skips (hbounds : BoundsOf batch args configJson)
    (hdate : SameDate batch args w.turn raw row)
    (hposted : ∀ posted ∈ row.offer.postedAt, posted.aware = true)
    (hsince : ∀ since ∈ args.since, since.aware = true)
    (hlimit : ∀ limit ∈ args.limit, limit.aware = true) :
    (inFetchRange batch row configJson = .ok true ↔ ¬ Skips env args w raw) ∧
      (inFetchRange batch row configJson = .ok true ↔ HandsOver env args w raw) := by
  rw [inFetchRange_true_iff hbounds hdate, handsOver_iff_inRangeAt, skips_iff_not_due,
    inRangeAt_eq_dueAt hdate hposted hsince hlimit]
  exact ⟨by simp, Iff.rfl⟩

/-- A batch of July 2026, and the configuration for what was posted since June. -/
def julyBatch : BatchEnv :=
  { sameScore with
    parseDatetime := sinceJuneArgs.parseDatetime
    now := fun _ => 1784073600000000 }

def sinceJuneConfig : Dict :=
  ⟨[("fetch_range", .dict
    [("mode", .str "range"), ("since", .datetime ⟨1780272000000000, true⟩)])]⟩

/-- An offer without a date is in the range of a batch of July. -/
theorem inFetchRange_iff_not_skips_undated :
    (inFetchRange julyBatch acmeOffer sinceJuneConfig = .ok true ↔
        ¬ Skips acmeEnv sinceJuneArgs (.start { session := .opened {} }) (acmeFields "a")) ∧
      (inFetchRange julyBatch acmeOffer sinceJuneConfig = .ok true ↔
        HandsOver acmeEnv sinceJuneArgs (.start { session := .opened {} }) (acmeFields "a")) :=
  inFetchRange_iff_not_skips rfl ⟨⟨acmeFields "a", rfl, rfl⟩, rfl⟩
    (by simp [acmeOffer]) (by simp [sinceJuneArgs]) (by simp [sinceJuneArgs])

/-! ## A whole run -/

/-- Records that are gone through are handed over where they are in the range. -/
theorem foldlM_step_inRange {records : List Dict} {w' : Walk}
    (h : records.foldlM (step env args) w = .ok w') :
    w'.handed = w.handed ++
      ((records.zipIdx w.turn).filter fun p => inRangeAt args p.2 p.1).map (·.1) := by
  induction records generalizing w with
  | nil =>
      obtain rfl : w = w' := Except.ok.inj h
      simp
  | cons raw records ih =>
      rw [List.foldlM_cons] at h
      obtain ⟨m, hstep, hrest⟩ := bind_ok h
      obtain ⟨mapped, hmapped, hturned⟩ := step_turned hstep
      rw [ih hrest, List.zipIdx_cons, List.filter_cons]
      cases hturned with
      | skipped houtside =>
          have hrange : inRangeAt args w.turn raw = false := by simp [inRangeAt, hmapped, houtside]
          rw [hrange, if_neg Bool.false_ne_true]
      | ingested hinside hingest =>
          have hrange : inRangeAt args w.turn raw = true :=
            inRangeAt_iff.mpr ⟨mapped, hmapped, hinside⟩
          rw [hrange, if_pos rfl, count_turn, count_handed, List.map_cons, List.append_assoc]
          rfl

/-- A run that does not raise hands over the records whose offers a batch would keep. -/
theorem run_hands_inRange {Cursor : Type} {fetchPage : FetchPage Cursor} {initialCursor : Cursor}
    {state state' : RunState} {result : IngestionResult} {rows : Nat → OfferRow}
    (hbounds : BoundsOf batch args configJson)
    (hdates : ∀ i raw, (walked env args fetchPage initialCursor state)[i]? = some raw →
      SameDate batch args i raw (rows i))
    (hrun : runPaginatedIngestion env args fetchPage initialCursor state = .ok (result, state')) :
    state'.handed = state.handed ++
      ((walked env args fetchPage initialCursor state).zipIdx.filter fun p =>
        inFetchRange batch (rows p.2) configJson = .ok true).map (·.1) := by
  have hhanded := @handedBy_run Cursor env args fetchPage initialCursor state
  rw [hrun] at hhanded
  cases hfold : (walked env args fetchPage initialCursor state).foldlM (step env args)
      (.start state) with
  | error raised =>
      rw [runPaginatedIngestion_eq] at hrun
      have hwalk := @walkFeed_records Cursor env args fetchPage initialCursor state
      rw [hfold] at hwalk
      split at hrun
      · cases hrun
      · next hok =>
        rw [hok] at hwalk
        cases hwalk
  | ok w =>
      rw [hfold] at hhanded
      have hfilter : ∀ p ∈ (walked env args fetchPage initialCursor state).zipIdx,
          inRangeAt args p.2 p.1 =
            decide (inFetchRange batch (rows p.2) configJson = .ok true) := by
        intro p hp
        have hdate := hdates p.2 p.1 (List.mem_zipIdx_iff_getElem?.mp hp)
        rw [Bool.eq_iff_iff, decide_eq_true_iff, inFetchRange_true_iff hbounds hdate]
      rw [← List.filter_congr hfilter]
      exact hhanded.trans (foldlM_step_inRange hfold)

end RecruFlow.Scoring
