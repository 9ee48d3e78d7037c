import RecruFlow.Ingestion.RecordFate
import RecruFlow.Ingestion.RunInvariant
import RecruFlow.Ingestion.SeenOffers

/-!
# What becomes of records without a date

For the fetch range a record whose date cannot be parsed is one of now. The
schema takes a missing date, and rejects one that is there and cannot be parsed.
-/

namespace RecruFlow.Ingestion

open Db Schemas Lib.Outcome Lib.Pages

/-- One of the rows is there for the offer, and has no date. -/
def HasUndated (text : TextTools) (offer : Offer) (offers : List OfferRow) : Prop :=
  ∃ row ∈ offers, (sameContent offer row ∨ computeDedupHash text offer = .ok row.dedupHash) ∧
    row.offer.postedAt = none

variable (env : IngestEnv) (args : RunnerArgs)

/-- A mapped record that is valid but for its date, which cannot be parsed, at a turn whose
instant is in the fetch range. -/
structure UndatedRecord (turn : Nat) (raw mapped : Dict) (offer : Offer) : Prop where
  maps : args.mapOffer args.sourceId raw = .ok mapped
  undated : args.parseDatetime (mapped.getD "posted_at" .none) = none
  valid : Offer.modelValidate env.pydantic (mapped.set "posted_at" .none) = some offer
  inRange : outsideRange args.since args.limit (args.now turn) = .ok false

/-- The `INSERT` of an offer is not needed, or goes through. -/
def CanPersist (offer : Offer) (raw : Dict) (db : Database) : Prop :=
  (∃ row ∈ db.offers, sameContent offer row) ∨
    ∃ dedupHash, computeDedupHash env.text offer = .ok dedupHash ∧
      env.postgres.offer (newOfferRow env offer raw dedupHash db) db = .taken

/-- The date is missing, and what is stored for the offer, if anything, is undated as well;
or the date is malformed, and the offer is stored without one already. -/
def Keepable (raw mapped : Dict) (offer : Offer) (s : Session) : Prop :=
  (mapped.getD "posted_at" .none = .none ∧ s.aborted = false ∧
      CanPersist env offer raw s.working ∧
        (HasUndated env.text offer s.working.offers ∨
          ¬ Represented env.text offer s.working.offers)) ∨
    (mapped.getD "posted_at" .none ≠ .none ∧ HasUndated env.text offer s.working.offers ∧
      ∃ dedupKey, validationFailureDedupKey env mapped = .ok dedupKey)

/-- The turn of the record goes through, and from then on, until the run ends in one way or
another, a row without a date is there for it. -/
def KeptUndated {Cursor : Type} (fetchPage : FetchPage Cursor) (initialCursor : Cursor)
    (state : RunState) (w : Walk) (raw : Dict) (offer : Offer) : Prop :=
  ∃ w', step env args w raw = .ok w' ∧ HasUndated env.text offer w'.session.working.offers ∧
    Ends (fun s : Session => HasUndated env.text offer s.working.offers) (·.2.session) (·.2.session)
      (runPaginatedIngestion env args fetchPage initialCursor state)

variable {env args} {offer : Offer} {raw mapped : Dict} {s : Session} {w : Walk}

/-! ## The schema -/

/-- For the schema a missing date is as good as `None`. -/
theorem modelValidate_set_none {pydantic : Pydantic}
    (hmissing : mapped.getD "posted_at" .none = .none) :
    Offer.modelValidate pydantic (mapped.set "posted_at" .none) =
      Offer.modelValidate pydantic mapped := by
  have hget : ∀ name, name ≠ "posted_at" →
      (mapped.set "posted_at" .none).get name = mapped.get name := by
    intro name hname
    rw [Dict.get_set, if_neg hname]
  have hfield : ∀ {α : Type} (name : String) (default : α) (coerce : PyValue → Option α),
      name ≠ "posted_at" →
        Pydantic.field (mapped.set "posted_at" .none) name default coerce =
          Pydantic.field mapped name default coerce := by
    intro α name default coerce hname
    rw [Pydantic.field, Pydantic.field, hget name hname]
  have hdate : Pydantic.field (mapped.set "posted_at" .none) "posted_at" none
        (Pydantic.orNone pydantic.datetime) =
      Pydantic.field mapped "posted_at" none (Pydantic.orNone pydantic.datetime) := by
    unfold Pydantic.field
    rw [Dict.get_set, if_pos rfl]
    unfold Dict.getD at hmissing
    cases hget : mapped.get "posted_at" with
    | none => rfl
    | some v =>
      rw [hget] at hmissing
      obtain rfl : v = .none := hmissing
      rfl
  unfold Offer.modelValidate
  simp (disch := decide) only [hget, hfield, hdate]

theorem postedAt_of_set_none {pydantic : Pydantic}
    (hvalid : Offer.modelValidate pydantic (mapped.set "posted_at" .none) = some offer) :
    offer.postedAt = none := by
  have hfield := Offer.modelValidate_postedAt hvalid
  rw [Pydantic.field, Dict.get_set, if_pos rfl] at hfield
  exact (Option.some.inj hfield).symm

/-- A date that is there and cannot be parsed is not a valid one. -/
theorem modelValidate_malformed {pydantic : Pydantic}
    (hpresent : mapped.getD "posted_at" .none ≠ .none)
    (hundated : (Pydantic.orNone pydantic.datetime (mapped.getD "posted_at" .none)).join = none) :
    Offer.modelValidate pydantic mapped = none := by
  cases hvalid : Offer.modelValidate pydantic mapped with
  | none => rfl
  | some dated =>
    have hfield := Offer.modelValidate_postedAt hvalid
    unfold Pydantic.field at hfield
    unfold Dict.getD at hpresent hundated
    cases hget : mapped.get "posted_at" with
    | none =>
      rw [hget] at hpresent
      exact absurd rfl hpresent
    | some v =>
      rw [hget] at hpresent hundated hfield
      rw [Option.getD_some] at hpresent hundated
      dsimp only at hfield
      rw [hfield] at hundated
      have hcoerced : Pydantic.orNone pydantic.datetime v = some <$> pydantic.datetime v := by
        cases v with
        | none => exact absurd rfl hpresent
        | _ => rfl
      rw [hcoerced] at hfield
      cases hdatetime : pydantic.datetime v with
      | none =>
        rw [hdatetime] at hfield
        cases hfield
      | some d =>
        rw [hdatetime] at hfield
        rw [← Option.some.inj hfield] at hundated
        cases hundated

theorem sourceId_ne_none {pydantic : Pydantic}
    (hvalid : Offer.modelValidate pydantic (mapped.set "posted_at" .none) = some offer) :
    mapped.get "source_id" ≠ none := by
  intro hmissing
  have hsource := Offer.modelValidate_sourceId hvalid
  rw [Dict.get_set, if_neg (by decide), hmissing] at hsource
  cases hsource

/-! ## The turn of a record -/

/-- A turn of a due record is an ingestion of it. -/
theorem step_due_iff {Q : Session → Prop} (hmapped : args.mapOffer args.sourceId raw = .ok mapped)
    (houtside : outsideRange args.since args.limit (effectiveDate args w.turn mapped) = .ok false) :
    (∃ w', step env args w raw = .ok w' ∧ Q w'.session) ↔
      ∃ result s', ingestOffer env mapped raw w.session = .ok (result, s') ∧ Q s' := by
  rw [step_inside hmapped houtside]
  cases ingestOffer env mapped raw w.session with
  | error raised => simp
  | ok r =>
    obtain ⟨result, s'⟩ := r
    simp

/-- What an invalid record leaves alone. -/
theorem recordInvalid_offers {s' : Session} (h : recordInvalid env mapped s = .ok s') :
    s'.working.offers = s.working.offers := by
  have hkept : KeptFor env (fun _ => True) (fun _ => False)
      fun t => t.working.offers = s.working.offers :=
    { rejected := fun _ ht => ht
      offer := fun _ _ hadmitted => hadmitted.elim
      failure := fun _ _ _ ht => ht }
  have hends : Ends (fun t : Session => t.working.offers = s.working.offers) (·.2) id
      (recordInvalid env mapped s) :=
    recordInvalid_kept hkept (fun _ _ _ => trivial) rfl
  rw [h] at hends
  exact hends

/-- A malformed date leaves the record to the failures, and the offers as they are. -/
theorem ingestOffer_malformed_iff (hinvalid : Offer.modelValidate env.pydantic mapped = none)
    (hsource : mapped.get "source_id" ≠ none) :
    (∃ result s', ingestOffer env mapped raw s = .ok (result, s') ∧
        HasUndated env.text offer s'.working.offers) ↔
      HasUndated env.text offer s.working.offers ∧
        ∃ dedupKey, validationFailureDedupKey env mapped = .ok dedupKey := by
  have hreturns : (∃ s', recordInvalid env mapped s = .ok s') ↔
      ∃ dedupKey, validationFailureDedupKey env mapped = .ok dedupKey := by
    unfold recordInvalid
    cases hkey : validationFailureDedupKey env mapped with
    | error e => simp [Session.lift, Except.mapError, bind, Except.bind]
    | ok dedupKey =>
      refine iff_of_true ?_ ⟨dedupKey, rfl⟩
      simp only [Session.lift, Except.mapError, bind, Except.bind]
      cases hget : mapped.get "source_id" with
      | none => exact absurd hget hsource
      | some v => cases v <;> exact ⟨_, rfl⟩
  rw [ingestOffer_invalid hinvalid, ← hreturns]
  constructor
  · rintro ⟨result, s', hend, hundated⟩
    obtain ⟨t, hrecorded, hend⟩ := bind_ok hend
    obtain ⟨-, rfl⟩ := Prod.mk.inj (Except.ok.inj hend)
    rw [recordInvalid_offers hrecorded] at hundated
    exact ⟨hundated, t, hrecorded⟩
  · rintro ⟨hundated, t, hrecorded⟩
    refine ⟨none, t, by rw [hrecorded]; rfl, ?_⟩
    rwa [recordInvalid_offers hrecorded]

/-- A call of `persist_offer` that returns leaves an undated row for an undated offer unless
a dated one is stored for it. -/
theorem Persisted.hasUndated_iff {db db' : Database} {result : OfferRow × Bool}
    (h : Persisted env offer raw db result db') (hdate : offer.postedAt = none) :
    HasUndated env.text offer db'.offers ↔
      HasUndated env.text offer db.offers ∨ ¬ Represented env.text offer db.offers := by
  cases h with
  | found hmem hduplicate =>
    have hrepresented : Represented env.text offer db.offers := ⟨_, hmem, hduplicate⟩
    rw [or_iff_left (not_not_intro hrepresented)]
  | @created dedupHash hcontent hhash hfree =>
    refine iff_of_true ⟨_, List.mem_append_right _ (List.mem_singleton_self _), .inr hhash, hdate⟩
      (.inr ?_)
    rintro ⟨row, hrow, hsame | hsame⟩
    · exact hcontent row hrow hsame
    · exact hfree row hrow (Except.ok.inj (hsame.symm.trans hhash))

theorem persistOffer_undated_iff (hdate : offer.postedAt = none) :
    (∃ result s', persistOffer env offer raw s = .ok (result, s') ∧
        HasUndated env.text offer s'.working.offers) ↔
      s.aborted = false ∧ CanPersist env offer raw s.working ∧
        (HasUndated env.text offer s.working.offers ∨
          ¬ Represented env.text offer s.working.offers) := by
  cases haborted : s.aborted with
  | true =>
    have herror : persistOffer env offer raw s = .error (.database, s) := by
      simp [persistOffer, Session.select, haborted, bind, Except.bind]
    simp [herror]
  | false =>
    have hreturns := @persistOffer_returns_iff env raw s offer haborted
    constructor
    · rintro ⟨result, s', hpersist, hundated⟩
      have hdone := persistOffer_ok hpersist
      exact ⟨rfl, hreturns.mp ⟨result, s', hpersist⟩, (hdone.hasUndated_iff hdate).mp hundated⟩
    · rintro ⟨-, hcan, hbefore⟩
      obtain ⟨result, s', hpersist⟩ := hreturns.mpr hcan
      have hdone := persistOffer_ok hpersist
      exact ⟨result, s', hpersist, (hdone.hasUndated_iff hdate).mpr hbefore⟩

/-- A record whose date is missing is found, or stored without a date. -/
theorem ingestOffer_missing_iff (hvalid : Offer.modelValidate env.pydantic mapped = some offer)
    (hdate : offer.postedAt = none) :
    (∃ result s', ingestOffer env mapped raw s = .ok (result, s') ∧
        HasUndated env.text offer s'.working.offers) ↔
      s.aborted = false ∧ CanPersist env offer raw s.working ∧
        (HasUndated env.text offer s.working.offers ∨
          ¬ Represented env.text offer s.working.offers) := by
  rw [ingestOffer_valid hvalid, ← persistOffer_undated_iff hdate]
  constructor
  · rintro ⟨result, s', hend, hundated⟩
    obtain ⟨r, hpersist, hend⟩ := bind_ok hend
    obtain ⟨-, rfl⟩ := Prod.mk.inj (Except.ok.inj hend)
    exact ⟨r.1, r.2, hpersist, hundated⟩
  · rintro ⟨result, s', hpersist, hundated⟩
    exact ⟨some result, s', by rw [hpersist]; rfl, hundated⟩

/-- What the turn of a record leaves, by what its date is. -/
theorem turn_undated_iff (hdates : ∀ v, args.parseDatetime v =
      (Pydantic.orNone env.pydantic.datetime v).join)
    (hrecord : UndatedRecord env args w.turn raw mapped offer) :
    (∃ w', step env args w raw = .ok w' ∧ HasUndated env.text offer w'.session.working.offers) ↔
      Keepable env raw mapped offer w.session := by
  have houtside : outsideRange args.since args.limit (effectiveDate args w.turn mapped) =
      .ok false := by
    rw [effectiveDate, hrecord.undated]
    exact hrecord.inRange
  have hturn := @step_due_iff env args raw mapped w
    (fun s => HasUndated env.text offer s.working.offers) hrecord.maps houtside
  rw [hturn, Keepable]
  by_cases hdate : mapped.getD "posted_at" .none = .none
  · have hvalid : Offer.modelValidate env.pydantic mapped = some offer := by
      rw [← modelValidate_set_none hdate]
      exact hrecord.valid
    rw [ingestOffer_missing_iff hvalid (postedAt_of_set_none hrecord.valid)]
    simp [hdate]
  · have hinvalid : Offer.modelValidate env.pydantic mapped = none :=
      modelValidate_malformed hdate (by rw [← hdates]; exact hrecord.undated)
    rw [ingestOffer_malformed_iff hinvalid (sourceId_ne_none hrecord.valid)]
    simp [hdate]

/-! ## The rest of the run -/

section Run

variable {Cursor : Type} {fetchPage : FetchPage Cursor} {initialCursor : Cursor}
  {state : RunState} {i : Nat} {w' : Walk}

/-- Rows are not taken away, so that nothing after the turn undoes it. -/
theorem run_keeps_undated (hi : (walked env args fetchPage initialCursor state)[i]? = some raw)
    (hbefore : ((walked env args fetchPage initialCursor state).take i).foldlM (step env args)
      (.start state) = .ok w)
    (hstep : step env args w raw = .ok w')
    (hundated : HasUndated env.text offer w'.session.working.offers) :
    Ends (fun s : Session => HasUndated env.text offer s.working.offers) (·.2.session) (·.2.session)
      (runPaginatedIngestion env args fetchPage initialCursor state) := by
  have hkept : KeptFor env (fun _ => True) (fun _ => True)
      fun s => HasUndated env.text offer s.working.offers :=
    { rejected := fun _ hs => hs
      offer := by
        rintro s row - ⟨old, hold, hundated⟩
        exact ⟨old, List.mem_append_left _ hold, hundated⟩
      failure := fun _ _ _ hs => hs }
  have hsplit : walked env args fetchPage initialCursor state =
      (walked env args fetchPage initialCursor state).take i ++
        raw :: (walked env args fetchPage initialCursor state).drop (i + 1) := by
    obtain ⟨hlt, hget⟩ := List.getElem?_eq_some_iff.mp hi
    rw [← hget, ← List.drop_eq_getElem_cons hlt, List.take_append_drop]
  refine runPaginatedIngestion_ends hkept (fun _ _ => trivial) (walkFeed_ends ?_)
  rw [hsplit, foldlM_append_of_ok hbefore, List.foldlM_cons, hstep]
  exact ends_foldlM hundated fun _ _ hw =>
    step_kept hkept (fun _ _ _ => trivial) admitsRecords_all hw

/-- A record without a date that can be parsed is kept as an undated offer exactly when its
date is missing and no dated row is there for it, or an undated one is already. -/
theorem undated_kept_iff (hdates : ∀ v, args.parseDatetime v =
      (Pydantic.orNone env.pydantic.datetime v).join)
    (hi : (walked env args fetchPage initialCursor state)[i]? = some raw)
    (hbefore : ((walked env args fetchPage initialCursor state).take i).foldlM (step env args)
      (.start state) = .ok w)
    (hrecord : UndatedRecord env args w.turn raw mapped offer) :
    KeptUndated env args fetchPage initialCursor state w raw offer ↔
      Keepable env raw mapped offer w.session := by
  rw [← turn_undated_iff hdates hrecord]
  constructor
  · rintro ⟨w', hstep, hundated, -⟩
    exact ⟨w', hstep, hundated⟩
  · rintro ⟨w', hstep, hundated⟩
    exact ⟨w', hstep, hundated, run_keeps_undated hi hbefore hstep hundated⟩

end Run

/-! ## One record -/

/-- A run without a range over records that are mapped as they are. -/
def undatedArgs : RunnerArgs where
  sourceId := 1
  sourceName := "acme"
  mapOffer := fun _ raw => .ok raw
  parseDatetime := fun v => (Pydantic.orNone acmeEnv.pydantic.datetime v).join
  now := fun _ => ⟨0, true⟩
  maxPages := 1
  alreadySeenStopThreshold := 20
  forceRefresh := false
  since := none
  limit := none

/-- One page with one record. -/
def onePage (raw : Dict) : FetchPage Nat :=
  fun _ _ => .got ([raw], none)

def acmeRunState : RunState :=
  { session := .opened acmeSourceDb }

def malformedFields : Dict :=
  (acmeFields "a").set "posted_at" (.str "not-a-date")

theorem undated_kept_acme :
    KeptUndated columnsEnv undatedArgs (onePage (acmeFields "a")) 0 acmeRunState
      (.start acmeRunState) (acmeFields "a") firstOffer := by
  have hrecord : UndatedRecord columnsEnv undatedArgs 0 (acmeFields "a") (acmeFields "a")
      firstOffer :=
    ⟨rfl, rfl, by decide, rfl⟩
  apply (@undated_kept_iff columnsEnv undatedArgs firstOffer (acmeFields "a") (acmeFields "a")
    (.start acmeRunState) Nat (onePage (acmeFields "a")) 0 acmeRunState 0 (fun _ => rfl) rfl rfl
    hrecord).mpr
  refine .inl ⟨rfl, rfl, .inr ⟨_, rfl, by decide⟩, .inr ?_⟩
  rintro ⟨row, hrow, -⟩
  cases hrow

/-- The record is due, and dropped by the schema. -/
theorem malformed_date_dropped :
    UndatedRecord columnsEnv undatedArgs 0 malformedFields malformedFields firstOffer ∧
      (∃ result state', runPaginatedIngestion columnsEnv undatedArgs (onePage malformedFields) 0
          acmeRunState = .ok (result, state') ∧ state'.handed = [malformedFields] ∧
            state'.session.working.offers = []) := by
  refine ⟨⟨rfl, rfl, by decide, rfl⟩, ?_⟩
  exact ⟨_, _, rfl, rfl, rfl⟩

end RecruFlow.Ingestion
