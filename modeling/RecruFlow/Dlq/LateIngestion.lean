import Mathlib.Data.List.Sort
import Mathlib.Data.Prod.Lex
import Mathlib.Data.String.Basic
import RecruFlow.Connectors.MapOffer
import RecruFlow.Dlq.StoredRange
import RecruFlow.Ingestion.RecordFate

/-!
# The retry of an invalid offer, and its ingestion

An offer is validated in the fields that its record is mapped to, and stored
with the record itself. A failed validation keeps the mapped fields only: a
retry that succeeds stores them in the place of the record.
-/

namespace RecruFlow.Dlq

open Db Ingestion Lib.Transaction Schemas

/-- What a `jsonb` column gives back of the values that are stored in it. -/
structure JsonbColumn where
  read : Dict → Dict
  read_read : ∀ d, read (read d) = read d

/-- The offers, each with its payload as the column has it. -/
def JsonbColumn.offers (jsonb : JsonbColumn) (db : Database) : List OfferRow :=
  db.offers.map fun row => { row with rawPayload := jsonb.read row.rawPayload }

/-- `normalize_and_validate` has rejected the fields, and this is the row of their failure. -/
structure RecordedInvalid (env : IngestEnv) (mapped : Dict) (s : Session) (row : IngestionFailure) :
    Prop where
  invalid : Offer.modelValidate env.pydantic mapped = none
  recorded : ∃ dedupKey sourceId s', validationFailureDedupKey env mapped = .ok dedupKey ∧
    mapped.get "source_id" = some (.int sourceId) ∧
    attempt (insertIngestionFailure env.postgres env.startedAt
      (validationFields env mapped dedupKey sourceId)) s = (true, s') ∧
    row ∈ s'.working.ingestionFailures ∧ storedKey dedupKey = some row.dedupKey

/-- A record of the source in the body of the pagination loop. -/
def ingestRaw (env : IngestEnv) (mapOffer : Nat → Dict → Except PyError Dict) (sourceId : Nat)
    (raw : Dict) (s : Session) : Except Raised (Option (OfferRow × Bool) × Session) := do
  let mapped ← s.lift (mapOffer sourceId raw)
  ingestOffer env mapped raw s

/-- The offer is there with its content, or a row for it with the payload is taken. -/
def Takes (env : IngestEnv) (offer : Offer) (rawPayload : Dict) (db : Database) : Prop :=
  (∃ row ∈ db.offers, sameContent offer row) ∨
    ∃ dedupHash, computeDedupHash env.text offer = .ok dedupHash ∧
      env.postgres.offer (newOfferRow env offer rawPayload dedupHash db) db = .taken

variable {env : RetryEnv} {ingestEnv : IngestEnv} {jsonb : JsonbColumn} {offer : Offer}
  {mapped raw payload payload' : Dict} {db db₁ db₂ : Database} {s s' s₀ : Session}
  {row stored : IngestionFailure}

/-! ## The row of a rejected offer -/

/-- A recorded validation failure holds the fields that it is about. -/
theorem RecordedInvalid.rawPayload_eq (h : RecordedInvalid ingestEnv mapped s row) :
    row.rawPayload = some mapped := by
  obtain ⟨dedupKey, sourceId, s', _, _, hattempt, hrow, hkey⟩ := h.recorded
  unfold attempt at hattempt
  split at hattempt
  · cases hattempt
  · split at hattempt
    · next db hdone =>
      obtain rfl := (Prod.mk.inj hattempt).2
      obtain ⟨key, hstored, rfl⟩ := insertIngestionFailure_done hdone
      obtain rfl : row.dedupKey = key := Option.some.inj (hkey.symm.trans hstored)
      rcases upsert_mem_key hrow rfl with ⟨old, _, _, hupdate⟩ | ⟨_, hnew⟩
      · rw [hupdate]
        rfl
      · rw [hnew]
        rfl
    · cases hattempt
    · cases hattempt

/-! ## Two payloads for one offer -/

/-- Two calls that store the same offer leave the same rows, but where both of
them append a row: then the payloads decide. -/
theorem persisted_offers_iff {result₁ result₂ : OfferRow × Bool}
    (h₁ : Persisted ingestEnv offer payload db result₁ db₁)
    (h₂ : Persisted ingestEnv offer payload' db result₂ db₂) :
    jsonb.offers db₁ = jsonb.offers db₂ ↔
      Represented ingestEnv.text offer db.offers ∨ jsonb.read payload = jsonb.read payload' := by
  have hfound {found : OfferRow} (hmem : found ∈ db.offers)
      (hduplicate : sameContent offer found ∨
        computeDedupHash ingestEnv.text offer = .ok found.dedupHash)
      {dedupHash : String} (hcontent : ∀ row ∈ db.offers, ¬ sameContent offer row)
      (hhash : computeDedupHash ingestEnv.text offer = .ok dedupHash)
      (hfree : ∀ row ∈ db.offers, row.dedupHash ≠ dedupHash) : False := by
    rcases hduplicate with hsame | hsame
    · exact hcontent found hmem hsame
    · exact hfree found hmem (Except.ok.inj (hsame.symm.trans hhash))
  cases h₁ with
  | found hmem hduplicate =>
      cases h₂ with
      | found _ _ => exact iff_of_true rfl (.inl ⟨_, hmem, hduplicate⟩)
      | created hcontent hhash hfree =>
          exact (hfound hmem hduplicate hcontent hhash hfree).elim
  | created hcontent hhash hfree =>
      cases h₂ with
      | found hmem hduplicate => exact (hfound hmem hduplicate hcontent hhash hfree).elim
      | created _ hhash' _ =>
          obtain rfl := Except.ok.inj (hhash.symm.trans hhash')
          have hnew : ¬ Represented ingestEnv.text offer db.offers := by
            intro hrepresented
            obtain ⟨found, hmem, hduplicate⟩ := hrepresented
            exact hfound hmem hduplicate hcontent hhash hfree
          simp [JsonbColumn.offers, newOfferRow, hnew]

/-- The retry of a row whose payload is valid stores that payload. -/
theorem retryValidationFailed_of_valid (hpayload : stored.rawPayload = some payload)
    (hvalid : Offer.modelValidate env.pydantic payload = some offer) :
    retryValidationFailed env (.ofStored stored) s =
      (persistOffer env.toIngestEnv offer payload s >>= fun r =>
        pure (true, .ofStored stored, r.2)) :=
  retryValidationFailed_offer hpayload hvalid (if_pos rfl)

/-- Retrying the failure of an offer that has become valid stores what ingesting
its record would store, exactly when the mapped fields can be stored as its payload
and either the offer is in the table already or they are the record. -/
theorem retry_stores_lateIngestion_iff {mapOffer : Nat → Dict → Except PyError Dict}
    {sourceId : Nat} {offerRow : OfferRow} {created : Bool}
    (hmapped : mapOffer sourceId raw = .ok mapped)
    (hrecorded : RecordedInvalid ingestEnv mapped s₀ row)
    (hstored : stored.rawPayload = row.rawPayload.map jsonb.read)
    (hlax : Offer.modelValidate env.pydantic mapped =
      Offer.modelValidate env.pydantic (jsonb.read mapped))
    (haccepted : Offer.modelValidate env.pydantic (jsonb.read mapped) = some offer)
    (hingest : ingestRaw env.toIngestEnv mapOffer sourceId raw s =
      .ok (some (offerRow, created), s')) :
    (∃ t s'', retryValidationFailed env (.ofStored stored) s = .ok (true, t, s'') ∧
      jsonb.offers s''.working = jsonb.offers s'.working) ↔
      Takes env.toIngestEnv offer (jsonb.read mapped) s.working ∧
        (Represented env.text offer s.working.offers ∨ jsonb.read mapped = jsonb.read raw) := by
  rw [hrecorded.rawPayload_eq, Option.map_some] at hstored
  have hvalid : Offer.modelValidate env.pydantic mapped = some offer :=
    hlax.trans haccepted
  have hpersist : persistOffer env.toIngestEnv offer raw s = .ok ((offerRow, created), s') := by
    have hingest : ingestOffer env.toIngestEnv mapped raw s = .ok (some (offerRow, created), s') := by
      rw [ingestRaw, hmapped] at hingest
      exact hingest
    rw [ingestOffer_valid hvalid] at hingest
    obtain ⟨r, hr, hend⟩ := bind_ok hingest
    rw [hr]
    obtain ⟨hresult, hs⟩ := Prod.mk.inj (Except.ok.inj hend)
    rw [← Option.some.inj hresult, ← hs]
  have hgood : s.aborted = false := by
    obtain ⟨found, hselect, _⟩ := bind_ok hpersist
    exact (Session.select_ok hselect).1
  rw [retryValidationFailed_of_valid hstored haccepted]
  have htakes := @persistOffer_returns_iff env.toIngestEnv (jsonb.read mapped) s offer hgood
  constructor
  · intro h
    obtain ⟨t, s'', hretry, hoffers⟩ := h
    obtain ⟨r, hr, hend⟩ := bind_ok hretry
    have hs : r.2 = s'' := (Prod.mk.inj (Prod.mk.inj (Except.ok.inj hend)).2).2
    rw [← hs] at hoffers
    have hsame := (persisted_offers_iff (persistOffer_ok hr) (persistOffer_ok hpersist)).mp hoffers
    rw [jsonb.read_read] at hsame
    exact ⟨htakes.mp ⟨r.1, r.2, hr⟩, hsame⟩
  · intro h
    obtain ⟨result, s'', hr⟩ := htakes.mpr h.1
    refine ⟨.ofStored stored, s'', by rw [hr]; rfl, ?_⟩
    apply (persisted_offers_iff (persistOffer_ok hr) (persistOffer_ok hpersist)).mpr
    rw [jsonb.read_read]
    exact h.2

/-! ## A date that a later release reads -/

/-- The keys of a `jsonb` object are sorted, the shorter ones first. -/
def jsonbKey (item : String × PyValue) : ℕ ×ₗ String :=
  toLex (item.1.length, item.1)

def keyOrder (a b : String × PyValue) : Prop :=
  jsonbKey a ≤ jsonbKey b

instance : DecidableRel keyOrder := fun _ _ => inferInstanceAs (Decidable (_ ≤ _))

/-- A `jsonb` column with flat objects. -/
def flatJsonb : JsonbColumn where
  read d := ⟨d.items.insertionSort keyOrder⟩
  read_read d := by
    have htotal : Std.Total keyOrder := ⟨fun a b => le_total (jsonbKey a) (jsonbKey b)⟩
    have htrans : IsTrans _ keyOrder := ⟨fun _ _ _ => @le_trans (ℕ ×ₗ String) _ _ _ _⟩
    rw [(List.pairwise_insertionSort keyOrder d.items).insertionSort_eq]

def datedRecord : Dict :=
  ⟨[("title", .str "a"), ("company", .str "acme"), ("validFrom", .str "2025-01-01T00:00:00Z")]⟩

def datedFields : Dict :=
  match Connectors.SolidJobs.mapOffer Connectors.acmeMapTools 1 datedRecord with
  | .ok mapped => mapped
  | .error _ => ⟨[]⟩

/-- The failure of the release that cannot read the date. -/
def datedRow : IngestionFailure :=
  (validationFields acmeEnv datedFields "validation:1:a:acme" 1).new 0

theorem datedRow_recorded : RecordedInvalid acmeEnv datedFields (.opened {}) datedRow where
  invalid := by decide +kernel
  recorded := by
    refine ⟨"validation:1:a:acme", 1, _, by decide +kernel, by decide +kernel, rfl, ?_, rfl⟩
    exact List.mem_singleton_self _

/-- The retry and the ingestion of the record, into an empty store. -/
def lateRetry : Except Raised Handled :=
  retryValidationFailed rangeRetryEnv
    (.ofStored { datedRow with rawPayload := some (flatJsonb.read datedFields) }) (.opened {})

def lateIngestion : Except Raised (Option (OfferRow × Bool) × Session) :=
  ingestRaw rangeRetryEnv.toIngestEnv (Connectors.SolidJobs.mapOffer Connectors.acmeMapTools) 1
    datedRecord (.opened {})

def payloadsAfter {α : Type} (s : α → Session) : Except Raised α → Option (List Dict)
  | .ok a => some ((flatJsonb.offers (s a).working).map (·.rawPayload))
  | .error _ => none

/-- The ingestion of the record returns a row. -/
theorem lateIngestion_returns : ∃ offerRow created s',
    lateIngestion = .ok (some (offerRow, created), s') := by
  have hreturns : (lateIngestion.toOption.bind (·.1)).isSome = true := by decide +kernel
  cases hlate : lateIngestion with
  | error raised =>
      rw [hlate] at hreturns
      cases hreturns
  | ok r =>
      obtain ⟨outcome, s'⟩ := r
      rw [hlate] at hreturns
      obtain ⟨stored, rfl⟩ := Option.isSome_iff_exists.mp hreturns
      exact ⟨stored.1, stored.2, s', rfl⟩

theorem retry_stores_lateIngestion_iff_dated : ∃ offer offerRow created s',
    lateIngestion = .ok (some (offerRow, created), s') ∧
      ((∃ t s'', lateRetry = .ok (true, t, s'') ∧
        flatJsonb.offers s''.working = flatJsonb.offers s'.working) ↔
        Takes rangeRetryEnv.toIngestEnv offer (flatJsonb.read datedFields) {} ∧
          (Represented rangeRetryEnv.text offer [] ∨
            flatJsonb.read datedFields = flatJsonb.read datedRecord)) := by
  have hlax : Offer.modelValidate rangeRetryEnv.pydantic datedFields =
      Offer.modelValidate rangeRetryEnv.pydantic (flatJsonb.read datedFields) := by
    decide +kernel
  obtain ⟨offer, haccepted⟩ : ∃ offer, Offer.modelValidate rangeRetryEnv.pydantic
      (flatJsonb.read datedFields) = some offer :=
    Option.isSome_iff_exists.mp (by decide +kernel)
  obtain ⟨offerRow, created, s', hingest⟩ := lateIngestion_returns
  exact ⟨offer, offerRow, created, s', hingest,
    retry_stores_lateIngestion_iff rfl datedRow_recorded rfl hlax haccepted hingest⟩

/-- The retry stores the mapped fields as the payload of the offer. -/
theorem retry_loses_record :
    RecordedInvalid acmeEnv datedFields (.opened {}) datedRow ∧
      (Offer.modelValidate rangeRetryEnv.pydantic (flatJsonb.read datedFields)).isSome = true ∧
      payloadsAfter (·.2) lateIngestion = some [flatJsonb.read datedRecord] ∧
      payloadsAfter (·.2.2) lateRetry = some [flatJsonb.read datedFields] ∧
      flatJsonb.read datedFields ≠ flatJsonb.read datedRecord := by
  refine ⟨datedRow_recorded, ?_, ?_, ?_, ?_⟩
  · decide +kernel
  · decide +kernel
  · decide +kernel
  · decide +kernel

end RecruFlow.Dlq
