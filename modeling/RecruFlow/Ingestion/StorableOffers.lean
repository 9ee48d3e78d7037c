import Mathlib.Data.List.ReduceOption
import RecruFlow.Ingestion.RecordFate

/-!
# Which validated offers the table takes

The schema bounds the lengths of the texts as the columns do, so that no length
is left for the database to reject. It says nothing of the range of an `integer`
column, of the dates that UTC has no year for, and of NUL characters.
-/

namespace RecruFlow.Ingestion

open Db Schemas

/-- A column of type `varchar`. -/
def varcharFits (bound : Nat) (s : Option String) : Bool :=
  s.all fun s => textFits s && s.length ≤ bound

/-- The verdict of the columns of `offers`, one after another. -/
def offerTableVerdict (row : OfferRow) (db : Database) : Verdict :=
  let offer := row.offer
  encoded
    (int4Fits offer.sourceId && offer.salaryMin.all (int4Fits ·) &&
      offer.salaryMax.all (int4Fits ·) && offer.postedAt.all (DateTime.inYears ·.micros) &&
      jsonEncodable row.rawPayload)
    (varcharFits 255 offer.externalId && offer.canonicalUrl.all textFits &&
      varcharFits 64 (some row.dedupHash) && varcharFits 500 (some offer.title) &&
      varcharFits 255 (some offer.company) && offer.location.all textFits &&
      varcharFits 50 offer.seniority && varcharFits 3 (some offer.salaryCurrency) &&
      varcharFits 50 offer.contractType && offer.description.all textFits &&
      offer.industryTags.all textFits && jsonbFits row.rawPayload &&
      (db.offers.any (·.dedupHash = row.dedupHash) || db.sources.any (·.id = offer.sourceId)))

/-- All texts of an offer. -/
def offerTexts (offer : Offer) : List String :=
  [offer.externalId, offer.canonicalUrl, some offer.title, some offer.company, offer.location,
    offer.seniority, some offer.salaryCurrency, offer.contractType,
    offer.description].reduceOption ++ offer.industryTags

/-- What the schema leaves to the database. -/
structure ColumnsTake (offer : Offer) (rawPayload : Dict) (dedupHash : String) (db : Database) :
    Prop where
  salaryMin_le : ∀ salary ∈ offer.salaryMin, salary ≤ 2147483647
  salaryMax_le : ∀ salary ∈ offer.salaryMax, salary ≤ 2147483647
  sourceId_le : offer.sourceId ≤ 2147483647
  postedAt_inYears : ∀ date ∈ offer.postedAt, DateTime.inYears date.micros = true
  texts_fit : ∀ s ∈ offerTexts offer, textFits s = true
  payload_fits : jsonbFits rawPayload = true
  source_stored : (∃ row ∈ db.offers, row.dedupHash = dedupHash) ∨
    ∃ source ∈ db.sources, source.id = offer.sourceId

variable {env : IngestEnv} {offer : Offer} {rawPayload : Dict} {dedupHash : String}
  {db : Database}

/-- A text that has been validated against the length of its column. -/
theorem varcharFits_eq {bound : Nat} {s : Option String} (h : fits bound s) :
    varcharFits bound s = s.all textFits := by
  cases s with
  | none => rfl
  | some s =>
    have hlength : s.length ≤ bound := by simpa [fits] using h
    simp [varcharFits, hlength]

/-- The columns take the lengths that the schema lets through. -/
theorem offerTableVerdict_eq : offerTableVerdict = offerVerdict := by
  funext row db
  have hvalid := row.offer.valid
  have htitle : fits 500 (some row.offer.title) := by simpa [fits] using hvalid.title_length.2
  have hcompany : fits 255 (some row.offer.company) := by
    simpa [fits] using hvalid.company_length.2
  have hcurrency : fits 3 (some row.offer.salaryCurrency) := by
    simp [fits, hvalid.salaryCurrency_length]
  simp only [offerTableVerdict, offerVerdict, offerEncodable, offerStorable,
    varcharFits_eq hvalid.externalId_fits, varcharFits_eq htitle, varcharFits_eq hcompany,
    varcharFits_eq hvalid.seniority_fits, varcharFits_eq hcurrency,
    varcharFits_eq hvalid.contractType_fits]
  congr 1
  · ac_rfl
  · simp only [varcharFits, List.all_cons, List.all_nil, Option.all_some, Bool.and_true]
    ac_rfl

theorem offerStorable_iff :
    offerStorable offer rawPayload = true ↔
      (∀ s ∈ offerTexts offer, textFits s = true) ∧ jsonbFits rawPayload = true := by
  have htexts : ∀ texts : List (Option String),
      texts.all (·.all textFits) = true ↔ ∀ s ∈ texts.reduceOption, textFits s = true := by
    intro texts
    simp only [List.all_eq_true, List.reduceOption_mem_iff]
    constructor
    · intro h s hs
      simpa using h (some s) hs
    · intro h text htext
      cases text with
      | none => rfl
      | some s => simpa using h s htext
  rw [offerStorable, Bool.and_eq_true, Bool.and_eq_true, htexts, List.all_eq_true, offerTexts]
  simp only [List.mem_append, or_imp, forall_and]

theorem offerEncodable_iff (hjson : jsonEncodable rawPayload = true) :
    offerEncodable offer rawPayload = true ↔
      (∀ salary ∈ offer.salaryMin, salary ≤ 2147483647) ∧
        (∀ salary ∈ offer.salaryMax, salary ≤ 2147483647) ∧
          ∀ date ∈ offer.postedAt, DateTime.inYears date.micros = true := by
  have hsalary : ∀ salary : Option Nat,
      salary.all (int4Fits ·) = true ↔ ∀ n ∈ salary, n ≤ 2147483647 := by
    intro salary
    cases salary with
    | none => simp
    | some n => simp [int4Fits]
  simp only [offerEncodable, Bool.and_eq_true, hsalary, hjson, and_true, and_assoc,
    Option.all_eq_true, Option.mem_def]

/-- The INSERT of an accepted offer with its raw record goes through exactly when the values
that the schema leaves unchecked fit their columns. -/
theorem insertOffer_accepted_iff (hpostgres : env.postgres.offer = offerTableVerdict)
    (hsha : ∀ key, textFits (env.text.sha256 key) = true ∧ (env.text.sha256 key).length ≤ 64)
    (hjson : jsonEncodable rawPayload = true)
    (hhash : computeDedupHash env.text offer = .ok dedupHash) (db : Database) :
    (∃ done, insertOffer env offer rawPayload dedupHash db = .done done) ↔
      ColumnsTake offer rawPayload dedupHash db := by
  obtain ⟨key, hkey⟩ := computeDedupHash_digest hhash
  obtain ⟨hfits, hlength⟩ := hsha key
  rw [← hkey] at hfits hlength
  have hid : int4Fits offer.sourceId = true ↔ offer.sourceId ≤ 2147483647 := by
    simp only [int4Fits, Bool.and_eq_true, decide_eq_true_eq]
    omega
  rw [insertOffer_done_iff, hpostgres, offerTableVerdict_eq, offerVerdict, encoded_taken_iff]
  simp only [Bool.and_eq_true, Bool.or_eq_true, List.any_eq_true, decide_eq_true_eq]
  simp only [newOfferRow, hid, offerEncodable_iff hjson, offerStorable_iff, hfits, hlength,
    and_true]
  constructor
  · rintro ⟨⟨hsource, hmin, hmax, hdate⟩, ⟨htexts, hpayload⟩, hstored⟩
    exact ⟨hmin, hmax, hsource, hdate, htexts, hpayload, hstored⟩
  · intro h
    exact ⟨⟨h.sourceId_le, h.salaryMin_le, h.salaryMax_le, h.postedAt_inYears⟩,
      ⟨h.texts_fit, h.payload_fits⟩, h.source_stored⟩

/-! ## A salary beyond the column -/

def tableEnv : IngestEnv :=
  { columnsEnv with postgres := { columnsEnv.postgres with offer := offerTableVerdict } }

/-- The digest of the joined text of an offer without a url. -/
def firstHash : String :=
  "45bea61968abc70597864c25a863e19aa7e03888dca7e43ff6461bb1de0bcef6"

theorem insertOffer_accepted_first :
    ∃ done, insertOffer tableEnv firstOffer (acmeFields "a") firstHash acmeSourceDb =
      .done done := by
  apply (@insertOffer_accepted_iff tableEnv firstOffer (acmeFields "a") firstHash rfl
    columnsEnv_documented.sha256_fits (by decide) (by decide +kernel) acmeSourceDb).mpr
  exact
    { salaryMin_le := by simp [firstOffer, acmeOffer]
      salaryMax_le := by simp [firstOffer, acmeOffer]
      sourceId_le := by decide
      postedAt_inYears := by simp [firstOffer, acmeOffer]
      texts_fit := by decide
      payload_fits := by decide
      source_stored := .inr ⟨_, List.mem_singleton_self _, rfl⟩ }

/-- A salary that JSON can hold and the column cannot. -/
def hugeSalaryFields : Dict :=
  (acmeFields "a").set "salary_max" (.int 3000000000)

def hugeSalaryOffer : Offer :=
  { sourceId := 1, title := "a", company := "acme", salaryMax := some 3000000000,
    valid := by decide }

/-- The schema accepts the salary, and the driver cannot encode it. -/
theorem huge_salary_unsent :
    Offer.modelValidate tableEnv.pydantic hugeSalaryFields = some hugeSalaryOffer ∧
      insertOffer tableEnv hugeSalaryOffer hugeSalaryFields firstHash acmeSourceDb = .unsent :=
  ⟨by decide, by rfl⟩

end RecruFlow.Ingestion
