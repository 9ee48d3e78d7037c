import RecruFlow.Db.Session

/-!
# What the columns of the tables take

The driver encodes `integer` and `jsonb` parameters before anything is sent. The
server rejects a text with a NUL character, a JSON number that is not finite, and
a foreign key that names no row.
-/

namespace RecruFlow

namespace PyValue

mutual

/-- Every key and every value without parts of its own, in a value. -/
def allParts (key : String → Bool) (leaf : PyValue → Bool) : PyValue → Bool
  | list xs => allPartsList key leaf xs
  | dict kvs => allPartsDict key leaf kvs
  | v => leaf v

def allPartsList (key : String → Bool) (leaf : PyValue → Bool) : List PyValue → Bool
  | [] => true
  | x :: xs => allParts key leaf x && allPartsList key leaf xs

def allPartsDict (key : String → Bool) (leaf : PyValue → Bool) : List (String × PyValue) → Bool
  | [] => true
  | (k, v) :: kvs => key k && allParts key leaf v && allPartsDict key leaf kvs

end

end PyValue

namespace Db

open Schemas

/-- `text` and `varchar` columns. -/
def textFits (s : String) : Bool :=
  s.toList.all (· ≠ Char.ofNat 0)

/-- `integer` columns. -/
def int4Fits (i : Int) : Bool :=
  -2147483648 ≤ i && i ≤ 2147483647

/-- `json.dumps` knows the type of every part. -/
def jsonEncodable (payload : Dict) : Bool :=
  (PyValue.dict payload.items).allParts (fun _ => true) fun
    | .datetime _ => false
    | _ => true

/-- `jsonb` takes the text that `json.dumps` makes. -/
def jsonbFits (payload : Dict) : Bool :=
  (PyValue.dict payload.items).allParts textFits fun
    | .str s => textFits s
    | .float (.finite _) => true
    | .float _ => false
    | _ => true

def encoded (encodable stored : Bool) : Verdict :=
  if !encodable then .unsent else if stored then .taken else .rejected

/-- The driver can encode the values of an offer and its raw record. It converts a date to
UTC, where the year may be one that `datetime` does not have. -/
def offerEncodable (offer : Offer) (rawPayload : Dict) : Bool :=
  offer.salaryMin.all (int4Fits ·) && offer.salaryMax.all (int4Fits ·) &&
    offer.postedAt.all (DateTime.inYears ·.micros) && jsonEncodable rawPayload

/-- The server takes them. The texts have been validated against the lengths of
the columns. -/
def offerStorable (offer : Offer) (rawPayload : Dict) : Bool :=
  let texts := [offer.externalId, offer.canonicalUrl, some offer.title, some offer.company,
    offer.location, offer.seniority, some offer.salaryCurrency, offer.contractType,
    offer.description]
  texts.all (·.all textFits) && offer.industryTags.all textFits && jsonbFits rawPayload

/-- The source is looked up for a row that is inserted only. -/
def offerVerdict (row : OfferRow) (db : Database) : Verdict :=
  encoded
    (int4Fits row.offer.sourceId && offerEncodable row.offer row.rawPayload)
    (offerStorable row.offer row.rawPayload && textFits row.dedupHash &&
      row.dedupHash.length ≤ 64 &&
      (db.offers.any (·.dedupHash = row.dedupHash) || db.sources.any (·.id = row.offer.sourceId)))

/-- The verdict on an ingestion failure, but for the length of its key. -/
def ingestionFailureVerdict (row : IngestionFailure) (db : Database) : Verdict :=
  encoded
    (int4Fits row.sourceId && row.page.all (int4Fits ·) && row.blockedStatus.all (int4Fits ·) &&
      row.rawPayload.all jsonEncodable)
    (textFits row.dedupKey && textFits row.errorMessage && row.url.all textFits &&
      row.rawPayload.all jsonbFits && db.sources.any (fun source => (source.id : Int) = row.sourceId) &&
      row.schedulerRunId.all fun id => db.schedulerRuns.any (·.id = id))

/-- The verdict on a row of `scheduler_runs`, inserted or updated. -/
def schedulerRunVerdict (run : SchedulerRun) (db : Database) : Verdict :=
  encoded
    (int4Fits run.sourceId && run.fetchedCount.all (int4Fits ·) && run.createdCount.all (int4Fits ·))
    (textFits run.triggerType && run.triggerType.length ≤ 20 && run.errorMessage.all textFits &&
      db.sources.any (·.id = run.sourceId))

theorem encoded_taken_iff {encodable stored : Bool} :
    encoded encodable stored = .taken ↔ encodable = true ∧ stored = true := by
  cases encodable <;> cases stored <;> decide

end Db

end RecruFlow
