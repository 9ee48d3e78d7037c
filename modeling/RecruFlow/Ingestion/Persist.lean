import RecruFlow.Dlq.Service
import RecruFlow.Ingestion.Dedup

/-!
# Validating and storing one offer

An offer that is not valid is recorded as a failure and skipped. A valid one is
stored unless an offer with the same content, or with the same hash, is there.
-/

namespace RecruFlow.Ingestion

open Db Dlq Schemas Lib.Transaction

/-- What surrounds the statements of a run. -/
structure IngestEnv where
  pydantic : Pydantic
  /-- `str(exc)` of the `ValidationError` for a dictionary. -/
  validationError : Dict → String
  text : TextTools
  postgres : Postgres
  /-- The start of the transaction, which new rows carry. -/
  startedAt : Int

variable (env : IngestEnv)

def validationFailureDedupKey (raw : Dict) : Except PyError String :=
  let canonicalUrl := raw.getD "canonical_url" .none
  if canonicalUrl.truthy then
    match canonicalUrl with
    | .str url => do
        let normalized ← normalizeCanonicalUrl env.text url
        pure ("validation:" ++ normalized)
    | _ => .error .attributeError
  else
    let part (name : String) (default : PyValue) : String :=
      env.text.str (raw.getD name default)
    pure ("validation:" ++ part "source_id" .none ++ ":" ++ part "title" (.str "") ++ ":" ++
      part "company" (.str ""))

def validationFields (raw : Dict) (dedupKey : String) (sourceId : Int) : IngestionFields where
  dedupKey := dedupKey
  failureType := .validationFailed
  sourceId := sourceId
  errorMessage := env.validationError raw
  rawPayload := some (some raw)

/-- The `record_failure` of an offer that is not valid. The key and the source
id are evaluated before its `try`. -/
def recordInvalid (raw : Dict) (s : Session) :
    Except Raised Session := do
  let dedupKey ← s.lift (validationFailureDedupKey env raw)
  match raw.get "source_id" with
  | none => .error (.keyError, s)
  | some (.int sourceId) =>
      pure (recordFailure env.postgres env.startedAt (validationFields env raw dedupKey sourceId) s)
  -- a value of another type is not sent
  | some _ => pure s

def normalizeAndValidate (raw : Dict) (s : Session) :
    Except Raised (Option Offer × Session) :=
  match Offer.modelValidate env.pydantic raw with
  | some offer => pure (some offer, s)
  | none => do
      let s ← recordInvalid env raw s
      pure (none, s)

/-- The `WHERE` clause of `_find_content_duplicate`. -/
def sameContent (offer : Offer) (row : OfferRow) : Prop :=
  row.offer.company = offer.company ∧ row.offer.title = offer.title ∧
    row.offer.salaryMin = offer.salaryMin ∧ row.offer.salaryMax = offer.salaryMax ∧
    row.offer.salaryCurrency = offer.salaryCurrency

instance (offer : Offer) (row : OfferRow) : Decidable (sameContent offer row) :=
  inferInstanceAs (Decidable (_ ∧ _))

def findContentDuplicate (offer : Offer) (db : Database) : Option OfferRow :=
  db.offers.find? (sameContent offer ·)

/-- The columns that are not in the statement have their defaults. -/
def newOfferRow (offer : Offer) (rawPayload : Dict) (dedupHash : String) (db : Database) :
    OfferRow where
  id := db.nextOfferId
  dedupHash := dedupHash
  offer := offer
  rawPayload := rawPayload
  createdAt := env.startedAt

/-- `INSERT ... ON CONFLICT (dedup_hash) DO NOTHING RETURNING id`, as whether a
row came back. The gap that a conflict leaves in the sequence is not kept. -/
def insertOffer (offer : Offer) (rawPayload : Dict) (dedupHash : String) (db : Database) :
    Attempt (Bool × Database) :=
  let row := newOfferRow env offer rawPayload dedupHash db
  (env.postgres.offer row db).insert <|
    if db.offers.any (·.dedupHash = dedupHash) then (false, db)
    else (true, { db with offers := db.offers ++ [row], nextOfferId := db.nextOfferId + 1 })

def persistOffer (offer : Offer) (rawPayload : Dict) (s : Session) :
    Except Raised ((OfferRow × Bool) × Session) := do
  match ← s.select (findContentDuplicate offer) with
  | some contentDuplicate => pure ((contentDuplicate, false), s)
  | none =>
      let dedupHash ← s.lift (computeDedupHash env.text offer)
      let (created, s) ← s.execute (insertOffer env offer rawPayload dedupHash)
      match ← s.select fun db => db.offers.find? (·.dedupHash = dedupHash) with
      | some row => pure ((row, created), s)
      | none => .error (.assertionError, s)

def ingestOffer (mappedFields rawPayload : Dict) (s : Session) :
    Except Raised (Option (OfferRow × Bool) × Session) := do
  match ← normalizeAndValidate env mappedFields s with
  | (none, s) => pure (none, s)
  | (some offer, s) => do
      let (result, s) ← persistOffer env offer rawPayload s
      pure (some result, s)

variable {env} {offer : Offer} {rawPayload : Dict}

/-- What an `INSERT` that goes through does. -/
theorem insertOffer_done {dedupHash : String} {created : Bool} {db db' : Database}
    (h : insertOffer env offer rawPayload dedupHash db = .done (created, db')) :
    if db.offers.any (·.dedupHash = dedupHash) then created = false ∧ db' = db
    else created = true ∧ db' =
      { db with
        offers := db.offers ++ [newOfferRow env offer rawPayload dedupHash db]
        nextOfferId := db.nextOfferId + 1 } := by
  simp only [insertOffer] at h
  cases hverdict : env.postgres.offer (newOfferRow env offer rawPayload dedupHash db) db with
  | taken =>
      rw [hverdict] at h
      have hdone := Attempt.done.inj h
      split at hdone
      · next hany =>
        rw [if_pos hany]
        exact ⟨(Prod.mk.inj hdone).1.symm, (Prod.mk.inj hdone).2.symm⟩
      · next hany =>
        rw [if_neg hany]
        exact ⟨(Prod.mk.inj hdone).1.symm, (Prod.mk.inj hdone).2.symm⟩
  | unsent =>
      rw [hverdict] at h
      cases h
  | rejected =>
      rw [hverdict] at h
      cases h

/-- After the `INSERT` a row with the hash is there, the new one or another. -/
theorem insertOffer_find {dedupHash : String} {created : Bool} {db db' : Database}
    (h : insertOffer env offer rawPayload dedupHash db = .done (created, db')) :
    ∃ row, db'.offers.find? (·.dedupHash = dedupHash) = some row := by
  apply Option.isSome_iff_exists.mp
  rw [List.find?_isSome]
  have hdone := insertOffer_done h
  split at hdone
  · next hany =>
    rw [hdone.2]
    exact List.any_eq_true.mp hany
  · rw [hdone.2]
    exact ⟨_, List.mem_append_right _ (List.mem_singleton_self _), decide_eq_true rfl⟩

theorem insertOffer_failures {dedupHash : String} {created : Bool} {db db' : Database}
    (h : insertOffer env offer rawPayload dedupHash db = .done (created, db')) :
    db'.ingestionFailures = db.ingestionFailures := by
  have hdone := insertOffer_done h
  split at hdone
  · rw [hdone.2]
  · rw [hdone.2]

/-- In a good transaction, storing an offer goes through, or raises and leaves
the rows alone; it goes on in the same way whatever is committed. -/
theorem persistOffer_cases (w : Database) :
    (∃ result w', w'.ingestionFailures = w.ingestionFailures ∧
      ∀ base, persistOffer env offer rawPayload ⟨base, w, false⟩ =
        .ok (result, ⟨base, w', false⟩)) ∨
    ∃ e aborted, ∀ base, persistOffer env offer rawPayload ⟨base, w, false⟩ =
      .error (e, ⟨base, w, aborted⟩) := by
  cases hduplicate : findContentDuplicate offer w with
  | some row =>
      refine .inl ⟨(row, false), w, rfl, fun base => ?_⟩
      simp [persistOffer, Session.select, hduplicate, bind, Except.bind, pure, Except.pure]
  | none =>
      cases hhash : computeDedupHash env.text offer with
      | error e =>
          refine .inr ⟨e, false, fun base => ?_⟩
          simp [persistOffer, Session.select, Session.lift, Except.mapError, hduplicate, hhash,
            bind, Except.bind]
      | ok dedupHash =>
          cases hinsert : insertOffer env offer rawPayload dedupHash w with
          | done r =>
              obtain ⟨created, w'⟩ := r
              obtain ⟨row, hrow⟩ := insertOffer_find hinsert
              refine .inl ⟨(row, created), w', insertOffer_failures hinsert, fun base => ?_⟩
              simp [persistOffer, Session.select, Session.lift, Session.execute, Except.mapError,
                hduplicate, hhash, hinsert, hrow, bind, Except.bind, pure, Except.pure]
          | unsent =>
              refine .inr ⟨.database, false, fun base => ?_⟩
              simp [persistOffer, Session.select, Session.lift, Session.execute, Except.mapError,
                hduplicate, hhash, hinsert, bind, Except.bind]
          | rejected =>
              refine .inr ⟨.database, true, fun base => ?_⟩
              simp [persistOffer, Session.select, Session.lift, Session.execute, Except.mapError,
                hduplicate, hhash, hinsert, bind, Except.bind]

/-- A valid record is stored. -/
theorem ingestOffer_valid {mapped : Dict} {s : Session}
    (hvalid : Offer.modelValidate env.pydantic mapped = some offer) :
    ingestOffer env mapped rawPayload s =
      (persistOffer env offer rawPayload s).bind fun r => .ok (some r.1, r.2) := by
  rw [ingestOffer, normalizeAndValidate, hvalid]
  rfl

/-- An invalid one goes to the failures. -/
theorem ingestOffer_invalid {mapped : Dict} {s : Session}
    (hinvalid : Offer.modelValidate env.pydantic mapped = none) :
    ingestOffer env mapped rawPayload s =
      (recordInvalid env mapped s).bind fun s' => .ok (none, s') := by
  rw [ingestOffer, normalizeAndValidate, hinvalid]
  dsimp only
  cases recordInvalid env mapped s with
  | error raised => rfl
  | ok s' => rfl

/-! ## Offers of one company, for concrete runs -/

/-- SHA-256 on the fallback keys of these offers. -/
def acmeHashes : List (String × String) :=
  [
    ("a|acme|", "45bea61968abc70597864c25a863e19aa7e03888dca7e43ff6461bb1de0bcef6"),
    ("b|acme|", "adb1e0d2f8dbbadb73107b0729c50cbe18b49c83be25a84184052273ef43e6b6"),
    ("c|acme|", "ef28a44c303b5f80abae63f255df555386342c9d0157a0c49e6c1654cded7575"),
    ("d|acme|", "de60ad91aa01cf17752e42d067f932f6a69b0198020c7ab1703d5914a9d2b71e"),
    ("e|acme|", "bd79f4532d52f53d88af2ac2686f7acab1f09896fc37a48c1df8aca075b8a86c"),
    ("f|acme|", "a285befe704206834cb9618fa7fc649fa06607e9436e7f5926c6f047afb69fd8")
  ]

def acmeEnv : IngestEnv where
  pydantic :=
    { int := fun | .int i => some i | _ => none
      bool := fun | .bool b => some b | _ => none
      datetime := fun | .datetime d => some d | _ => none
      trim := Python.strip }
  validationError := fun _ => "Field required"
  text :=
    { lower := id
      urlsplit := fun url => .ok ⟨"", "", url⟩
      urlunsplit := (·.path)
      sha256 := fun key => (acmeHashes.lookup key).getD key
      str := fun
        | .str s => s
        | .int i => toString i
        | _ => ""
      repr := fun s => "'" ++ s ++ "'" }
  postgres :=
    { offer := fun _ _ => .taken
      matchScore := fun _ _ => .taken
      ingestionFailure := fun _ _ => .taken
      scoringFailure := fun _ _ => .taken }
  startedAt := 0

/-- A mapped offer with no url. -/
def acmeFields (title : String) : Dict :=
  ⟨[("source_id", .int 1), ("title", .str title), ("company", .str "acme")]⟩

def acmeOffer (title : String) (h : OfferFields.Valid
    { sourceId := 1, title, company := "acme" } := by decide) : Offer :=
  { sourceId := 1, title, company := "acme", valid := h }

def firstOffer : Offer := acmeOffer "a"

example : Offer.modelValidate acmeEnv.pydantic (acmeFields "a") = some firstOffer := by
  decide

end RecruFlow.Ingestion
