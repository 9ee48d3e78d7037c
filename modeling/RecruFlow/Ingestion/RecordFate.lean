import RecruFlow.Db.Columns
import RecruFlow.Ingestion.OfferStore

/-!
# What becomes of a record

A mapped record is stored as an offer, or a failure is recorded for it. Both can
go wrong on the values of the record itself: the hash and the key parse its url
before anything is written, and the failure carries the record as JSON.
-/

namespace RecruFlow.Ingestion

open Db Dlq Schemas Lib.Transaction

/-- The documented behaviour of pydantic, hashlib and the database. -/
structure Documented (env : IngestEnv) : Prop where
  int_int : ∀ i, env.pydantic.int (.int i) = some i
  /-- A digest is 64 hexadecimal digits. -/
  sha256_fits : ∀ key, textFits (env.text.sha256 key) = true ∧ (env.text.sha256 key).length ≤ 64
  /-- A `ValidationError` shows values by their `repr`. -/
  message_fits : ∀ raw, textFits (env.validationError raw) = true
  offer : env.postgres.offer = offerVerdict
  ingestionFailure : env.postgres.ingestionFailure = ingestionFailureVerdict

/-- The record has the id of a source. -/
def HasValidSource (raw : Dict) (db : Database) : Prop :=
  ∃ source ∈ db.sources, 0 < source.id ∧ int4Fits source.id = true ∧
    raw.get "source_id" = some (.int source.id)

/-- The rows obey the unique index and the length of the key column. -/
structure KeysStored (rows : List IngestionFailure) : Prop where
  nodup : (rows.map (·.dedupKey)).Nodup
  length_le : ∀ row ∈ rows, row.dedupKey.length ≤ 255

def isOpenValidationFailure (row : IngestionFailure) : Bool :=
  row.failureType = FailureType.validationFailed.value && row.status = .open

/-- The number of open `VALIDATION_FAILED` rows under a key. -/
def openValidationFailures (dedupKey : String) (db : Database) : Nat :=
  db.ingestionFailures.countP fun row => row.dedupKey = dedupKey && isOpenValidationFailure row

variable (env : IngestEnv)

/-- The store has an offer for the record, or one open failure. -/
def AccountedFor (raw : Dict) (db : Database) : Prop :=
  (∃ offer, Offer.modelValidate env.pydantic raw = some offer ∧
      Represented env.text offer db.offers) ∨
    ∃ dedupKey, validationFailureDedupKey env raw = .ok dedupKey ∧
      openValidationFailures dedupKey db = 1

/-- `ingest_offer` does not raise, and what is committed accounts for the record. -/
def NotLost (raw rawPayload : Dict) (s : Session) : Prop :=
  ∃ result s', ingestOffer env raw rawPayload s = .ok (result, s') ∧
    AccountedFor env raw (commit s')

/-- A valid offer has the content of a stored one, or a url that can be parsed
and values that fit their columns. An invalid record has a key that can be
computed, and it fits its columns, or its failure is open already: where the
driver cannot encode it the transaction goes on, else only what was committed
stays. -/
def Storable (raw rawPayload : Dict) (s : Session) : Prop :=
  match Offer.modelValidate env.pydantic raw with
  | some offer =>
      (∃ row ∈ s.working.offers, sameContent offer row) ∨
        (∃ dedupHash, computeDedupHash env.text offer = .ok dedupHash) ∧
          offerEncodable offer rawPayload = true ∧ offerStorable offer rawPayload = true
  | none =>
      ∃ dedupKey, validationFailureDedupKey env raw = .ok dedupKey ∧
        ((jsonEncodable raw = true ∧ jsonbFits raw = true ∧ textFits dedupKey = true ∧
            dedupKey.length ≤ 255) ∨
          openValidationFailures dedupKey
            (if jsonEncodable raw then s.committed else s.working) = 1)

variable {env} {raw rawPayload : Dict} {s : Session} {offer : Offer}

/-- pydantic keeps the id of the source. -/
theorem modelValidate_sourceId (henv : Documented env) {i : Int} (hi : 0 < i)
    (hsource : raw.get "source_id" = some (.int i))
    (h : Offer.modelValidate env.pydantic raw = some offer) : (offer.sourceId : Int) = i := by
  have hid := Offer.modelValidate_sourceId h
  rw [hsource, Option.bind_eq_bind, Option.bind_some, Pydantic.nonneg, henv.int_int] at hid
  simp only [Option.bind_eq_bind, Option.bind_some, if_pos (Int.le_of_lt hi)] at hid
  have := Option.some.inj hid
  omega

/-- The database takes the row of an offer exactly when its values fit. -/
theorem offer_taken_iff (henv : Documented env) (hsource : HasValidSource raw s.working)
    (hvalid : Offer.modelValidate env.pydantic raw = some offer) {key : String} :
    env.postgres.offer (newOfferRow env offer rawPayload (env.text.sha256 key) s.working) s.working =
        .taken ↔
      offerEncodable offer rawPayload = true ∧ offerStorable offer rawPayload = true := by
  obtain ⟨source, hmem, hpos, hint4, hget⟩ := hsource
  have hid : (offer.sourceId : Int) = source.id :=
    modelValidate_sourceId henv (by exact_mod_cast hpos) hget hvalid
  have hfits : int4Fits offer.sourceId = true := by rw [hid, hint4]
  have hexists : s.working.sources.any (·.id = offer.sourceId) = true :=
    List.any_eq_true.mpr ⟨source, hmem, by simpa using (Int.ofNat.inj hid).symm⟩
  obtain ⟨hhash, hlength⟩ := henv.sha256_fits key
  simp [henv.offer, offerVerdict, newOfferRow, encoded_taken_iff, hfits, hexists, hhash, hlength]

/-- The hash is a digest. -/
theorem computeDedupHash_digest {dedupHash : String}
    (h : computeDedupHash env.text offer = .ok dedupHash) :
    ∃ key, dedupHash = env.text.sha256 key := by
  unfold computeDedupHash at h
  split at h
  · exact ⟨_, (Except.ok.inj h).symm⟩
  · obtain ⟨normalized, _, h⟩ := bind_ok h
    obtain ⟨comparable, _, h⟩ := bind_ok h
    split at h
    · exact ⟨_, (Except.ok.inj h).symm⟩
    · exact ⟨_, (Except.ok.inj h).symm⟩

theorem findContentDuplicate_isSome {db : Database} :
    (∃ row, findContentDuplicate offer db = some row) ↔ ∃ row ∈ db.offers, sameContent offer row := by
  rw [← Option.isSome_iff_exists, findContentDuplicate, List.find?_isSome]
  simp

theorem insertOffer_done_iff {dedupHash : String} {db : Database} :
    (∃ done, insertOffer env offer rawPayload dedupHash db = .done done) ↔
      env.postgres.offer (newOfferRow env offer rawPayload dedupHash db) db = .taken :=
  Verdict.insert_done_iff

theorem persistOffer_returns_iff (hgood : s.aborted = false) :
    (∃ result s', persistOffer env offer rawPayload s = .ok (result, s')) ↔
      (∃ row ∈ s.working.offers, sameContent offer row) ∨
        ∃ dedupHash, computeDedupHash env.text offer = .ok dedupHash ∧
          env.postgres.offer (newOfferRow env offer rawPayload dedupHash s.working) s.working =
            .taken := by
  obtain ⟨base, w, aborted⟩ := s
  obtain rfl : aborted = false := hgood
  rw [← findContentDuplicate_isSome]
  cases hduplicate : findContentDuplicate offer w with
  | some row =>
      simp [persistOffer, Session.select, hduplicate, bind, Except.bind, pure, Except.pure]
  | none =>
      cases hhash : computeDedupHash env.text offer with
      | error e =>
          simp [persistOffer, Session.select, Session.lift, Except.mapError, hduplicate, hhash,
            bind, Except.bind]
      | ok dedupHash =>
          have hdone := @insertOffer_done_iff env rawPayload offer dedupHash w
          cases hinsert : insertOffer env offer rawPayload dedupHash w with
          | done r =>
              obtain ⟨created, w'⟩ := r
              obtain ⟨row, hrow⟩ := insertOffer_find hinsert
              have htaken := hdone.mp ⟨_, hinsert⟩
              simp [persistOffer, Session.select, Session.lift, Session.execute, Except.mapError,
                hduplicate, hhash, hinsert, hrow, htaken, bind, Except.bind, pure, Except.pure]
          | unsent =>
              have htaken := mt hdone.mpr (by simp [hinsert])
              simp [persistOffer, Session.select, Session.lift, Session.execute, Except.mapError,
                hduplicate, hhash, hinsert, htaken, bind, Except.bind]
          | rejected =>
              have htaken := mt hdone.mpr (by simp [hinsert])
              simp [persistOffer, Session.select, Session.lift, Session.execute, Except.mapError,
                hduplicate, hhash, hinsert, htaken, bind, Except.bind]

/-- A valid record is not lost exactly when its offer has the content of a stored
one, or can be hashed and fits. -/
theorem notLost_valid_iff (henv : Documented env) (hsource : HasValidSource raw s.working)
    (hvalid : Offer.modelValidate env.pydantic raw = some offer) (hgood : s.aborted = false) :
    NotLost env raw rawPayload s ↔
      (∃ row ∈ s.working.offers, sameContent offer row) ∨
        (∃ dedupHash, computeDedupHash env.text offer = .ok dedupHash) ∧
          offerEncodable offer rawPayload = true ∧ offerStorable offer rawPayload = true := by
  have hreturns : NotLost env raw rawPayload s ↔
      ∃ result s', persistOffer env offer rawPayload s = .ok (result, s') := by
    rw [NotLost, ingestOffer_valid hvalid]
    constructor
    · rintro ⟨result, s', h, _⟩
      obtain ⟨⟨result', s₁⟩, hpersist, _⟩ := bind_ok h
      exact ⟨result', s₁, hpersist⟩
    · rintro ⟨result, s', h⟩
      refine ⟨some result, s', by rw [h]; rfl, .inl ⟨offer, hvalid, ?_⟩⟩
      rw [commit, persistOffer_good hgood h]
      exact (persistOffer_ok h).represented
  rw [hreturns, persistOffer_returns_iff hgood]
  refine or_congr_right ⟨?_, ?_⟩
  · rintro ⟨dedupHash, hhash, htaken⟩
    obtain ⟨key, rfl⟩ := computeDedupHash_digest hhash
    exact ⟨⟨_, hhash⟩, (offer_taken_iff henv hsource hvalid).mp htaken⟩
  · rintro ⟨⟨dedupHash, hhash⟩, hfits⟩
    obtain ⟨key, rfl⟩ := computeDedupHash_digest hhash
    exact ⟨_, hhash, (offer_taken_iff henv hsource hvalid).mpr hfits⟩

theorem openValidationFailures_of_long {dedupKey : String} {db : Database}
    (hrows : ∀ row ∈ db.ingestionFailures, row.dedupKey.length ≤ 255)
    (hlong : 255 < dedupKey.length) : openValidationFailures dedupKey db = 0 := by
  refine List.countP_eq_zero.mpr fun row hrow hcount => ?_
  have hkey : row.dedupKey = dedupKey := of_decide_eq_true (Bool.and_eq_true_iff.mp hcount).1
  have := hrows row hrow
  rw [hkey] at this
  omega

/-- A recorded failure is the one open row of its record, unless its key was cut. -/
theorem openValidationFailures_recorded {dedupKey key : String} {sourceId : Int} {db : Database}
    (hrows : KeysStored db.ingestionFailures) (hkey : storedKey dedupKey = some key) :
    openValidationFailures dedupKey (recordIngestionFailure env.startedAt
        { validationFields env raw dedupKey sourceId with dedupKey := key } db) =
      if dedupKey.length ≤ 255 then 1 else 0 := by
  split
  · next hlength =>
    obtain rfl := Option.some.inj ((storedKey_of_length_le hlength).symm.trans hkey)
    let fields := validationFields env raw dedupKey sourceId
    exact @upsert_countP IngestionFailure (·.dedupKey) (fields.new env.startedAt)
      (fields.update env.startedAt) db.ingestionFailures isOpenValidationFailure
      (fun _ => rfl) hrows.nodup (by rfl) (fun _ _ => by rfl)
  · next hlong =>
    refine openValidationFailures_of_long (fun row hrow => ?_) (Nat.lt_of_not_le hlong)
    rcases upsert_mem_cases hrow with hold | rfl | ⟨old, hold, _, rfl⟩
    · exact hrows.length_le row hold
    · exact storedKey_length_le hkey
    · exact hrows.length_le old hold

/-- What the database makes of the failure of a record. -/
theorem validation_verdict (henv : Documented env) {dedupKey : String} {db : Database}
    {source : Source} (hsource : source ∈ db.sources) (hint4 : int4Fits source.id = true) :
    env.postgres.ingestionFailure
        ((validationFields env raw dedupKey source.id).new env.startedAt) db =
      encoded (jsonEncodable raw) (textFits dedupKey && jsonbFits raw) := by
  have hexists : db.sources.any (fun row => row.id = source.id) = true :=
    List.any_eq_true.mpr ⟨source, hsource, decide_eq_true rfl⟩
  simp [henv.ingestionFailure, ingestionFailureVerdict, IngestionFields.new, validationFields,
    henv.message_fits, hint4, hexists]

/-- The statement that records the failure. -/
theorem validation_statement {dedupKey : String} {sourceId : Int} {db : Database}
    (hverdict : env.postgres.ingestionFailure
        ((validationFields env raw dedupKey sourceId).new env.startedAt) db =
      encoded (jsonEncodable raw) (textFits dedupKey && jsonbFits raw)) :
    insertIngestionFailure env.postgres env.startedAt (validationFields env raw dedupKey sourceId)
        db =
      if jsonEncodable raw then
        match if textFits dedupKey && jsonbFits raw then storedKey dedupKey else none with
        | some key => .done (recordIngestionFailure env.startedAt
            { validationFields env raw dedupKey sourceId with dedupKey := key } db)
        | none => .rejected
      else .unsent := by
  have hfieldsKey : (validationFields env raw dedupKey sourceId).dedupKey = dedupKey := rfl
  simp only [insertIngestionFailure, insertFailure, hverdict, hfieldsKey]
  cases jsonEncodable raw with
  | false => rfl
  | true =>
      cases textFits dedupKey && jsonbFits raw with
      | false => rfl
      | true => cases storedKey dedupKey <;> rfl

/-- What is committed after the failure of a record was recorded has one open row
for it exactly when the failure fits, or a row was there that stays. -/
theorem committed_failure_iff {dedupKey : String} {sourceId : Int}
    (hverdict : env.postgres.ingestionFailure
        ((validationFields env raw dedupKey sourceId).new env.startedAt) s.working =
      encoded (jsonEncodable raw) (textFits dedupKey && jsonbFits raw))
    (hgood : s.aborted = false) (hworking : KeysStored s.working.ingestionFailures)
    (hcommitted : KeysStored s.committed.ingestionFailures) :
    openValidationFailures dedupKey (commit (recordFailure env.postgres env.startedAt
        (validationFields env raw dedupKey sourceId) s)) = 1 ↔
      (jsonEncodable raw = true ∧ jsonbFits raw = true ∧ textFits dedupKey = true ∧
          dedupKey.length ≤ 255) ∨
        openValidationFailures dedupKey
          (if jsonEncodable raw then s.committed else s.working) = 1 := by
  have hlong : ¬ dedupKey.length ≤ 255 → openValidationFailures dedupKey s.committed = 0 :=
    fun h => openValidationFailures_of_long hcommitted.length_le (Nat.lt_of_not_le h)
  rw [recordFailure, commit_attempt hgood, validation_statement hverdict]
  cases hencodable : jsonEncodable raw with
  | false => simp
  | true =>
      cases hfits : textFits dedupKey && jsonbFits raw with
      | false =>
          have hnot : ¬ (jsonbFits raw = true ∧ textFits dedupKey = true) := by
            rintro ⟨hjsonb, htext⟩
            simp [hjsonb, htext] at hfits
          simp only [if_true, Bool.false_eq_true, if_false]
          tauto
      | true =>
          obtain ⟨htext, hjsonb⟩ := Bool.and_eq_true_iff.mp hfits
          cases hkey : storedKey dedupKey with
          | none =>
              have hlength : ¬ dedupKey.length ≤ 255 := fun h => by
                rw [storedKey_of_length_le h] at hkey
                cases hkey
              simp [hlength, hlong hlength]
          | some key =>
              have hrecorded := @openValidationFailures_recorded env raw dedupKey key sourceId
                s.working hworking hkey
              by_cases hlength : dedupKey.length ≤ 255
              · simp [hrecorded, hlength, htext, hjsonb]
              · simp [hrecorded, hlength, hlong hlength]

/-- An invalid record is not lost exactly when its key can be computed, and it
fits its columns or its failure is open already. -/
theorem notLost_invalid_iff (henv : Documented env) (hsource : HasValidSource raw s.working)
    (hinvalid : Offer.modelValidate env.pydantic raw = none) (hgood : s.aborted = false)
    (hworking : KeysStored s.working.ingestionFailures)
    (hcommitted : KeysStored s.committed.ingestionFailures) :
    NotLost env raw rawPayload s ↔
      ∃ dedupKey, validationFailureDedupKey env raw = .ok dedupKey ∧
        ((jsonEncodable raw = true ∧ jsonbFits raw = true ∧ textFits dedupKey = true ∧
            dedupKey.length ≤ 255) ∨
          openValidationFailures dedupKey
            (if jsonEncodable raw then s.committed else s.working) = 1) := by
  obtain ⟨source, hmem, _, hint4, hget⟩ := hsource
  cases hkey : validationFailureDedupKey env raw with
  | error e =>
      have hraises : ingestOffer env raw rawPayload s = .error (e, s) := by
        rw [ingestOffer_invalid hinvalid]
        simp [recordInvalid, hkey, Session.lift, Except.mapError, bind, Except.bind]
      simp [NotLost, hraises]
  | ok dedupKey =>
      let fields := validationFields env raw dedupKey source.id
      have hreturns : ingestOffer env raw rawPayload s =
          .ok (none, recordFailure env.postgres env.startedAt fields s) := by
        rw [ingestOffer_invalid hinvalid]
        simp [recordInvalid, hkey, hget, Session.lift, Except.mapError, bind, Except.bind, pure,
          Except.pure, fields]
      have hcount : NotLost env raw rawPayload s ↔ openValidationFailures dedupKey
          (commit (recordFailure env.postgres env.startedAt fields s)) = 1 := by
        simp [NotLost, hreturns, AccountedFor, hinvalid, hkey]
      have hverdict := @validation_verdict env raw henv dedupKey s.working source hmem hint4
      rw [hcount]
      simp only [Except.ok.injEq, exists_eq_left']
      exact committed_failure_iff hverdict hgood hworking hcommitted

/-- A record is neither lost nor raises exactly when what the ingestion makes of
it can be stored. -/
theorem record_not_lost_iff (henv : Documented env) (hsource : HasValidSource raw s.working)
    (hgood : s.aborted = false) (hworking : KeysStored s.working.ingestionFailures)
    (hcommitted : KeysStored s.committed.ingestionFailures) :
    NotLost env raw rawPayload s ↔ Storable env raw rawPayload s := by
  rw [Storable]
  cases hmodel : Offer.modelValidate env.pydantic raw with
  | some offer => exact notLost_valid_iff henv hsource hmodel hgood
  | none => exact notLost_invalid_iff henv hsource hmodel hgood hworking hcommitted

/-! ## An empty title -/

/-- Digests of the keys that are hashed here; 64 zeros stand for any other. -/
def columnsEnv : IngestEnv :=
  { acmeEnv with
    text :=
      { acmeEnv.text with
        sha256 := fun key => (acmeHashes.lookup key).getD
          "0000000000000000000000000000000000000000000000000000000000000000" }
    postgres :=
      { acmeEnv.postgres with
        offer := offerVerdict
        ingestionFailure := ingestionFailureVerdict } }

theorem columnsEnv_documented : Documented columnsEnv where
  int_int _ := rfl
  sha256_fits key := by
    change textFits ((acmeHashes.lookup key).getD _) = true ∧ ((acmeHashes.lookup key).getD _).length ≤ 64
    cases hdigest : acmeHashes.lookup key with
    | none => decide +kernel
    | some digest =>
        have hfits : ∀ pair ∈ acmeHashes, textFits pair.2 = true ∧ pair.2.length ≤ 64 := by
          decide +kernel
        obtain ⟨before, after, hsplit, _⟩ := List.lookup_eq_some_iff.mp hdigest
        exact hfits (key, digest) (hsplit ▸ List.mem_append_right _ List.mem_cons_self)
  message_fits _ := show textFits "Field required" = true by decide
  offer := rfl
  ingestionFailure := rfl

def acmeSourceDb : Database :=
  { sources :=
      [{ id := 1, name := "acme", connector := none, configJson := ⟨[]⟩, lastFetchedAt := none }] }

theorem acme_hasValidSource {title : String} :
    HasValidSource (acmeFields title) (Session.opened acmeSourceDb).working :=
  ⟨_, List.mem_singleton_self _, by decide, by decide, rfl⟩

theorem record_not_lost_iff_acme :
    NotLost columnsEnv (acmeFields "a") (acmeFields "a") (.opened acmeSourceDb) := by
  have hrows : KeysStored acmeSourceDb.ingestionFailures :=
    ⟨List.nodup_nil, fun row hrow => absurd hrow List.not_mem_nil⟩
  apply (record_not_lost_iff columnsEnv_documented acme_hasValidSource rfl hrows hrows).mpr
  exact .inr ⟨⟨_, rfl⟩, by decide, by decide⟩

/-- A record without a title, with the instant at which it was posted. -/
def untitledFields : Dict :=
  (acmeFields "").set "posted_at" (.datetime ⟨0, true⟩)

/-- The record is skipped, and its failure cannot be encoded as JSON. -/
theorem untitled_record_lost :
    HasValidSource untitledFields acmeSourceDb ∧
      ingestOffer columnsEnv untitledFields (acmeFields "") (.opened acmeSourceDb) =
        .ok (none, .opened acmeSourceDb) ∧
      ¬ NotLost columnsEnv untitledFields (acmeFields "") (.opened acmeSourceDb) := by
  have hingest : ingestOffer columnsEnv untitledFields (acmeFields "") (.opened acmeSourceDb) =
      .ok (none, .opened acmeSourceDb) := by rfl
  refine ⟨⟨_, List.mem_singleton_self _, by decide, by decide, rfl⟩, hingest, ?_⟩
  rintro ⟨result, s', hs, haccounted⟩
  obtain ⟨rfl, rfl⟩ := Prod.mk.inj (Except.ok.inj (hingest.symm.trans hs))
  rcases haccounted with ⟨offer, hvalid, _⟩ | ⟨dedupKey, _, hcount⟩
  · have hinvalid : Offer.modelValidate columnsEnv.pydantic untitledFields = none := by decide
    rw [hinvalid] at hvalid
    cases hvalid
  · cases hcount

end RecruFlow.Ingestion
