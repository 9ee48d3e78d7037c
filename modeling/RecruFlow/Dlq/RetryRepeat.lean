import RecruFlow.Dlq.Consistency
import RecruFlow.Dlq.ScoringRetry
import RecruFlow.Dlq.StoredRange

/-!
# Repeated retries

An offer that a retry has handed to `persist_offer` is represented afterwards, so that a
second retry of the row finds it. A score is added each time; a batch adds none to a pair
that has one.
-/

namespace RecruFlow.Dlq

open Connectors Db Ingestion Lib.Outcome Lib.Transaction Schemas Scoring

/-- The retry of a stored row comes to its commit, and its handler has reported success. -/
def retryResolves (env : RetryEnv) (row : IngestionFailure) (db : Database) : Bool :=
  match FailureType.ofValue row.failureType with
  | none => false
  | some failureType =>
      match retryHandler env (.ofStored row) (.opened db) failureType with
      | .ok (succeeded, _, _) =>
          succeeded && (performRetry env (.ofStored row) (.opened db)).isOk
      | .error _ => false

/-- The boards answer in the same way, and the libraries are the same. -/
structure SameAnswers (env env' : RetryEnv) : Prop where
  pydantic : env'.pydantic = env.pydantic
  text : env'.text = env.text
  detailRetry : detailRetry env'.registry = detailRetry env.registry
  detail : env'.detail = env.detail

/-- The two databases have the same offers and scores. -/
def SameStores (db db' : Database) : Prop :=
  db'.offers = db.offers ∧ db'.matchScores = db.matchScores

/-- The retry of a row has an offer to hand to `persist_offer`. -/
def HandsOver (env : RetryEnv) (row : IngestionFailure) (db : Database) (offer : Offer)
    (rawPayload : Dict) : FailureType → Prop
  | .validationFailed =>
      row.rawPayload = some rawPayload ∧ Offer.modelValidate env.pydantic rawPayload = some offer
  | .detailFetchBlocked =>
      ∃ source connector url mapOffer,
        db.sources.find? (fun source => (source.id : Int) = row.sourceId) = some source ∧
          source.connector = some connector ∧ row.url = some url ∧
          (findConnector connector).isSome = true ∧
          detailRetry env.registry connector = some mapOffer ∧
          Posting env source (env.detail connector url) mapOffer rawPayload offer
  | _ => False

section Ingestion

variable {env env' : RetryEnv} {row : IngestionFailure} {db db' : Database} {offer : Offer}
  {rawPayload : Dict} {failureType : FailureType} {t t' : Tracked} {s s' : Session} {key : String}

/-- What a call of `persist_offer` that returns leaves beside the offers. -/
structure Handed (env : IngestEnv) (offer : Offer) (db : Database) (s : Session) : Prop where
  good : s.aborted = false
  represented : Represented env.text offer s.working.offers
  sources : s.working.sources = db.sources
  failures : s.working.ingestionFailures = db.ingestionFailures
  scoringFailures : s.working.scoringFailures = db.scoringFailures

theorem persistOffer_handed {ingestEnv : IngestEnv} {result : OfferRow × Bool}
    (h : persistOffer ingestEnv offer rawPayload (.opened db) = .ok (result, s)) :
    Handed ingestEnv offer db s where
  good := persistOffer_good rfl h
  represented := (persistOffer_ok h).represented
  sources := by
    have hdone := persistOffer_ok h
    generalize s.working = w at hdone
    cases hdone with
    | found => rfl
    | created => rfl
  failures := persistOffer_failures h
  scoringFailures := by
    have hdone := persistOffer_ok h
    generalize s.working = w at hdone
    cases hdone with
    | found => rfl
    | created => rfl

/-- A handler that has reported success has handed an offer over. -/
theorem retryHandler_handed (hexternal : externallyRecorded failureType = false)
    (h : retryHandler env (.ofStored row) (.opened db) failureType = .ok (true, t, s)) :
    ∃ offer rawPayload, HandsOver env row db offer rawPayload failureType ∧
      t = .ofStored row ∧ Handed env.toIngestEnv offer db s := by
  cases failureType with
  | pageFetchFailed => cases hexternal
  | runFetchFailed => cases hexternal
  | scoringFailed => cases h
  | validationFailed =>
      have h : retryValidationFailed env (.ofStored row) (.opened db) = .ok (true, t, s) :=
        mapError_ok h
      unfold retryValidationFailed at h
      split at h
      · cases h
      · next rawPayload hpayload =>
        split at h
        · cases h
        · next offer hvalid =>
          obtain ⟨⟨t₁, s₁⟩, hflush, h⟩ := bind_ok h
          obtain ⟨rfl, rfl, _⟩ := flush_ok hflush
          rw [storeIn_clean rfl] at h
          obtain ⟨⟨result, s₂⟩, hpersist, hend⟩ := bind_ok h
          cases hend
          exact ⟨offer, rawPayload, ⟨hpayload, hvalid⟩, rfl, persistOffer_handed hpersist⟩
  | detailFetchBlocked =>
      have h : retryDetailFetchBlocked env (.ofStored row) (.opened db) = .ok (true, t, s) :=
        mapError_ok h
      obtain ⟨⟨⟨source, connector⟩, t₁, s₁⟩, hget, h⟩ := bind_ok h
      obtain ⟨hsource, hconnector, rfl, _, rfl⟩ := getSource_ok hget
      rw [storeIn_clean rfl] at h
      dsimp only at h
      split at h
      · cases h
      · next url hurl =>
        split at h
        · cases h
        · next hfound =>
          split at h
          · cases h
          · next mapOffer hmap =>
            split at h
            · next hfetched =>
              cases h
              obtain ⟨found, hfetch, hfetched⟩ := bind_ok hfetched
              cases found with
              | none => cases hfetched
              | some parsed =>
                  obtain ⟨mapped, hmapped, hfetched⟩ := bind_ok hfetched
                  obtain ⟨⟨validated, s₂⟩, hnormalized, hfetched⟩ := bind_ok hfetched
                  cases validated with
                  | none => cases hfetched
                  | some offer =>
                      obtain ⟨⟨result, s₃⟩, hpersist, hend⟩ := bind_ok hfetched
                      cases hend
                      have hposting : Posting env source (env.detail connector url) mapOffer
                          parsed offer := ⟨Session.lift_ok hfetch, mapped,
                        Session.lift_ok hmapped, normalizeAndValidate_some hnormalized⟩
                      have hsame : s₂ = .opened db := by
                        unfold normalizeAndValidate at hnormalized
                        split at hnormalized
                        · exact (Prod.mk.inj (Except.ok.inj hnormalized)).2.symm
                        · obtain ⟨_, _, hnone⟩ := bind_ok hnormalized
                          cases hnone
                      rw [hsame] at hpersist
                      exact ⟨offer, parsed, ⟨source, connector, url, mapOffer, hsource, hconnector,
                        hurl, by rw [hfound]; rfl, hmap, hposting⟩, rfl,
                        persistOffer_handed hpersist⟩
            · cases h
            · cases h

/-- A represented offer leaves the offers as they are, and nothing is committed. -/
def StaysSame (db : Database) (s : Session) : Prop :=
  SameStores db s.working ∧ s.committed = db

theorem persistOffer_staysSame {ingestEnv : IngestEnv} (h : StaysSame db s)
    (hrepresented : Represented ingestEnv.text offer db.offers) :
    Ends (StaysSame db) (·.2) (·.2) (persistOffer ingestEnv offer rawPayload s) := by
  have hrest : KeptFor ingestEnv (fun _ => True) (fun _ => True)
      fun s : Session => s.working.matchScores = db.matchScores ∧ s.committed = db :=
    ⟨fun _ h => h, fun _ _ _ h => h, fun _ _ _ h => h⟩
  have hends : Ends (fun s : Session => s.working.matchScores = db.matchScores ∧ s.committed = db)
      (·.2) (·.2) (persistOffer ingestEnv offer rawPayload s) :=
    persistOffer_kept hrest (fun _ _ => trivial) ⟨h.1.2, h.2⟩
  obtain ⟨hscores, hcommitted⟩ := ends_iff_left.mp hends
  refine ends_iff_left.mpr ⟨⟨?_, hscores⟩, hcommitted⟩
  rcases @persisted_offers ingestEnv offer rawPayload s with hsame | ⟨hstorable, _⟩
  · exact hsame.trans h.1.1
  · rw [← h.1.1] at hrepresented
    exact absurd hrepresented hstorable.2.1

theorem StaysSame.opened : StaysSame db (.opened db) := ⟨⟨rfl, rfl⟩, rfl⟩

theorem StaysSame.commit (h : StaysSame db s) : SameStores db (commit s) := by
  unfold Lib.Transaction.commit
  split
  · rw [h.2]
    exact ⟨rfl, rfl⟩
  · exact h.1

theorem StaysSame.rollback (h : StaysSame db s) : SameStores db s.committed := by
  rw [h.2]
  exact ⟨rfl, rfl⟩

theorem flush_clean {postgres : Postgres} (h : t.row = t.loaded) :
    t.flush postgres s = .ok (t, s) :=
  if_pos h

theorem getSource_clean {source : Source} {connector : String}
    (hsource : db.sources.find? (fun source => (source.id : Int) = row.sourceId) = some source)
    (hconnector : source.connector = some connector) :
    getSource env (.ofStored row) (.opened db) =
      .ok ((source, connector), .ofStored row, .opened db) := by
  have hselect : Db.Session.select
      (fun db => db.sources.find? fun source =>
        (source.id : Int) = (Tracked.ofStored row).row.sourceId) (.opened db) =
          .ok (some source) := congrArg Except.ok hsource
  unfold getSource
  rw [flush_clean rfl]
  simp only [bind, Except.bind]
  rw [hselect]
  dsimp only
  rw [hconnector]
  rfl

/-- The retry of a row whose offer is represented. -/
theorem retryHandler_staysSame (h : HandsOver env row db offer rawPayload failureType)
    (hrepresented : Represented env.text offer db.offers) :
    Ends (StaysSame db) (·.2) (·.2.2) (retryHandler env (.ofStored row) (.opened db) failureType) := by
  cases failureType with
  | pageFetchFailed => exact h.elim
  | runFetchFailed => exact h.elim
  | scoringFailed => exact h.elim
  | validationFailed =>
      obtain ⟨hpayload, hvalid⟩ := h
      have hoffer := @retryValidationFailed_offer env (.opened db) (.ofStored row) (.ofStored row)
        (.opened db) offer rawPayload hpayload hvalid (flush_clean rfl)
      apply raising_ends
      rw [hoffer]
      exact ends_bind (persistOffer_staysSame .opened hrepresented) fun _ hs => hs
  | detailFetchBlocked =>
      obtain ⟨source, connector, url, mapOffer, hsource, hconnector, hurl, hfound, hmap, hposting⟩ := h
      obtain ⟨found, hfound⟩ := Option.isSome_iff_exists.mp hfound
      apply raising_ends
      unfold retryDetailFetchBlocked
      rw [getSource_clean hsource hconnector]
      simp only [bind, Except.bind, Tracked.ofStored_row, hurl, hfound, hmap]
      have hdetail : Ends (StaysSame db) (fun raised : Raised => raised.2) (·.2)
          (retryDetailFetch env (.opened db) (env.detail connector url) mapOffer source) := by
        rw [retryDetailFetch_posting hposting]
        exact ends_bind (persistOffer_staysSame .opened hrepresented) fun _ hs => hs
      split
      · next hreturned =>
        have hs := ends_ok hdetail hreturned
        exact hs
      · next hblocked =>
        have hs := ends_error hdetail hblocked
        exact hs
      · next hraised =>
        have hs := ends_error hdetail hraised
        exact hs

/-- The retry of a row whose offer is represented stores nothing. -/
theorem performRetry_sameStores (htype : FailureType.ofValue row.failureType = some failureType)
    (h : HandsOver env row db offer rawPayload failureType)
    (hrepresented : Represented env.text offer db.offers) :
    SameStores db (afterRetry (performRetry env (.ofStored row) (.opened db))) := by
  have hrow : KeptByRow (fun _ => True) (StaysSame db) := ⟨fun _ h => h, fun _ _ _ h => h⟩
  have hends : Ends (StaysSame db) (fun halted : Halt × Session => halted.2) (·.2)
      (performRetry env (.ofStored row) (.opened db)) := by
    refine performRetry_keeps hrow heldByRetry_all trivial .opened fun failureType' htype' => ?_
    obtain rfl := Option.some.inj (htype.symm.trans htype')
    exact retryHandler_staysSame h hrepresented
  cases hretry : performRetry env (.ofStored row) (.opened db) with
  | error halted =>
      have hs := ends_error hends hretry
      exact hs.rollback
  | ok r =>
      have hs := ends_ok hends hretry
      exact hs.commit

/-- A retry that resolves a row of a posting leaves it with its offer represented. -/
theorem retryResolves_leaves (hrow : storedFailure key db = some row)
    (htype : FailureType.ofValue row.failureType = some failureType)
    (hexternal : externallyRecorded failureType = false) (h : retryResolves env row db = true) :
    ∃ offer rawPayload row', HandsOver env row db offer rawPayload failureType ∧
      Represented env.text offer (afterManualRetry env key db).offers ∧
      (afterManualRetry env key db).sources = db.sources ∧
      storedFailure key (afterManualRetry env key db) = some row' ∧
      row'.failureType = row.failureType ∧ row'.rawPayload = row.rawPayload ∧
      row'.sourceId = row.sourceId ∧ row'.url = row.url := by
  have hkey : row.dedupKey = key := by simpa using List.find?_some hrow
  unfold retryResolves at h
  rw [htype] at h
  dsimp only at h
  split at h
  · next succeeded t s hreturns =>
    obtain ⟨rfl, hok⟩ := Bool.and_eq_true_iff.mp h
    obtain ⟨offer, rawPayload, hhands, rfl, hhanded⟩ := retryHandler_handed hexternal hreturns
    have hretry := performRetry_of_succeeded htype hreturns
    have hafter : afterManualRetry env key db =
        afterRetry (performRetry env (.ofStored row) (.opened db)) := by
      rw [afterManualRetry, hrow]
    cases hflush : ((Tracked.ofStored row).markResolved env.retriedAt).flush env.postgres s with
    | error raised =>
        rw [hretry, hflush] at hok
        cases hok
    | ok r =>
        obtain ⟨t', s'⟩ := r
        obtain ⟨_, rfl, _⟩ := flush_ok hflush
        rw [hretry, hflush] at hafter
        have hcommit : afterManualRetry env key db =
            ((Tracked.ofStored row).markResolved env.retriedAt).storeIn s.working := by
          rw [hafter]
          exact if_neg (by rw [hhanded.good]; exact Bool.false_ne_true)
        rw [hcommit]
        have hstored : storedFailure key
            (((Tracked.ofStored row).markResolved env.retriedAt).storeIn s.working) =
              some (((Tracked.ofStored row).markResolved env.retriedAt).store row) := by
          have hloaded : key =
              ((Tracked.ofStored row).markResolved env.retriedAt).loaded.dedupKey := hkey.symm
          rw [storedFailure_storeIn, if_pos hloaded, storedFailure, hhanded.failures]
          exact congrArg (Option.map _) hrow
        exact ⟨offer, rawPayload, _, hhands, hhanded.represented, hhanded.sources, hstored, rfl,
          rfl, rfl, rfl⟩
  · cases h

/-- The second retry has the same offer to hand over. -/
theorem HandsOver.again {row' : IngestionFailure} (hsame : SameAnswers env env')
    (h : HandsOver env row db offer rawPayload failureType) (hsources : db'.sources = db.sources)
    (hpayload : row'.rawPayload = row.rawPayload) (hsource : row'.sourceId = row.sourceId)
    (hurl : row'.url = row.url) : HandsOver env' row' db' offer rawPayload failureType := by
  cases failureType with
  | pageFetchFailed => exact h
  | runFetchFailed => exact h
  | scoringFailed => exact h
  | validationFailed =>
      unfold HandsOver at h ⊢
      rw [hpayload, hsame.pydantic]
      exact h
  | detailFetchBlocked =>
      unfold HandsOver Posting at h ⊢
      rw [hsources, hsource, hurl, hsame.detailRetry, hsame.detail, hsame.pydantic]
      exact h

/-- Once it has been resolved, retrying a row of a posting again stores nothing. -/
theorem manualRetry_repeats (hsame : SameAnswers env env') (hrow : storedFailure key db = some row)
    (htype : FailureType.ofValue row.failureType = some failureType)
    (hexternal : externallyRecorded failureType = false) (h : retryResolves env row db = true) :
    SameStores (afterManualRetry env key db)
      (afterManualRetry env' key (afterManualRetry env key db)) := by
  obtain ⟨offer, rawPayload, row', hhands, hrepresented, hsources, hrow', htype', hpayload, hsource,
    hurl⟩ := retryResolves_leaves hrow htype hexternal h
  have hagain := hhands.again hsame hsources hpayload hsource hurl
  rw [← hsame.text] at hrepresented
  rw [← htype'] at htype
  have hafter : afterManualRetry env' key (afterManualRetry env key db) = afterRetry
      (performRetry env' (.ofStored row') (.opened (afterManualRetry env key db))) := by
    rw [afterManualRetry, hrow']
  rw [hafter]
  exact performRetry_sameStores htype hagain hrepresented

end Ingestion

/-- The answer of the language model is the same, and the libraries are. -/
structure SameModel (env env' : ScoringRetryEnv) : Prop where
  pydantic : env'.pydantic = env.pydantic
  text : env'.text = env.text
  scoreOffer : env'.scoreOffer = env.scoreOffer

/-- The second database has one more score of the pair, the one that the first has got. -/
def AddsScoreAgain (row : ScoringFailure) (db db' db'' : Database) : Prop :=
  ∃ score : MatchScore, score.offerId = row.offerId ∧ score.profileId = row.profileId ∧
    db'.matchScores = db.matchScores ++ [score] ∧ db''.matchScores = db'.matchScores ++ [score]

section Scoring

variable {env env' : ScoringRetryEnv} {row : ScoringFailure} {db : Database} {key : String}
  {offer : Offer} {rawPayload : Dict} {handled : HandledScoring}

theorem afterManualScoringRetry_of_row (hrow : storedScoringFailure key db = some row) :
    afterManualScoringRetry env key db =
      afterScoringRetry (performScoringRetry env (.ofStored row) (.opened db)) := by
  rw [afterManualScoringRetry, hrow]

theorem storedScoringFailure_after {t : TrackedScoring} {db' : Database}
    (hrow : storedScoringFailure key db = some row) (ht : t.loaded = row)
    (hrows : db'.scoringFailures = db.scoringFailures) :
    storedScoringFailure key (t.storeIn db') = some (t.store row) := by
  have hkey : row.dedupKey = key := by simpa using List.find?_some hrow
  rw [storedScoringFailure_storeIn, if_pos (by rw [ht, hkey]), storedScoringFailure, hrows]
  exact congrArg (Option.map _) hrow

/-- A scoring failure that is retried again. -/
theorem scoringFailed_repeats (hsame : SameModel env env')
    (hrow : storedScoringFailure key db = some row)
    (htype : FailureType.ofValue row.failureType = some .scoringFailed)
    (h : scoringRetryResolves env row db = true) :
    let db' := afterManualScoringRetry env key db
    let db'' := afterManualScoringRetry env' key db'
    SameStores db' db'' ∨ db''.offers = db'.offers ∧ AddsScoreAgain row db db' db'' := by
  rcases @scoringRetry_cases env row db htype with ⟨hfailed, _⟩ | ⟨_, t, ht, score, hscore, hafter⟩
  · rw [h] at hfailed
    cases hfailed
  · intro db' db''
    have hdb' : db' = t.storeIn (addScores [score] db) :=
      (afterManualScoringRetry_of_row hrow).trans hafter
    have hrow' : storedScoringFailure key db' = some (t.store row) := by
      rw [hdb']
      exact storedScoringFailure_after hrow ht rfl
    have htype' : FailureType.ofValue (t.store row).failureType = some .scoringFailed := htype
    have hdb'' : db'' = _ := afterManualScoringRetry_of_row hrow'
    rcases @scoringRetry_cases env' (t.store row) db' htype' with
      ⟨_, t', _, hagain⟩ | ⟨_, t', _, score', hscore', hagain⟩
    · left
      rw [hdb'', hagain]
      exact ⟨rfl, rfl⟩
    · right
      have hrescored : Rescored env row db score' := by
        obtain ⟨offerRow, profileRow, answer, hoffer, hprofile, hanswer, hvalue⟩ := hscore'.answered
        rw [hsame.scoreOffer] at hanswer
        rw [hdb'] at hoffer hprofile
        exact ⟨offerRow, profileRow, answer, hoffer, hprofile, hanswer, hvalue⟩
      obtain rfl := hscore.unique hrescored
      rw [hdb'', hagain]
      refine ⟨rfl, score, hscore.pair.1, hscore.pair.2, ?_, rfl⟩
      rw [hdb']
      rfl

/-- The handler of a stored payload, for a row of `scoring_failures`. -/
theorem retryScoringPayload_handed
    (h : retryScoringPayload env (.ofStored row) (.opened db) = .ok handled)
    (hsucceeded : handled.succeeded = true) :
    ∃ offer rawPayload, row.rawPayload = some rawPayload ∧
      Offer.modelValidate env.pydantic rawPayload = some offer ∧ handled.added = [] ∧
      handled.tracked = .ofStored row ∧ Handed env.toIngestEnv offer db handled.session := by
  unfold retryScoringPayload at h
  split at h
  · obtain rfl := Except.ok.inj h
    cases hsucceeded
  · next rawPayload hpayload =>
    split at h
    · obtain rfl := Except.ok.inj h
      cases hsucceeded
    · next offer hvalid =>
      rw [scoringFlush_clean rfl] at h
      obtain ⟨⟨t, s⟩, hclean, h⟩ := bind_ok h
      obtain ⟨rfl, rfl⟩ := Prod.mk.inj (Except.ok.inj hclean)
      obtain ⟨⟨result, s⟩, hpersist, hend⟩ := bind_ok h
      obtain rfl := Except.ok.inj hend
      exact ⟨offer, rawPayload, hpayload, hvalid, rfl, rfl, persistOffer_handed hpersist⟩

/-- The retry of a payload whose offer is represented. -/
theorem performScoringRetry_sameStores
    (htype : FailureType.ofValue row.failureType = some .validationFailed)
    (hpayload : row.rawPayload = some rawPayload)
    (hvalid : Offer.modelValidate env.pydantic rawPayload = some offer)
    (hrepresented : Represented env.text offer db.offers) :
    SameStores db (afterScoringRetry (performScoringRetry env (.ofStored row) (.opened db))) := by
  have hhandler : scoringRetryHandler env (.ofStored row) (.opened db) .validationFailed =
      (persistOffer env.toIngestEnv offer rawPayload (.opened db) >>= fun r =>
        pure ⟨true, .ofStored row, [], r.2⟩) := by
    change retryScoringPayload env (.ofStored row) (.opened db) = _
    unfold retryScoringPayload
    rw [scoringFlush_clean rfl]
    have hrow : (TrackedScoring.ofStored row).row.rawPayload = some rawPayload := hpayload
    simp only [bind, Except.bind, hrow, hvalid]
  have hends : Ends (StaysSame db) (fun raised : Raised => raised.2) (·.2)
      (performScoringRetry env (.ofStored row) (.opened db)) := by
    rw [performScoringRetry_of_type htype, hhandler]
    have hpersisted := @persistOffer_staysSame db offer rawPayload (.opened db) env.toIngestEnv
      .opened hrepresented
    cases hpersist : persistOffer env.toIngestEnv offer rawPayload (.opened db) with
    | error raised =>
        have hs := ends_error hpersisted hpersist
        exact hs
    | ok r =>
        have hs := ends_ok hpersisted hpersist
        exact scoringFlush_keeps (fun _ h => h) (fun _ _ h => h) hs
  cases hretry : performScoringRetry env (.ofStored row) (.opened db) with
  | error raised =>
      have hs := ends_error hends hretry
      exact hs.rollback
  | ok r =>
      have hs := ends_ok hends hretry
      exact hs.commit

/-- A stored payload that is retried again. -/
theorem scoringPayload_repeats (hsame : SameModel env env')
    (hrow : storedScoringFailure key db = some row)
    (htype : FailureType.ofValue row.failureType = some .validationFailed)
    (h : scoringRetryResolves env row db = true) :
    SameStores (afterManualScoringRetry env key db)
      (afterManualScoringRetry env' key (afterManualScoringRetry env key db)) := by
  have hretry := @performScoringRetry_of_type env row (.opened db) _ htype
  have hafter := @afterManualScoringRetry_of_row env row db key hrow
  unfold scoringRetryResolves at h
  rw [htype] at h
  dsimp only at h
  cases hhandler : scoringRetryHandler env (.ofStored row) (.opened db) .validationFailed with
  | error raised =>
      rw [hhandler] at h
      cases h
  | ok handled =>
      rw [hhandler] at h hretry
      obtain ⟨hsucceeded, hok⟩ := Bool.and_eq_true_iff.mp h
      obtain ⟨offer, rawPayload, hpayload, hvalid, hadded, htracked, hhanded⟩ :=
        retryScoringPayload_handed hhandler hsucceeded
      have hretry : performScoringRetry env (.ofStored row) (.opened db) =
          settleScoring env handled := hretry
      cases hsettled : settleScoring env handled with
      | error raised =>
          rw [hretry, hsettled] at hok
          cases hok
      | ok r =>
          obtain ⟨t', s'⟩ := r
          obtain ⟨t, ht, rfl⟩ := settleScoring_ok hsettled
          rw [htracked] at ht
          rw [hretry, hsettled] at hafter
          have hcommit : afterManualScoringRetry env key db =
              t.storeIn (addScores [] handled.session.working) := by
            rw [hafter, hadded]
            exact if_neg (by rw [hhanded.good]; exact Bool.false_ne_true)
          have hrow' : storedScoringFailure key (afterManualScoringRetry env key db) =
              some (t.store row) := by
            rw [hcommit]
            exact storedScoringFailure_after hrow ht hhanded.scoringFailures
          rw [afterManualScoringRetry_of_row hrow']
          refine @performScoringRetry_sameStores env' (t.store row) _ offer rawPayload htype hpayload
            ?_ ?_
          · rw [hsame.pydantic]
            exact hvalid
          · rw [hsame.text, hcommit]
            exact hhanded.represented

end Scoring

/-- A batch, and whether its transaction commits, or the manual retry of a scoring failure. -/
inductive ScoringEvent where
  | batch (env : BatchEnv) (commits : Bool)
  | retry (env : ScoringRetryEnv) (key : String)

namespace ScoringEvent

/-- What the event commits. -/
def apply (db : Database) : ScoringEvent → Database
  | batch env commits =>
      match runBatchScoring env db with
      | .ok (_, db') => if commits then db' else db
      | .error _ => db
  | retry env key => afterManualScoringRetry env key db

/-- The event is a retry that succeeds for a pair that has a score already. -/
def rescores (profileId offerId : Nat) (db : Database) : ScoringEvent → Bool
  | batch _ _ => false
  | retry env key =>
      match storedScoringFailure key db with
      | none => false
      | some row => row.offerId = offerId && row.profileId = profileId &&
          0 < scoreCount db profileId offerId && scoringRetryResolves env row db

end ScoringEvent

def afterScoring (db : Database) (events : List ScoringEvent) : Database :=
  events.foldl ScoringEvent.apply db

/-- How many of the events are such retries. -/
def rescoreCount (profileId offerId : Nat) : Database → List ScoringEvent → Nat
  | _, [] => 0
  | db, event :: events =>
      (event.rescores profileId offerId db).toNat +
        rescoreCount profileId offerId (event.apply db) events

/-- The offers have ids of their own, and the rows of `scoring_failures` are scoring
failures. -/
structure ScoringRows (db : Database) : Prop where
  offer_ids : (db.offers.map (·.id)).Nodup
  failures : ∀ row ∈ db.scoringFailures, FailureType.ofValue row.failureType = some .scoringFailed

section Sequence

variable {env : BatchEnv} {profileId offerId : Nat} {db db' : Database} {writes : BatchWrites}
  {summary : BatchScoringSummary} {event : ScoringEvent} {events : List ScoringEvent}

theorem runBatchScoring_ok (h : runBatchScoring env db = .ok (summary, db')) :
    ∃ batch writes, selectBatch env db = .ok batch ∧
      scoreBatch env batch = .ok (summary, writes) ∧ db' = writes.apply env.startedAt db := by
  obtain ⟨batch, hselect, h⟩ := bind_ok h
  obtain ⟨⟨summary', writes⟩, hscore, h⟩ := bind_ok h
  obtain ⟨rfl, rfl⟩ := Prod.mk.inj (Except.ok.inj h)
  exact ⟨batch, writes, hselect, hscore, rfl⟩

theorem scoreOffersWithLangchain_failures {profileRow : ProfileRow}
    {offers : List (OfferRow × String)}
    (h : scoreOffersWithLangchain env profileRow offers = .ok writes) :
    ∀ fields ∈ writes.failures, fields.failureType = .scoringFailed := by
  induction offers generalizing writes with
  | nil =>
      rw [← Except.ok.inj h]
      exact fun _ hmem => nomatch hmem
  | cons offer offers ih =>
      obtain ⟨row, connector⟩ := offer
      unfold scoreOffersWithLangchain at h
      obtain ⟨outcome, _, h⟩ := bind_ok h
      obtain ⟨rest, hrest, h⟩ := bind_ok h
      have hall := ih hrest
      rcases outcome with _ | (message | score)
      · rw [← Except.ok.inj h]
        exact hall
      · rw [← Except.ok.inj h]
        intro fields hmem
        rcases List.mem_cons.mp hmem with rfl | hmem
        · rfl
        · exact hall fields hmem
      · rw [← Except.ok.inj h]
        exact hall

theorem recordScoringFailure_types {fields : ScoringFields} {startedAt : Int}
    (hfields : fields.failureType = .scoringFailed)
    (h : ∀ row ∈ db.scoringFailures, FailureType.ofValue row.failureType = some .scoringFailed) :
    ∀ row ∈ (recordScoringFailure startedAt fields db).scoringFailures,
      FailureType.ofValue row.failureType = some .scoringFailed := by
  have hvalue : FailureType.ofValue fields.failureType.value = some .scoringFailed := by
    rw [FailureType.ofValue_value, hfields]
  intro row hrow
  rcases upsert_mem_cases hrow with hold | rfl | ⟨old, _, _, rfl⟩
  · exact h row hold
  · exact hvalue
  · exact hvalue

theorem foldl_recordScoringFailure_types {failures : List ScoringFields} {startedAt : Int}
    (hfields : ∀ fields ∈ failures, fields.failureType = .scoringFailed)
    (h : ∀ row ∈ db.scoringFailures, FailureType.ofValue row.failureType = some .scoringFailed) :
    ∀ row ∈ (failures.foldl (fun db fields => recordScoringFailure startedAt fields db)
      db).scoringFailures, FailureType.ofValue row.failureType = some .scoringFailed := by
  induction failures generalizing db with
  | nil => exact h
  | cons fields failures ih =>
      exact ih (fun f hf => hfields f (List.mem_cons_of_mem _ hf))
        (recordScoringFailure_types (hfields fields List.mem_cons_self) h)

/-- A batch scores an offer once at most, and no offer that has a score. -/
theorem runBatchScoring_scoreCount (hids : (db.offers.map (·.id)).Nodup)
    (h : runBatchScoring env db = .ok (summary, db')) :
    scoreCount db' profileId offerId ≤ max 1 (scoreCount db profileId offerId) := by
  obtain ⟨batch, writes, hselect, hscore, rfl⟩ := runBatchScoring_ok h
  obtain ⟨rows, happly⟩ := apply_eq writes env.startedAt db
  have hcount : scoreCount (writes.apply env.startedAt db) profileId offerId =
      scoreCount db profileId offerId +
        writes.scores.countP (fun s => s.offerId = offerId ∧ s.profileId = profileId) := by
    rw [happly, scoreCount, List.countP_append]
    rfl
  rw [hcount]
  rcases scoreBatch_scores hscore with hnone | ⟨b, rfl, hall, hsub⟩
  · rw [hnone, List.countP_nil]
    exact Nat.le_max_right _ _
  · obtain ⟨_, hcandidates⟩ := selectBatch_some hselect
    obtain ⟨hnew, hnodup⟩ := selectScoringCandidates_ok hcandidates
    by_cases hprofile : b.profileRow.id = profileId
    · subst hprofile
      rw [countP_scores fun s hs => (hall s hs).1]
      by_cases hscored : offerId ∈ alreadyScored db b.profileRow.id
      · have hnot : offerId ∉ writes.scores.map (·.offerId) := by
          intro hmem
          obtain ⟨p, hp, rfl⟩ := List.mem_map.mp (hsub.subset hmem)
          exact (hnew p hp).2 hscored
        rw [List.count_eq_zero_of_not_mem hnot]
        exact Nat.le_max_right _ _
      · rw [scoreCount_eq_zero hscored]
        have hle := List.nodup_iff_count_le_one.mp (hsub.nodup (hnodup hids)) offerId
        omega
    · have hzero : writes.scores.countP
          (fun s => s.offerId = offerId ∧ s.profileId = profileId) = 0 := by
        refine List.countP_eq_zero.mpr fun s hs hpair => hprofile ?_
        rw [← (hall s hs).1]
        exact (of_decide_eq_true hpair).2
      rw [hzero]
      exact Nat.le_max_right _ _

theorem ScoringRows.batch (h : ScoringRows db) (hbatch : runBatchScoring env db = .ok (summary, db')) :
    ScoringRows db' := by
  obtain ⟨batch, writes, _, hscore, rfl⟩ := runBatchScoring_ok hbatch
  have hfields : ∀ fields ∈ writes.failures, fields.failureType = .scoringFailed := by
    cases batch with
    | none =>
        rw [← (Prod.mk.inj (Except.ok.inj hscore)).2]
        exact fun _ hmem => nomatch hmem
    | some b =>
        obtain ⟨writes', hwrites, hend⟩ := bind_ok hscore
        rw [← (Prod.mk.inj (Except.ok.inj hend)).2]
        exact scoreOffersWithLangchain_failures hwrites
  refine ⟨?_, foldl_recordScoringFailure_types hfields h.failures⟩
  obtain ⟨rows, happly⟩ := apply_eq writes env.startedAt db
  rw [happly]
  exact h.offer_ids

theorem ScoringRows.storeIn {t : TrackedScoring} (h : ScoringRows db) : ScoringRows (t.storeIn db) := by
  refine ⟨h.offer_ids, fun row hrow => ?_⟩
  obtain ⟨stored, hstored, rfl⟩ := List.mem_map.mp hrow
  split
  · exact h.failures stored hstored
  · exact h.failures stored hstored

/-- A retry adds one score at most, to the pair of its row. -/
theorem manualScoringRetry_step {env : ScoringRetryEnv} {key : String} (h : ScoringRows db) :
    ScoringRows (afterManualScoringRetry env key db) ∧
      scoreCount (afterManualScoringRetry env key db) profileId offerId ≤
        max 1 (scoreCount db profileId offerId) +
          ((ScoringEvent.retry env key).rescores profileId offerId db).toNat := by
  cases hrow : storedScoringFailure key db with
  | none =>
      have hsame : afterManualScoringRetry env key db = db := by
        rw [afterManualScoringRetry, hrow]
      rw [hsame]
      exact ⟨h, (Nat.le_max_right _ _).trans (Nat.le_add_right _ _)⟩
  | some row =>
      have htype := h.failures row (List.mem_of_find?_eq_some hrow)
      rw [afterManualScoringRetry_of_row hrow]
      rcases @scoringRetry_cases env row db htype with
        ⟨_, t, _, hafter⟩ | ⟨hresolves, t, _, score, hscore, hafter⟩
      · rw [hafter]
        refine ⟨h.storeIn, ?_⟩
        have hcount : scoreCount (t.storeIn db) profileId offerId = scoreCount db profileId offerId :=
          rfl
        omega
      · rw [hafter]
        have hadded : ScoringRows (addScores [score] db) := ⟨h.offer_ids, h.failures⟩
        refine ⟨hadded.storeIn, ?_⟩
        have hcount : scoreCount (t.storeIn (addScores [score] db)) profileId offerId =
            scoreCount db profileId offerId +
              [score].countP (fun s => s.offerId = offerId ∧ s.profileId = profileId) :=
          List.countP_append
        rw [hcount, List.countP_singleton]
        by_cases hpair : row.offerId = offerId ∧ row.profileId = profileId
        · have hrescores : (ScoringEvent.retry env key).rescores profileId offerId db =
              decide (0 < scoreCount db profileId offerId) := by
            simp [ScoringEvent.rescores, hrow, hpair, hresolves]
          rw [hrescores]
          by_cases hscored : 0 < scoreCount db profileId offerId
          · rw [decide_eq_true hscored, Bool.toNat_true]
            split <;> omega
          · split <;> omega
        · have hother : ¬ (score.offerId = offerId ∧ score.profileId = profileId) := by
            rw [hscore.pair.1, hscore.pair.2]
            exact hpair
          rw [if_neg (by simpa using hother)]
          omega

/-- What one event does to the scores of a pair. -/
theorem scoringEvent_step (h : ScoringRows db) :
    ScoringRows (event.apply db) ∧ scoreCount (event.apply db) profileId offerId ≤
      max 1 (scoreCount db profileId offerId) + (event.rescores profileId offerId db).toNat := by
  cases event with
  | batch env commits =>
      unfold ScoringEvent.apply
      dsimp only
      split
      · next summary db' hbatch =>
        split
        · exact ⟨h.batch hbatch, runBatchScoring_scoreCount h.offer_ids hbatch⟩
        · exact ⟨h, Nat.le_max_right _ _⟩
      · exact ⟨h, Nat.le_max_right _ _⟩
  | retry env key => exact manualScoringRetry_step h

/-- The scores of a pair after a sequence of events. -/
theorem afterScoring_scoreCount (h : ScoringRows db) :
    scoreCount (afterScoring db events) profileId offerId ≤
      max 1 (scoreCount db profileId offerId) + rescoreCount profileId offerId db events := by
  induction events generalizing db with
  | nil => exact Nat.le_max_right _ _
  | cons event events ih =>
      obtain ⟨hrows, hstep⟩ := @scoringEvent_step profileId offerId db event h
      have hrest := ih hrows
      change scoreCount (afterScoring (event.apply db) events) profileId offerId ≤ _
      unfold rescoreCount
      omega

end Sequence

/-- Retrying a resolved row again stores nothing when it is about a posting. A scoring
failure then gets the same score once more, so that a pair has as many scores beyond the
first as retries have succeeded for it while it had one. -/
theorem retries_repeat :
    (∀ {env env' : RetryEnv} {key : String} {row : IngestionFailure} {db : Database}
        {failureType : FailureType}, SameAnswers env env' → storedFailure key db = some row →
      FailureType.ofValue row.failureType = some failureType →
      externallyRecorded failureType = false → retryResolves env row db = true →
        SameStores (afterManualRetry env key db)
          (afterManualRetry env' key (afterManualRetry env key db))) ∧
    (∀ {env env' : ScoringRetryEnv} {key : String} {row : ScoringFailure} {db : Database},
      SameModel env env' → storedScoringFailure key db = some row →
      scoringRetryResolves env row db = true →
        let db' := afterManualScoringRetry env key db
        let db'' := afterManualScoringRetry env' key db'
        SameStores db' db'' ∨ FailureType.ofValue row.failureType = some .scoringFailed ∧
          db''.offers = db'.offers ∧ AddsScoreAgain row db db' db'') ∧
    ∀ {db : Database} {events : List ScoringEvent} {profileId offerId : Nat}, ScoringRows db →
      scoreCount db profileId offerId = 0 →
        scoreCount (afterScoring db events) profileId offerId ≤
          1 + rescoreCount profileId offerId db events := by
  refine ⟨fun hsame hrow htype hexternal h => manualRetry_repeats hsame hrow htype hexternal h, ?_, ?_⟩
  · intro env env' key row db hsame hrow h
    cases htype : FailureType.ofValue row.failureType with
    | none =>
        unfold scoringRetryResolves at h
        rw [htype] at h
        cases h
    | some failureType =>
        cases failureType with
        | validationFailed => exact .inl (scoringPayload_repeats hsame hrow htype h)
        | scoringFailed =>
            rcases scoringFailed_repeats hsame hrow htype h with hsame | ⟨hoffers, hadds⟩
            · exact .inl hsame
            · exact .inr ⟨rfl, hoffers, hadds⟩
        | pageFetchFailed =>
            unfold scoringRetryResolves at h
            rw [htype] at h
            cases h
        | runFetchFailed =>
            unfold scoringRetryResolves at h
            rw [htype] at h
            cases h
        | detailFetchBlocked =>
            unfold scoringRetryResolves at h
            rw [htype] at h
            cases h
  · intro db events profileId offerId hrows hnone
    have hcount := @afterScoring_scoreCount profileId offerId db events hrows
    omega

/-! ## A score that comes late -/

def scoringEnv : ScoringRetryEnv :=
  { acmeEnv with
    scoreOffer := fun _ _ => .ok (.ok ⟨80, "fits"⟩)
    retriedAt := 7 }

/-- The model times out in the batch, and answers when its failure is retried. -/
def timedOutBatch : ScoringEvent :=
  .batch { oneByOne with scoreOffer := fun _ _ => .ok (.error "timeout") } true

def lateScore : ScoringEvent :=
  .retry scoringEnv "offer:2:profile:1"

/-- The row is resolved, and its next retry adds a second score of the pair. -/
theorem scoring_retried_again :
    ¬ ((∀ {env env' : ScoringRetryEnv} {key : String} {row : ScoringFailure} {db : Database},
        SameModel env env' → storedScoringFailure key db = some row →
        scoringRetryResolves env row db = true →
          SameStores (afterManualScoringRetry env key db)
            (afterManualScoringRetry env' key (afterManualScoringRetry env key db))) ∨
      ∀ {db : Database} {events : List ScoringEvent} {profileId offerId : Nat}, ScoringRows db →
        scoreCount db profileId offerId = 0 →
          scoreCount (afterScoring db events) profileId offerId ≤ 1) := by
  rintro (hsame | honce)
  · have hstores := @hsame scoringEnv scoringEnv "offer:2:profile:1" _
      (afterScoring twoOffersDb [timedOutBatch]) ⟨rfl, rfl, rfl⟩ (by rfl) (by rfl)
    exact absurd (congrArg List.length hstores.2) (by decide)
  · have hrows : ScoringRows twoOffersDb :=
      ⟨by decide, fun row hrow => absurd hrow List.not_mem_nil⟩
    exact absurd (@honce twoOffersDb [timedOutBatch, lateScore, lateScore] 1 2 hrows rfl) (by decide)

theorem retries_repeat_late :
    scoreCount (afterScoring twoOffersDb [timedOutBatch, lateScore, lateScore]) 1 2 ≤
      1 + rescoreCount 1 2 twoOffersDb [timedOutBatch, lateScore, lateScore] ∧
    SameStores (afterManualRetry postingRetryEnv postingFields.dedupKey
        (recordIngestionFailure 0 postingFields bulldogjobDb))
      (afterManualRetry postingRetryEnv postingFields.dedupKey
        (afterManualRetry postingRetryEnv postingFields.dedupKey
          (recordIngestionFailure 0 postingFields bulldogjobDb))) := by
  have hrows : ScoringRows twoOffersDb :=
    ⟨by decide, fun row hrow => absurd hrow List.not_mem_nil⟩
  refine ⟨retries_repeat.2.2 hrows rfl, ?_⟩
  exact @retries_repeat.1 postingRetryEnv postingRetryEnv postingFields.dedupKey _
    (recordIngestionFailure 0 postingFields bulldogjobDb) .detailFetchBlocked
    ⟨rfl, rfl, rfl, rfl⟩ (by rfl) (by rfl) rfl (by rfl)

end RecruFlow.Dlq
