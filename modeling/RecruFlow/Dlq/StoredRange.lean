import RecruFlow.Dlq.RetryFrame
import RecruFlow.Ingestion.RecordFate

/-!
# The fetch range on the ways into the store

The loop of a run drops a record that is outside the fetch range of its source. The
retries of an invalid offer and of a blocked posting hand theirs straight to
`persist_offer`.
-/

namespace RecruFlow.Dlq

open Connectors Db Ingestion Lib.Outcome Lib.Transaction Schemas

/-- The date lies in the fetch range, to which both edges belong. -/
def InRange (env : RunEnv) (configJson : Dict) (date : DateTime) : Prop :=
  let range := resolveFetchRange env.parseDatetime (configJson.get "fetch_range")
  outsideRange range.1 range.2 date = .ok false

instance (env : RunEnv) (configJson : Dict) (date : DateTime) :
    Decidable (InRange env configJson date) :=
  inferInstanceAs (Decidable (_ = _))

/-- A way for offers of a source into the store. -/
inductive StoringPath where
  /-- The paginated run of a connector. -/
  | run (connector : ConnectorRun) (forceRefresh : Bool)
  /-- `retry_detail_fetch`, by the page as fetched and parsed and the mapping of the connector. -/
  | retryDetailFetch (fetched : Except PyError (Option Dict))
      (mapOffer : Nat → Dict → Except PyError Dict)
  /-- The retry of an invalid offer, by its dead letter. -/
  | retryValidationFailed (t : Tracked)

namespace StoringPath

variable (env : RetryEnv) (source : Source) (s : Session)

/-- The session that the path leaves, whether it returns or raises. -/
def session : StoringPath → Session
  | run connector forceRefresh =>
      left (·.2.session) (·.2.session)
        (connector.run env.toRunEnv source forceRefresh { session := s })
  | retryDetailFetch fetched mapOffer =>
      left (·.2) (·.2) (Dlq.retryDetailFetch env s fetched mapOffer source)
  | retryValidationFailed t => left (·.2) (·.2.2) (Dlq.retryValidationFailed env t s)

/-- The offers that the path has stored. -/
def Stores (path : StoringPath) (row : OfferRow) : Prop :=
  row ∈ (path.session env source s).working.offers ∧ row ∉ s.working.offers

/-- What `datetime.now(UTC)` may be on the path. -/
def Instant : StoringPath → DateTime → Prop
  | run _ _, now => ∃ pass turn, now = env.now pass turn
  | _, now => now = ⟨env.retriedAt, true⟩

/-- Every offer that the path stores is in the range, an undated one as of now. -/
def StoresInRange (path : StoringPath) : Prop :=
  ∀ row, path.Stores env source s row →
    ∃ now, path.Instant env now ∧
      InRange env.toRunEnv source.configJson (row.offer.postedAt.getD now)

end StoringPath

/-- `persist_offer` would store the offer: it is new, and can be hashed and inserted. -/
def Storable (env : IngestEnv) (offer : Offer) (rawPayload : Dict) (s : Session) : Prop :=
  s.aborted = false ∧ ¬ Represented env.text offer s.working.offers ∧
    ∃ dedupHash, computeDedupHash env.text offer = .ok dedupHash ∧
      env.postgres.offer (newOfferRow env offer rawPayload dedupHash s.working) s.working = .taken

/-- The posting that a retry has to store, if any, is in the range. -/
def StoringPath.KeepsRange (env : RetryEnv) (source : Source) (s : Session) : StoringPath → Prop
  | run _ _ => True
  | retryDetailFetch fetched mapOffer =>
      ∀ parsed mapped offer, fetched = .ok (some parsed) → mapOffer source.id parsed = .ok mapped →
        Offer.modelValidate env.pydantic mapped = some offer →
          Storable env.toIngestEnv offer parsed s →
            InRange env.toRunEnv source.configJson (offer.postedAt.getD ⟨env.retriedAt, true⟩)
  | retryValidationFailed t =>
      ∀ rawPayload offer t' s', t.row.rawPayload = some rawPayload →
        Offer.modelValidate env.pydantic rawPayload = some offer →
          t.flush env.postgres s = .ok (t', s') → Storable env.toIngestEnv offer rawPayload s' →
            InRange env.toRunEnv source.configJson (offer.postedAt.getD ⟨env.retriedAt, true⟩)

/-- The session that a call of `persist_offer` leaves. -/
def persisted (env : IngestEnv) (offer : Offer) (rawPayload : Dict) (s : Session) : Session :=
  left (fun raised : Raised => raised.2) (·.2) (persistOffer env offer rawPayload s)

section Persist

variable {env : IngestEnv} {offer : Offer} {rawPayload : Dict} {s s' : Session}

/-- A storable offer is appended. -/
theorem persistOffer_storable (h : Storable env offer rawPayload s) :
    ∃ result s' row, persistOffer env offer rawPayload s = .ok (result, s') ∧
      row.offer = offer ∧ row ∉ s.working.offers ∧
        s'.working.offers = s.working.offers ++ [row] := by
  obtain ⟨hgood, hnew, hfits⟩ := h
  obtain ⟨result, s', hpersist⟩ := (persistOffer_returns_iff hgood).mpr (.inr hfits)
  refine ⟨result, s', ?_⟩
  have hdone := persistOffer_ok hpersist
  generalize hworking : s'.working = w' at hdone
  cases hdone with
  | found hmem hduplicate => exact absurd ⟨_, hmem, hduplicate⟩ hnew
  | @created dedupHash hcontent _ _ =>
      exact ⟨newOfferRow env offer rawPayload dedupHash s.working, hpersist, rfl,
        fun hmem => hcontent _ hmem ⟨rfl, rfl, rfl, rfl, rfl⟩, rfl⟩

/-- Any other offer leaves the offers as they are, and the one that is stored is storable. -/
theorem persistOffer_stores :
    Ends (fun w : Session => w.working.offers = s.working.offers ∨
        Storable env offer rawPayload s ∧
          ∃ row, row.offer = offer ∧ w.working.offers = s.working.offers ++ [row])
      (·.2) (·.2) (persistOffer env offer rawPayload s) := by
  refine persistOffer_ends (fun _ => .inl rfl) fun result w' hgood hreturned => ?_
  have hdone := persistOffer_ok hreturned
  cases hdone with
  | found hmem hduplicate => exact .inl rfl
  | @created dedupHash hcontent hhash hfree =>
      refine .inr ⟨⟨hgood, ?_, ?_⟩, _, rfl, rfl⟩
      · rintro ⟨row, hrow, hduplicate⟩
        rcases hduplicate with hsame | hsame
        · exact hcontent row hrow hsame
        · exact hfree row hrow (Except.ok.inj (hsame.symm.trans hhash))
      · rcases (persistOffer_returns_iff hgood).mp ⟨_, _, hreturned⟩ with
          ⟨row, hrow, hsame⟩ | hfits
        · exact absurd hsame (hcontent row hrow)
        · exact hfits

theorem persisted_offers :
    (persisted env offer rawPayload s).working.offers = s.working.offers ∨
      Storable env offer rawPayload s ∧ ∃ row, row.offer = offer ∧
        (persisted env offer rawPayload s).working.offers = s.working.offers ++ [row] :=
  ends_iff_left.mp persistOffer_stores

end Persist

section Paths

variable {env : RetryEnv} {source : Source} {s : Session} {path : StoringPath} {row : OfferRow}

/-- An offer that the loop of a run lets through is in the range. -/
def LetThrough (env : RunEnv) (source : Source) (row : OfferRow) : Prop :=
  ∃ now, (∃ pass turn, now = env.now pass turn) ∧
    InRange env source.configJson (row.offer.postedAt.getD now)

theorem admitsRun_letThrough {env : RunEnv}
    (hdates : ∀ v, env.parseDatetime v =
      (Pydantic.orNone env.pydantic.datetime v).join) : AdmitsRun env source (LetThrough env source) := by
  intro args hparse ⟨pass, hnow⟩ hrange turn raw mapped offer dedupHash db _ hinside hvalid
  have hposted : args.parseDatetime (mapped.getD "posted_at" .none) = offer.postedAt := by
    rw [hparse, hdates]
    exact Pydantic.field_orNone (Offer.modelValidate_postedAt hvalid)
  refine ⟨env.now pass turn, ⟨pass, turn, rfl⟩, ?_⟩
  unfold InRange
  rw [← hrange]
  rw [effectiveDate, hposted, hnow] at hinside
  exact hinside

/-- The offers are those of before, and some that were let through. -/
def Grown (admitted : OfferRow → Prop) (before s : Session) : Prop :=
  ∀ row ∈ s.working.offers, row ∈ before.working.offers ∨ admitted row

theorem grown_kept {ingestEnv : IngestEnv} {admitted : OfferRow → Prop} :
    KeptFor ingestEnv (fun _ => True) admitted (Grown admitted s) where
  rejected _ h := h
  offer s' row hadmitted h other hother := by
    rcases List.mem_append.mp hother with hold | hnew
    · exact h other hold
    · rw [List.mem_singleton.mp hnew]
      exact .inr hadmitted
  failure _ _ _ h := h

theorem run_storesInRange {connector : ConnectorRun} {forceRefresh : Bool}
    (hdates : ∀ v, env.parseDatetime v = (Pydantic.orNone env.pydantic.datetime v).join) :
    (StoringPath.run connector forceRefresh).StoresInRange env source s := by
  intro row ⟨hstored, hnew⟩
  have hconfig : KeptByConfig source.id (Grown (LetThrough env.toRunEnv source) s) := by
    intro s' configJson db hdone h
    rw [← Attempt.done.inj hdone]
    exact h
  have hends : RunEnds (Grown (LetThrough env.toRunEnv source) s)
      (connector.run env.toRunEnv source forceRefresh { session := s }) :=
    connectorRun_kept grown_kept allowsRun_all (admitsRun_letThrough hdates) hconfig
      fun _ => .inl
  exact (ends_iff_left.mp hends row hstored).resolve_left hnew

/-- A path that leaves the offers as they are. -/
theorem storesInRange_of_same
    (hsame : (path.session env source s).working.offers = s.working.offers) :
    path.StoresInRange env source s := by
  rintro row ⟨hstored, hnew⟩
  rw [hsame] at hstored
  exact absurd hstored hnew

/-- A path that ends by handing an offer to `persist_offer`. -/
theorem storesInRange_iff_handed {offer : Offer} {rawPayload : Dict} {s' : Session}
    (hinstant : ∀ now, path.Instant env now ↔ now = ⟨env.retriedAt, true⟩)
    (hsame : s'.working.offers = s.working.offers)
    (hhanded : (path.session env source s).working.offers =
      (persisted env.toIngestEnv offer rawPayload s').working.offers) :
    path.StoresInRange env source s ↔ (Storable env.toIngestEnv offer rawPayload s' →
      InRange env.toRunEnv source.configJson (offer.postedAt.getD ⟨env.retriedAt, true⟩)) := by
  constructor
  · intro hrange hstorable
    obtain ⟨result, s'', row, hpersist, hoffer, hnew, hoffers⟩ := persistOffer_storable hstorable
    rw [persisted, hpersist] at hhanded
    have hstored : path.Stores env source s row := by
      refine ⟨?_, by rw [← hsame]; exact hnew⟩
      rw [hhanded]
      change row ∈ s''.working.offers
      rw [hoffers]
      exact List.mem_append_right _ (List.mem_singleton_self row)
    obtain ⟨now, hnow, hin⟩ := hrange row hstored
    rw [(hinstant now).mp hnow, hoffer] at hin
    exact hin
  · rintro himp row ⟨hstored, hnew⟩
    rw [hhanded] at hstored
    rcases persisted_offers with hoffers | ⟨hstorable, added, hoffer, hoffers⟩
    · rw [hoffers, hsame] at hstored
      exact absurd hstored hnew
    · rw [hoffers, hsame] at hstored
      have hadded : row = added :=
        List.mem_singleton.mp ((List.mem_append.mp hstored).resolve_left hnew)
      refine ⟨_, (hinstant _).mpr rfl, ?_⟩
      rw [hadded, hoffer]
      exact himp hstorable

theorem left_bind_same {ε α β σ : Type} {raised : ε → σ} {done : α → σ} {done' : β → σ}
    {x : Except ε α} {f : α → β} (h : ∀ a, done' (f a) = done a) :
    left raised done' (x >>= fun a => pure (f a)) = left raised done x := by
  cases x with
  | error e => rfl
  | ok a => exact h a

/-- The posting that was fetched makes a valid offer. -/
def Posting (env : RetryEnv) (source : Source) (fetched : Except PyError (Option Dict))
    (mapOffer : Nat → Dict → Except PyError Dict) (parsed : Dict) (offer : Offer) : Prop :=
  fetched = .ok (some parsed) ∧
    ∃ mapped, mapOffer source.id parsed = .ok mapped ∧
      Offer.modelValidate env.pydantic mapped = some offer

section DetailFetch

variable {fetched : Except PyError (Option Dict)} {mapOffer : Nat → Dict → Except PyError Dict}

theorem retryDetailFetch_posting {parsed : Dict} {offer : Offer}
    (h : Posting env source fetched mapOffer parsed offer) :
    retryDetailFetch env s fetched mapOffer source =
      (persistOffer env.toIngestEnv offer parsed s >>= fun r => pure (true, r.2)) := by
  obtain ⟨rfl, mapped, hmapped, hvalid⟩ := h
  unfold retryDetailFetch normalizeAndValidate
  simp only [Session.lift, Except.mapError, hmapped, hvalid, bind, Except.bind, pure, Except.pure]

theorem retryDetailFetch_noPosting
    (h : ∀ parsed offer, ¬ Posting env source fetched mapOffer parsed offer) :
    Ends (fun s' : Session => s'.working.offers = s.working.offers) (·.2) (·.2)
      (retryDetailFetch env s fetched mapOffer source) := by
  have hoffers : KeptFor env.toIngestEnv (fun _ => True) (fun _ => False)
      (fun s' => s'.working.offers = s.working.offers) :=
    ⟨fun _ h => h, fun _ _ hno _ => hno.elim, fun _ _ _ h => h⟩
  refine ends_bind_same rfl sessionLift_same fun found hfound => ?_
  cases found with
  | none => rfl
  | some parsed =>
      refine ends_bind_same rfl sessionLift_same fun mapped hmapped => ?_
      refine ends_bind_of (normalizeAndValidate_kept hoffers (fun _ _ _ => trivial) rfl)
        fun r hend hr => ?_
      obtain ⟨offer, s'⟩ := r
      cases offer with
      | none => exact hr
      | some offer =>
          exact absurd ⟨Session.lift_ok hfound, mapped, Session.lift_ok hmapped,
            normalizeAndValidate_some hend⟩ (h parsed offer)

theorem retryDetailFetch_storesInRange :
    (StoringPath.retryDetailFetch fetched mapOffer).StoresInRange env source s ↔
      (StoringPath.retryDetailFetch fetched mapOffer).KeepsRange env source s := by
  by_cases hposting : ∃ parsed offer, Posting env source fetched mapOffer parsed offer
  · obtain ⟨parsed, offer, hposting⟩ := hposting
    have hhanded : ((StoringPath.retryDetailFetch fetched mapOffer).session env source s).working =
        (persisted env.toIngestEnv offer parsed s).working := by
      unfold StoringPath.session persisted
      dsimp only
      rw [retryDetailFetch_posting hposting, left_bind_same fun _ => rfl]
    rw [storesInRange_iff_handed (fun _ => Iff.rfl) rfl (congrArg Database.offers hhanded)]
    obtain ⟨rfl, mapped, hmapped, hvalid⟩ := hposting
    constructor
    · intro himp parsed' mapped' offer' hfetched hmapped' hvalid' hstorable
      obtain rfl := Option.some.inj (Except.ok.inj hfetched)
      obtain rfl := Except.ok.inj (hmapped.symm.trans hmapped')
      obtain rfl := Option.some.inj (hvalid.symm.trans hvalid')
      exact himp hstorable
    · exact fun hkeeps => hkeeps parsed mapped offer rfl hmapped hvalid
  · have hnone : ∀ parsed offer, ¬ Posting env source fetched mapOffer parsed offer :=
      fun parsed offer h => hposting ⟨parsed, offer, h⟩
    refine iff_of_true (storesInRange_of_same (ends_iff_left.mp (retryDetailFetch_noPosting hnone))) ?_
    intro parsed mapped offer hfetched hmapped hvalid
    exact absurd ⟨hfetched, mapped, hmapped, hvalid⟩ (hnone parsed offer)

end DetailFetch

section Validation

variable {t t' : Tracked} {s' : Session} {offer : Offer} {rawPayload : Dict}

theorem retryValidationFailed_offer (hpayload : t.row.rawPayload = some rawPayload)
    (hvalid : Offer.modelValidate env.pydantic rawPayload = some offer)
    (hflush : t.flush env.postgres s = .ok (t', s')) :
    retryValidationFailed env t s =
      (persistOffer env.toIngestEnv offer rawPayload s' >>= fun r => pure (true, t', r.2)) := by
  unfold retryValidationFailed
  simp only [hpayload, hvalid, hflush, bind, Except.bind]

theorem retryValidationFailed_noOffer
    (h : ∀ rawPayload offer t' s', t.row.rawPayload = some rawPayload →
      Offer.modelValidate env.pydantic rawPayload = some offer →
        t.flush env.postgres s ≠ .ok (t', s')) :
    Ends (fun s' : Session => s'.working.offers = s.working.offers) (·.2) (·.2.2)
      (retryValidationFailed env t s) := by
  unfold retryValidationFailed
  split
  · rfl
  · next rawPayload hpayload =>
    split
    · rfl
    · next offer hvalid =>
      have hoffers : KeptByRow (fun _ => True)
          fun s' : Session => s'.working.offers = s.working.offers :=
        ⟨fun _ h => h, fun _ _ _ h => h⟩
      refine ends_bind_of (flush_keeps hoffers trivial rfl) fun r hflush _ => ?_
      exact absurd hflush (h rawPayload offer r.1 r.2 hpayload hvalid)

theorem retryValidationFailed_storesInRange :
    (StoringPath.retryValidationFailed t).StoresInRange env source s ↔
      (StoringPath.retryValidationFailed t).KeepsRange env source s := by
  by_cases hoffer : ∃ rawPayload offer t' s', t.row.rawPayload = some rawPayload ∧
      Offer.modelValidate env.pydantic rawPayload = some offer ∧
        t.flush env.postgres s = .ok (t', s')
  · obtain ⟨rawPayload, offer, t', s', hpayload, hvalid, hflush⟩ := hoffer
    have hhanded : ((StoringPath.retryValidationFailed t).session env source s).working =
        (persisted env.toIngestEnv offer rawPayload s').working := by
      unfold StoringPath.session persisted
      dsimp only
      rw [retryValidationFailed_offer hpayload hvalid hflush, left_bind_same fun _ => rfl]
    have hsame : s'.working.offers = s.working.offers := by
      rw [(flush_ok hflush).2.1]
      rfl
    rw [storesInRange_iff_handed (fun _ => Iff.rfl) hsame (congrArg Database.offers hhanded)]
    constructor
    · intro himp rawPayload' offer' t'' s'' hpayload' hvalid' hflush' hstorable
      obtain rfl := Option.some.inj (hpayload.symm.trans hpayload')
      obtain rfl := Option.some.inj (hvalid.symm.trans hvalid')
      obtain ⟨rfl, rfl⟩ := Prod.mk.inj (Except.ok.inj (hflush.symm.trans hflush'))
      exact himp hstorable
    · exact fun hkeeps => hkeeps rawPayload offer t' s' hpayload hvalid hflush
  · have hnone : ∀ rawPayload offer t' s', t.row.rawPayload = some rawPayload →
        Offer.modelValidate env.pydantic rawPayload = some offer →
          t.flush env.postgres s ≠ .ok (t', s') :=
      fun rawPayload offer t' s' hpayload hvalid hflush =>
        hoffer ⟨rawPayload, offer, t', s', hpayload, hvalid, hflush⟩
    refine iff_of_true
      (storesInRange_of_same (ends_iff_left.mp (retryValidationFailed_noOffer hnone))) ?_
    intro rawPayload offer t' s' hpayload hvalid hflush
    exact absurd hflush (hnone rawPayload offer t' s' hpayload hvalid)

end Validation

/-- Every run stores in the range; a retry does so exactly when the offer that it has to
store, if any, is in the range. -/
theorem storesInRange_iff
    (hdates : ∀ v, env.parseDatetime v = (Pydantic.orNone env.pydantic.datetime v).join) :
    path.StoresInRange env source s ↔ path.KeepsRange env source s := by
  cases path with
  | run connector forceRefresh => exact iff_of_true (run_storesInRange hdates) trivial
  | retryDetailFetch fetched mapOffer => exact retryDetailFetch_storesInRange
  | retryValidationFailed t => exact retryValidationFailed_storesInRange

end Paths

/-! ## A posting from before the range -/

/-- The start of a year, in UTC. -/
def newYears : List (String × Int) :=
  [("2025-01-01T00:00:00Z", 1735689600000000), ("2026-01-01T00:00:00Z", 1767225600000000)]

def isoDatetime : PyValue → Option DateTime
  | .str text => (newYears.lookup text).map (⟨·, true⟩)
  | _ => none

def rangeRetryEnv : RetryEnv :=
  { acmeRunEnv with
    pydantic := { acmeEnv.pydantic with datetime := isoDatetime }
    parseDatetime := fun v => (Pydantic.orNone isoDatetime v).join
    registry := quietRegistry
    detail := fun _ _ => .ok none
    fetchedAt := 1767225600000006
    retriedAt := 1767225600000007 }

def rangedSource : Source where
  id := 1
  name := "bulldogjob"
  connector := some "bulldogjob"
  configJson := ⟨[("fetch_range",
    .dict [("mode", .str "range"), ("since", .str "2026-01-01T00:00:00Z")])]⟩
  lastFetchedAt := none

/-- The retry of a posting that was blocked. -/
def postedRetry (postedAt : String) : StoringPath :=
  .retryDetailFetch (.ok (some ((acmeFields "a").set "posted_at" (.str postedAt))))
    fun _ parsed => .ok parsed

/-- The retry stores an offer of the year before. -/
theorem retry_stores_old_posting :
    ¬ (postedRetry "2025-01-01T00:00:00Z").StoresInRange rangeRetryEnv rangedSource
      (.opened { sources := [rangedSource] }) := by
  intro hrange
  have hstored : ∃ row,
      ((postedRetry "2025-01-01T00:00:00Z").session rangeRetryEnv rangedSource
          (.opened { sources := [rangedSource] })).working.offers = [row] ∧
        row.offer.postedAt = some ⟨1735689600000000, true⟩ := ⟨_, by rfl, by rfl⟩
  obtain ⟨row, hoffers, hposted⟩ := hstored
  obtain ⟨now, _, hin⟩ := hrange row ⟨by rw [hoffers]; exact List.mem_singleton_self row,
    List.not_mem_nil⟩
  rw [hposted] at hin
  change InRange rangeRetryEnv.toRunEnv rangedSource.configJson ⟨1735689600000000, true⟩ at hin
  exact absurd hin (by decide)

theorem storesInRange_new_posting :
    (postedRetry "2026-01-01T00:00:00Z").StoresInRange rangeRetryEnv rangedSource
      (.opened { sources := [rangedSource] }) := by
  apply (storesInRange_iff fun _ => rfl).mpr
  intro parsed mapped offer hfetched hmapped hvalid _
  obtain rfl := Option.some.inj (Except.ok.inj hfetched)
  obtain rfl := Except.ok.inj hmapped
  have hposted : some (some ⟨1767225600000000, true⟩) = some offer.postedAt :=
    Offer.modelValidate_postedAt hvalid
  rw [← Option.some.inj hposted]
  change InRange rangeRetryEnv.toRunEnv rangedSource.configJson ⟨1767225600000000, true⟩
  decide

end RecruFlow.Dlq
