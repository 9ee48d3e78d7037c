import RecruFlow.Connectors.Pracuj
import RecruFlow.Connectors.SitemapDetail
import RecruFlow.Ingestion.Lifecycle
import RecruFlow.Lib.Outcome

/-!
# What a run keeps

A run inserts offers, records failures and writes the configuration of its
source; a statement may also be rejected. What these keep, the session that a
run leaves has, whether it succeeds, fails or raises.
-/

namespace RecruFlow.Ingestion

open Connectors Db Dlq Lib.Outcome Lib.Pages Lib.Transaction

/-- What the column stores of a key is allowed. -/
def StoredIn (allowed : String → Prop) (dedupKey : String) : Prop :=
  ∀ key, storedKey dedupKey = some key → allowed key

/-- Ingesting offers, and recording failures under allowed keys, keeps a
property of the session. -/
structure Kept (env : IngestEnv) (allowed : String → Prop) (P : Session → Prop) : Prop where
  rejected : ∀ s, P s → P { s with aborted := true }
  offer : ∀ s row, P s → P { s with working := { s.working with
    offers := s.working.offers ++ [row], nextOfferId := s.working.nextOfferId + 1 } }
  failure : ∀ s fields, allowed fields.dedupKey → P s →
    P { s with working := recordIngestionFailure env.startedAt fields s.working }

/-- As `Kept`, but only the rows that are `admitted` are inserted. -/
structure KeptFor (env : IngestEnv) (allowed : String → Prop) (admitted : OfferRow → Prop)
    (P : Session → Prop) : Prop where
  rejected : ∀ s, P s → P { s with aborted := true }
  offer : ∀ s row, admitted row → P s → P { s with working := { s.working with
    offers := s.working.offers ++ [row], nextOfferId := s.working.nextOfferId + 1 } }
  failure : ∀ s fields, allowed fields.dedupKey → P s →
    P { s with working := recordIngestionFailure env.startedAt fields s.working }

theorem Kept.onAll {env : IngestEnv} {allowed : String → Prop} {P : Session → Prop}
    (h : Kept env allowed P) : KeptFor env allowed (fun _ => True) P where
  rejected := h.rejected
  offer s row _ := h.offer s row
  failure := h.failure

/-- The rows that the loop may insert are admitted: they are those of the records which
map, are in the range and are valid. -/
def AdmitsRecords (env : IngestEnv) (args : RunnerArgs) (admitted : OfferRow → Prop) : Prop :=
  ∀ turn raw mapped offer dedupHash db, args.mapOffer args.sourceId raw = .ok mapped →
    outsideRange args.since args.limit (effectiveDate args turn mapped) = .ok false →
      Schemas.Offer.modelValidate env.pydantic mapped = some offer →
        admitted (newOfferRow env offer raw dedupHash db)

/-- So are the rows that a run of the source may insert. -/
def AdmitsRun (env : RunEnv) (source : Source) (admitted : OfferRow → Prop) : Prop :=
  ∀ args : RunnerArgs, args.parseDatetime = env.parseDatetime →
    (∃ pass, args.now = env.now pass) →
      (args.since, args.limit) =
          resolveFetchRange env.parseDatetime (source.configJson.get "fetch_range") →
        AdmitsRecords env.toIngestEnv args admitted

theorem admitsRecords_all {env : IngestEnv} {args : RunnerArgs} :
    AdmitsRecords env args fun _ => True :=
  fun _ _ _ _ _ _ _ _ _ => trivial

theorem admitsRun_all {env : RunEnv} {source : Source} : AdmitsRun env source fun _ => True :=
  fun _ _ _ _ => admitsRecords_all

/-- Writing the configuration of the source keeps a property of the session. -/
def KeptByConfig (sourceId : Nat) (P : Session → Prop) : Prop :=
  ∀ s configJson db, updateConfig sourceId configJson s.working = .done db → P s →
    P { s with working := db }

/-- The keys that a run records failures under are allowed. -/
structure AllowsRun (env : RunEnv) (sourceId : Nat) (allowed : String → Prop) : Prop where
  validation : ∀ rest, StoredIn allowed ("validation:" ++ rest)
  detail : ∀ url, StoredIn allowed (buildDetailUrlDedupKey env sourceId url)
  source : StoredIn allowed ("source:" ++ toString sourceId)

theorem allowsRun_all {env : RunEnv} {sourceId : Nat} : AllowsRun env sourceId fun _ => True :=
  ⟨fun _ _ _ => trivial, fun _ _ _ => trivial, fun _ _ => trivial⟩

section Loop

variable {env : IngestEnv} {args : RunnerArgs} {allowed : String → Prop}
  {admitted : OfferRow → Prop} {P : Session → Prop} {s : Session} {fields : IngestionFields}
  {mapped raw : Dict} {w : Walk} {state : RunState}

theorem attempt_kept {f : Database → Attempt Database}
    (hrejected : ∀ s, P s → P { s with aborted := true })
    (hf : ∀ s db, f s.working = .done db → P s → P { s with working := db }) (h : P s) :
    P (attempt f s).2 := by
  unfold attempt
  split
  · exact h
  · split
    · next db hdone => exact hf s db hdone h
    · exact h
    · exact hrejected s h

theorem write_kept {f : Database → Attempt Database}
    (hrejected : ∀ s, P s → P { s with aborted := true })
    (hf : ∀ s db, f s.working = .done db → P s → P { s with working := db }) (h : P s) :
    Ends P (·.2) id (s.write f) := by
  have hattempt : P (attempt f s).2 := attempt_kept hrejected hf h
  unfold Session.write
  split
  · next hdone =>
    rw [hdone] at hattempt
    exact hattempt
  · next hfailed =>
    rw [hfailed] at hattempt
    exact hattempt

theorem recordFailure_kept (hkept : KeptFor env allowed admitted P)
    (hkey : StoredIn allowed fields.dedupKey) (h : P s) : P (recordFailure env.postgres env.startedAt fields s) := by
  refine attempt_kept hkept.rejected (fun s db hdone hs => ?_) h
  obtain ⟨key, hstored, rfl⟩ := insertIngestionFailure_done hdone
  exact hkept.failure s { fields with dedupKey := key } (hkey key hstored) hs

theorem validationFailureDedupKey_ok {key : String}
    (h : validationFailureDedupKey env raw = .ok key) : ∃ rest, key = "validation:" ++ rest := by
  unfold validationFailureDedupKey at h
  dsimp only at h
  split at h
  · split at h
    · obtain ⟨normalized, _, h⟩ := bind_ok h
      exact ⟨normalized, (Except.ok.inj h).symm⟩
    · cases h
  · have hkey := (Except.ok.inj h).symm
    simp only [String.append_assoc] at hkey
    exact ⟨_, hkey⟩

theorem sessionLift_same {α : Type} {x : Except PyError α} (raised : Raised)
    (h : Session.lift x s = .error raised) : raised.2 = s := by
  cases x with
  | error e => rw [← Except.error.inj h]
  | ok a => cases h

theorem select_same {α : Type} {query : Database → α} (raised : Raised)
    (h : s.select query = .error raised) : raised.2 = s := by
  unfold Session.select at h
  split at h
  · rw [← Except.error.inj h]
  · cases h

theorem insertOffer_kept {offer : Schemas.Offer} {dedupHash : String}
    (hkept : KeptFor env allowed admitted P)
    (hadmitted : ∀ db, admitted (newOfferRow env offer raw dedupHash db)) (h : P s) :
    Ends P (·.2) (·.2) (s.execute (insertOffer env offer raw dedupHash)) := by
  unfold Session.execute
  split
  · exact h
  · split
    · next created db hdone =>
      have hcases := insertOffer_done hdone
      split at hcases
      · rw [hcases.2]
        exact h
      · rw [hcases.2]
        exact hkept.offer s _ (hadmitted _) h
    · exact h
    · exact hkept.rejected s h

theorem persistOffer_kept {offer : Schemas.Offer} (hkept : KeptFor env allowed admitted P)
    (hadmitted : ∀ dedupHash db, admitted (newOfferRow env offer raw dedupHash db)) (h : P s) :
    Ends P (·.2) (·.2) (persistOffer env offer raw s) := by
  refine ends_bind_same h select_same fun duplicate _ => ?_
  cases duplicate with
  | some row => exact h
  | none =>
      refine ends_bind_same h sessionLift_same fun dedupHash _ => ?_
      refine ends_bind (insertOffer_kept hkept (hadmitted dedupHash) h) fun r hr => ?_
      obtain ⟨created, s'⟩ := r
      refine ends_bind_same hr select_same fun row _ => ?_
      cases row with
      | some row => exact hr
      | none => exact hr

theorem recordInvalid_kept (hkept : KeptFor env allowed admitted P)
    (hvalidation : ∀ rest, StoredIn allowed ("validation:" ++ rest)) (h : P s) :
    Ends P (·.2) id (recordInvalid env raw s) := by
  refine ends_bind_same h sessionLift_same fun key hkey => ?_
  obtain ⟨rest, rfl⟩ := validationFailureDedupKey_ok (Session.lift_ok hkey)
  split
  · exact h
  · exact recordFailure_kept hkept (hvalidation rest) h
  · exact h

theorem normalizeAndValidate_kept (hkept : KeptFor env allowed admitted P)
    (hvalidation : ∀ rest, StoredIn allowed ("validation:" ++ rest)) (h : P s) :
    Ends P (·.2) (·.2) (normalizeAndValidate env mapped s) := by
  unfold normalizeAndValidate
  split
  · exact h
  · exact ends_bind (recordInvalid_kept hkept hvalidation h) fun s' hs' => hs'

theorem normalizeAndValidate_some {offer : Schemas.Offer} {s' : Session}
    (h : normalizeAndValidate env mapped s = .ok (some offer, s')) :
    Schemas.Offer.modelValidate env.pydantic mapped = some offer := by
  unfold normalizeAndValidate at h
  split at h
  · next found hvalid =>
    rw [hvalid]
    exact congrArg some (Option.some.inj (Prod.mk.inj (Except.ok.inj h)).1)
  · obtain ⟨s₁, _, hend⟩ := bind_ok h
    cases (Prod.mk.inj (Except.ok.inj hend)).1

theorem ingestOffer_kept (hkept : KeptFor env allowed admitted P)
    (hvalidation : ∀ rest, StoredIn allowed ("validation:" ++ rest))
    (hadmitted : ∀ offer dedupHash db, Schemas.Offer.modelValidate env.pydantic mapped = some offer →
      admitted (newOfferRow env offer raw dedupHash db)) (h : P s) :
    Ends P (·.2) (·.2) (ingestOffer env mapped raw s) := by
  refine ends_bind_of (normalizeAndValidate_kept hkept hvalidation h) fun r hend hr => ?_
  obtain ⟨offer, s'⟩ := r
  cases offer with
  | none => exact hr
  | some offer =>
      have hvalid := normalizeAndValidate_some hend
      exact ends_bind (persistOffer_kept hkept
        (fun dedupHash db => hadmitted offer dedupHash db hvalid) hr) fun _ hs => hs

theorem walkLift_same {α : Type} {x : Except PyError α} (raised : PyError × Walk)
    (h : w.lift x = .error raised) : raised.2.session = w.session := by
  obtain ⟨e, w'⟩ := raised
  rw [(lift_error h).2]

@[simp] theorem count_session (result : Option (OfferRow × Bool)) :
    (w.count result).session = w.session := by
  match result with
  | none => rfl
  | some (_, true) => rfl
  | some (_, false) => rfl

theorem ingestRecord_kept (hkept : KeptFor env allowed admitted P)
    (hvalidation : ∀ rest, StoredIn allowed ("validation:" ++ rest))
    (hadmits : AdmitsRecords env args admitted) (h : P w.session) :
    Ends P (·.2.session) (·.2.session) (ingestRecord env args w raw) := by
  refine ends_bind_same h walkLift_same fun mapped hmapped => ?_
  refine ends_bind_same h walkLift_same fun recent _ => ?_
  refine ends_bind_same h walkLift_same fun outside houtside => ?_
  cases outside with
  | true => exact h
  | false =>
      dsimp only
      rw [if_neg Bool.false_ne_true]
      have hingest : Ends P (·.2) (·.2) (ingestOffer env mapped raw w.session) :=
        ingestOffer_kept hkept hvalidation (fun offer dedupHash db =>
          hadmits w.turn raw mapped offer dedupHash db (lift_ok hmapped) (lift_ok houtside)) h
      cases hend : ingestOffer env mapped raw w.session with
      | ok r =>
          rw [hend] at hingest
          simpa [Ends, pure, Except.pure] using hingest
      | error raised =>
          rw [hend] at hingest
          exact hingest

theorem step_kept (hkept : KeptFor env allowed admitted P)
    (hvalidation : ∀ rest, StoredIn allowed ("validation:" ++ rest))
    (hadmits : AdmitsRecords env args admitted) (h : P w.session) :
    Ends P (·.2.session) (·.session) (step env args w raw) :=
  ends_map (ingestRecord_kept hkept hvalidation hadmits h) fun _ hr => hr

section Run

variable {Cursor : Type} {fetchPage : FetchPage Cursor} {initialCursor : Cursor}

/-- The walk ends as going through its records does. -/
theorem walkFeed_ends
    (hfold : Ends P (·.2.session) (·.session)
      ((walked env args fetchPage initialCursor state).foldlM (step env args) (.start state))) :
    Ends P (·.2.session) (·.2.2.session) (walkFeed env args fetchPage initialCursor state) := by
  rw [← walkFeed_records] at hfold
  cases hwalk : walkFeed env args fetchPage initialCursor state with
  | error raised =>
      rw [hwalk] at hfold
      exact hfold
  | ok r =>
      rw [hwalk] at hfold
      exact hfold

theorem walkFeed_kept (hkept : KeptFor env allowed admitted P)
    (hvalidation : ∀ rest, StoredIn allowed ("validation:" ++ rest))
    (hadmits : AdmitsRecords env args admitted) (h : P state.session) :
    Ends P (·.2.session) (·.2.2.session) (walkFeed env args fetchPage initialCursor state) :=
  walkFeed_ends (ends_foldlM h fun _ _ hw => step_kept hkept hvalidation hadmits hw)

/-- After the walk, a run can only record that a page could not be fetched. -/
theorem runPaginatedIngestion_ends (hkept : KeptFor env allowed admitted P)
    (hsource : StoredIn allowed ("source:" ++ toString args.sourceId))
    (hwalk : Ends P (·.2.session) (·.2.2.session)
      (walkFeed env args fetchPage initialCursor state)) :
    Ends P (·.2.session) (·.2.session)
      (runPaginatedIngestion env args fetchPage initialCursor state) := by
  rw [runPaginatedIngestion_eq]
  cases hend : walkFeed env args fetchPage initialCursor state with
  | error raised =>
      rw [hend] at hwalk
      exact hwalk
  | ok r =>
      obtain ⟨stopped, older, w⟩ := r
      rw [hend] at hwalk
      change P (afterWalk _ _ _ _ _ _).2.session
      unfold afterWalk
      split
      · unfold pageFailure
        dsimp only
        split
        · exact hwalk
        · exact recordFailure_kept hkept hsource hwalk
      · exact hwalk

/-- What the loop of all connectors keeps. -/
theorem runPaginatedIngestion_kept (hkept : KeptFor env allowed admitted P)
    (hvalidation : ∀ rest, StoredIn allowed ("validation:" ++ rest))
    (hadmits : AdmitsRecords env args admitted)
    (hsource : StoredIn allowed ("source:" ++ toString args.sourceId)) (h : P state.session) :
    Ends P (·.2.session) (·.2.session)
      (runPaginatedIngestion env args fetchPage initialCursor state) :=
  runPaginatedIngestion_ends hkept hsource (walkFeed_kept hkept hvalidation hadmits h)

end Run

end Loop

section Connectors

variable {env : RunEnv} {source : Source} {allowed : String → Prop} {admitted : OfferRow → Prop}
  {P : Session → Prop} {state : RunState} {forceRefresh : Bool}

/-- The session of a run, in both of its outcomes. -/
abbrev RunEnds (P : Session → Prop) (outcome : RunOutcome) : Prop :=
  Ends P (·.2.session) (·.2.session) outcome

theorem runLift_same {α : Type} {x : Except PyError α} (raised : PyError × RunState)
    (h : Connectors.lift state x = .error raised) : raised.2.session = state.session := by
  cases x with
  | error e => rw [← Except.error.inj h]
  | ok a => cases h

theorem liftSession_same {α : Type} {x : Except Raised α} {s : Session}
    (hx : ∀ raised, x = .error raised → raised.2 = s) (raised : PyError × RunState)
    (h : liftSession state x = .error raised) : raised.2.session = s := by
  cases x with
  | error e =>
      rw [← Except.error.inj h]
      exact hx e rfl
  | ok a => cases h

theorem liftSession_ok {α : Type} {x : Except Raised α} {a : α} (h : liftSession state x = .ok a) :
    x = .ok a :=
  mapError_ok h

theorem runLift_ok {α : Type} {x : Except PyError α} {a : α}
    (h : Connectors.lift state x = .ok a) : x = .ok a :=
  mapError_ok h

theorem resolveFetchScopeTerms_same {config : Dict} {s : Session} (raised : Raised)
    (h : resolveFetchScopeTerms config s = .error raised) : raised.2 = s := by
  unfold resolveFetchScopeTerms at h
  split at h
  · cases h
  · rcases bind_error h with hselect | ⟨profile, _, hrest⟩
    · exact select_same raised hselect
    · cases hrest

theorem readPracujConfig_range {configJson : Dict} {config : PracujConfig}
    (h : readPracujConfig env configJson = .ok config) :
    (config.since, config.limit) =
      resolveFetchRange env.parseDatetime (configJson.get "fetch_range") := by
  obtain ⟨limits, _, h⟩ := bind_ok h
  obtain ⟨cursor, _, h⟩ := bind_ok h
  rw [← Except.ok.inj h]
  rfl

variable (hkept : KeptFor env.toIngestEnv allowed admitted P)
include hkept

theorem record_kept {fields : IngestionFields} (hkey : StoredIn allowed fields.dedupKey)
    (h : P state.session) : P (record env fields state).session :=
  recordFailure_kept hkept hkey h

theorem recordBlocked_kept {name : String} {blocked : List (String × Nat)}
    (hdetail : ∀ url, StoredIn allowed (buildDetailUrlDedupKey env source.id url))
    (h : P state.session) : P (recordBlocked env source.id name blocked state).session := by
  induction blocked generalizing state with
  | nil => exact h
  | cons b blocked ih => exact ih (record_kept hkept (hdetail b.1) h)

theorem pracuj_recordBlockedUrls_kept {conn : PracujConnector} {blocked : List (PyValue × Nat)}
    (hdetail : ∀ url, StoredIn allowed (buildDetailUrlDedupKey env source.id url))
    (h : P state.session) :
    Ends P (·.2.session) (·.session) (conn.recordBlockedUrls env source blocked state) := by
  induction blocked generalizing state with
  | nil => exact h
  | cons b blocked ih =>
      obtain ⟨url, statusCode⟩ := b
      cases url with
      | str url => exact ih (record_kept hkept (hdetail url) h)
      | _ => exact h

theorem writeConfig_kept {configJson : Dict} (hconfig : KeptByConfig source.id P)
    (h : P state.session) :
    Ends P (·.2.session) (·.session) (writeConfig source.id configJson state) := by
  have hwrite : Ends P (·.2) id (state.session.write (updateConfig source.id configJson)) :=
    write_kept hkept.rejected (fun s db hdone hs => hconfig s configJson db hdone hs) h
  unfold writeConfig
  cases hend : state.session.write (updateConfig source.id configJson) with
  | error raised =>
      rw [hend] at hwrite
      exact hwrite
  | ok session =>
      rw [hend] at hwrite
      exact hwrite

variable (hallowed : AllowsRun env source.id allowed) (hadmits : AdmitsRun env source admitted)
include hallowed hadmits

omit hkept hallowed hadmits in
theorem runTerms_kept {pass : Nat → String → RunState → RunOutcome}
    (hpass : ∀ number term (state : RunState), P state.session →
      RunEnds P (pass number term state))
    {terms : List String} {number fetched created : Nat} (h : P state.session) :
    RunEnds P (runTerms pass terms number fetched created state) := by
  induction terms generalizing number fetched created state with
  | nil => exact h
  | cons term terms ih =>
      refine ends_bind (hpass number term state h) fun r hr => ?_
      obtain ⟨result, state'⟩ := r
      dsimp only
      split
      · exact ih hr
      · exact hr

theorem jobBoard_runPass_kept {Cursor : Type} {conn : JobBoardConnector Cursor} {limits : Limits}
    {config : Dict} {pass : Nat} (h : P state.session) :
    RunEnds P (conn.runPass env source forceRefresh limits config pass state) :=
  runPaginatedIngestion_kept hkept hallowed.validation (hadmits _ rfl ⟨pass, rfl⟩ rfl)
    hallowed.source h

theorem jobBoard_run_kept {Cursor : Type} {conn : JobBoardConnector Cursor}
    (h : P state.session) : RunEnds P (conn.run env source forceRefresh state) := by
  refine ends_bind_same h runLift_same fun limits _ => ?_
  refine ends_bind_same h runLift_same fun limits' _ => ?_
  have hpass : ∀ config pass (state : RunState), P state.session →
      RunEnds P (conn.runPass env source forceRefresh limits' config pass state) :=
    fun _ _ _ hs => jobBoard_runPass_kept hkept hallowed hadmits hs
  split
  · refine ends_bind_same h (liftSession_same resolveFetchScopeTerms_same) fun resolution _ => ?_
    split
    · exact h
    · refine runTerms_kept (fun number term s hs => ?_) h
      refine ends_bind (hpass _ number s hs) fun r hr => ?_
      obtain ⟨result, s'⟩ := r
      exact hr
    · exact hpass _ _ _ h
  · exact hpass _ _ _ h

theorem weWorkRemotely_run_kept {feed : Fetched (List Dict)}
    {mapOffer : Nat → Dict → Except PyError Dict} (h : P state.session) :
    RunEnds P (runWeWorkRemotelyIngestion env feed mapOffer source forceRefresh state) := by
  refine ends_bind_same h runLift_same fun threshold _ => ?_
  exact jobBoard_runPass_kept hkept hallowed hadmits h

/-- The loop of a sitemap run, without the cursor that it may persist. -/
theorem sitemap_runLoop_kept {conn : SitemapDetailPageConnector} {limits : Limits}
    {urls : List String} {initialCursor pass : Nat} (h : P state.session) :
    RunEnds P (conn.runLoop env source forceRefresh limits urls initialCursor pass state) :=
  runPaginatedIngestion_kept hkept hallowed.validation (hadmits _ rfl ⟨pass, rfl⟩ rfl)
    hallowed.source h

variable (hconfig : KeptByConfig source.id P)
include hconfig

theorem sitemap_runOverUrls_kept {conn : SitemapDetailPageConnector} {urls : List String}
    {persistCursor : Bool} {pass : Nat} (h : P state.session) :
    RunEnds P (conn.runOverUrls env source forceRefresh urls persistCursor pass state) := by
  refine ends_bind_same h runLift_same fun limits _ => ?_
  refine ends_bind_same h runLift_same fun initialCursor _ => ?_
  refine ends_bind (sitemap_runLoop_kept hkept hallowed hadmits h) fun r hr => ?_
  obtain ⟨result, state'⟩ := r
  have hblocked := @recordBlocked_kept env source allowed admitted P state' hkept conn.name
    (SitemapDetailPageConnector.blockedDetails (conn.fetchDetails pass initialCursor
      ((urls.drop initialCursor).take (state'.pagesFetched * limits.pageSize))))
    hallowed.detail hr
  dsimp only
  split
  · exact ends_bind (writeConfig_kept hkept hconfig hblocked) fun state'' hs => hs
  · exact hblocked

theorem sitemap_run_kept {conn : SitemapDetailPageConnector} (h : P state.session) :
    RunEnds P (conn.run env source forceRefresh state) := by
  have hover : ∀ urls persistCursor pass (state : RunState), P state.session →
      RunEnds P (conn.runOverUrls env source forceRefresh urls persistCursor pass state) :=
    fun _ _ _ _ hs => sitemap_runOverUrls_kept hkept hallowed hadmits hconfig hs
  have hall : RunEnds P (conn.runAll env source forceRefresh state) := by
    unfold SitemapDetailPageConnector.runAll
    dsimp only
    split
    · exact h
    · exact h
    · exact hover _ _ _ _ h
  unfold SitemapDetailPageConnector.run
  split
  · refine ends_bind_same h (liftSession_same resolveFetchScopeTerms_same) fun resolution _ => ?_
    split
    · exact h
    · refine runTerms_kept (fun _ _ _ hs => ?_) h
      unfold SitemapDetailPageConnector.termPass
      dsimp only
      split
      · exact hs
      · exact hs
      · exact ends_bind (hover _ _ _ _ hs) fun _ hr => hr
    · exact hall
  · exact hall

theorem pracuj_runEnumerated_kept {conn : PracujConnector} {config : PracujConfig}
    {terms : List String} {e : PracujOffers}
    (hread : readPracujConfig env source.configJson = .ok config) (h : P state.session) :
    RunEnds P (conn.runEnumerated env source forceRefresh config terms e state) := by
  unfold PracujConnector.runEnumerated
  dsimp only
  split
  · have hmid : P (conn.recordMidRun env source e
        { state with fetchFailed := state.fetchFailed || e.listingFailed }).session := by
      unfold PracujConnector.recordMidRun
      split
      · exact record_kept hkept hallowed.source h
      · exact h
    have hreplay : RunEnds P (conn.replay env source forceRefresh config e.offers _) :=
      runPaginatedIngestion_kept hkept hallowed.validation
        (hadmits _ rfl ⟨0, rfl⟩ (readPracujConfig_range hread)) hallowed.source hmid
    refine ends_bind hreplay fun r hr => ?_
    obtain ⟨result, state'⟩ := r
    have hafter : Ends P (fun raised : PyError × RunState => raised.2.session) (·.session)
        (conn.afterReplay env source terms e state') := by
      refine ends_bind (pracuj_recordBlockedUrls_kept hkept hallowed.detail hr) fun state'' hs => ?_
      split
      · exact writeConfig_kept hkept hconfig hs
      · exact hs
    exact ends_bind hafter fun state'' hs => hs
  · exact h

/-- What the run of any connector keeps. -/
theorem connectorRun_kept {run : ConnectorRun} (h : P state.session) :
    RunEnds P (run.run env source forceRefresh state) := by
  cases run with
  | cursor conn => exact jobBoard_run_kept hkept hallowed hadmits h
  | weWorkRemotely feed mapOffer => exact weWorkRemotely_run_kept hkept hallowed hadmits h
  | sitemap conn => exact sitemap_run_kept hkept hallowed hadmits hconfig h
  | pracuj conn =>
      refine ends_bind_same h runLift_same fun config hread => ?_
      refine ends_bind_same h (liftSession_same resolveFetchScopeTerms_same) fun scope _ => ?_
      split
      · exact h
      · refine ends_bind_same h runLift_same fun e _ => ?_
        exact pracuj_runEnumerated_kept hkept hallowed hadmits hconfig (runLift_ok hread) h

end Connectors

end RecruFlow.Ingestion
