import RecruFlow.Ingestion.DeadLetters
import RecruFlow.Connectors.PracujReplay

/-!
# Is every failed listing recorded?

A failed result is recorded after the run, a failed page during it. Two places
take what the other listings gave for a success: the terms of a filtered
Pracuj.pl run, and the sub-sitemaps of Rocket Jobs.
-/

namespace RecruFlow.Ingestion

open Connectors Db Dlq Lib.Outcome Lib.Transaction

def sourceKey (source : Source) : String :=
  "source:" ++ toString source.id

/-- An open failure under a key, recorded in the transaction that began at an instant. -/
def RecordedIn (key : String) (startedAt : Int) (rows : List IngestionFailure) : Prop :=
  ∃ row ∈ rows, row.dedupKey = key ∧ row.status = .open ∧ row.occurredAt = startedAt

/-- No failure under the key is of that transaction. -/
def Unrecorded (key : String) (startedAt : Int) (rows : List IngestionFailure) : Prop :=
  ∀ row ∈ rows, row.dedupKey = key → row.occurredAt ≠ startedAt

/-- The values of a failure under the key of the source can be sent. -/
def SourceFailuresSent (env : IngestEnv) (source : Source) : Prop :=
  ∀ (row : IngestionFailure) (db : Database), row.dedupKey = sourceKey source →
    env.postgres.ingestionFailure row db ≠ .unsent

/-- The calls of `_collect_offers` for the terms of a filtered run. -/
def termEnumerations (site : Nat → String → PracujSite) (limits : Limits) :
    List String → (number : Nat) → Except PyError (List Enumeration)
  | [], _ => .ok []
  | term :: terms, number => do
      let e ← collectOffers (site number term) 1 limits.pageSize limits.maxPages
      let rest ← termEnumerations site limits terms (number + 1)
      pure (e :: rest)

/-- A run that takes a failed listing for a success. -/
def HidesFailure (env : RunEnv) (source : Source) (db : Database) : ConnectorRun → Prop
  | .cursor _ => False
  | .weWorkRemotely _ _ => False
  | .sitemap conn =>
      -- one sitemap failed, others gave urls
      (conn.supportsFetchScope = true →
        resolveFetchScopeMode (source.configJson.get "fetch_scope") = .all) ∧
      (conn.fetchSitemapUrls source.configJson).failed = true ∧
      ∃ urls, (conn.fetchSitemapUrls source.configJson).urls = .got urls
  | .pracuj conn =>
      -- the first page of a term failed, another term went through, no later page failed
      ∃ config scope es, readPracujConfig env source.configJson = .ok config ∧
        resolveFetchScopeTerms source.configJson (.opened db) = .ok scope ∧
        scope.blockedReason = none ∧
        termEnumerations conn.site config.limits scope.terms 0 = .ok es ∧
        (∃ e ∈ es, e.enumerationOk = false) ∧ (∃ e ∈ es, e.enumerationOk = true) ∧
        ∀ e ∈ es, e.midRunFailure = false

/-! ## The keys of the failures -/

/-- What is stored under the key of the source was recorded under it. -/
theorem stored_source_key {source : Source} {key : String}
    (h : storedKey (sourceKey source) = some key) : key = sourceKey source := by
  refine storedKey_of_no_space (fun c hc => ?_) h
  rw [sourceKey, String.toList_append] at hc
  rcases List.mem_append.mp hc with hprefix | hdigits
  · rintro rfl
    simp at hprefix
  · rintro rfl
    exact Python.notMem_toString rfl source.id hdigits

theorem validation_ne_source (source : Source) (rest : String) :
    StoredIn (· ≠ sourceKey source) ("validation:" ++ rest) := by
  rintro key hstored rfl
  obtain ⟨pad, hpad, _⟩ := storedKey_eq_append hstored
  rw [sourceKey, String.toList_append, String.toList_append] at hpad
  have hhead := congrArg List.head? hpad
  simp at hhead

theorem detail_ne_source {env : RunEnv} (source : Source) (url : String) :
    StoredIn (· ≠ sourceKey source) (buildDetailUrlDedupKey env source.id url) := by
  rintro key hstored rfl
  obtain ⟨pad, hpad, hspaces⟩ := storedKey_eq_append hstored
  -- behind "source:{id}" the key of a detail goes on with a colon
  rw [buildDetailUrlDedupKey, sourceKey] at hpad
  simp only [String.toList_append, List.append_assoc] at hpad
  have hrest := List.append_cancel_left (List.append_cancel_left hpad)
  have hcolon : ':' ∈ pad := by
    rw [← hrest]
    simp
  have hspace := hspaces ':' hcolon
  simp at hspace

section Rows

variable {env : IngestEnv} {source : Source} {key : String} {s : Session} {fields : IngestionFields}
  {rows : List IngestionFailure → Prop}

/-- What is recorded stays recorded. -/
theorem recordedIn_closed :
    ClosedUnder env (fun _ => True) (RecordedIn key env.startedAt) := by
  rintro fields db - ⟨row, hrow, hkey, hrest⟩
  by_cases hsame : row.dedupKey = fields.dedupKey
  · obtain ⟨new, hnew, hkey', hopen⟩ := recordIngestionFailure_open env.startedAt fields db
    exact ⟨new, hnew, hkey'.trans (hsame.symm.trans hkey), hopen⟩
  · exact ⟨row, upsert_other hrow hsame, hkey, hrest⟩

theorem recordedIn_closed_of {p : Prop} :
    ClosedUnder env (fun _ => True) fun rows => p → RecordedIn key env.startedAt rows :=
  fun fields db hkey h hp => recordedIn_closed fields db hkey (h hp)

theorem unrecorded_closed :
    ClosedUnder env (· ≠ key) (Unrecorded key env.startedAt) := by
  intro fields db hne h row hrow hkey
  rcases upsert_mem_cases hrow with hold | rfl | ⟨old, _, hsame, rfl⟩
  · exact h row hold hkey
  · exact absurd hkey hne
  · exact absurd (hsame.symm.trans hkey) hne

/-- A failure that is recorded under the key of the source is there. -/
theorem recordFailure_recorded (hsent : SourceFailuresSent env source)
    (hkey : fields.dedupKey = sourceKey source) :
    Keeps (RecordedIn (sourceKey source) env.startedAt)
      (recordFailure env.postgres env.startedAt fields s) := by
  unfold recordFailure attempt
  split
  · next haborted => exact fun hgood => absurd (haborted.symm.trans hgood) (Bool.false_ne_true ∘ Eq.symm)
  · split
    · next db' hdone =>
      intro _
      obtain ⟨stored, hstored, rfl⟩ := insertIngestionFailure_done hdone
      rw [hkey] at hstored
      obtain rfl := stored_source_key hstored
      obtain ⟨row, hrow, hkey', hopen⟩ := recordIngestionFailure_open env.startedAt
        { fields with dedupKey := sourceKey source } s.working
      exact ⟨row, hrow, hkey', hopen⟩
    · next hunsent =>
      unfold insertIngestionFailure insertFailure at hunsent
      split at hunsent
      · next hverdict => exact absurd hverdict (hsent _ _ hkey)
      · cases hunsent
      · cases hunsent
    · exact fun hgood => absurd hgood (Bool.false_ne_true ∘ Eq.symm)

theorem not_recordedIn {startedAt : Int} {failures : List IngestionFailure}
    (h : Unrecorded key startedAt failures) : ¬ RecordedIn key startedAt failures :=
  fun ⟨row, hrow, hkey, _, hat⟩ => h row hrow hkey hat

theorem Keeps.mono {rows' : List IngestionFailure → Prop} (h : Keeps rows s)
    (himp : ∀ failures, rows failures → rows' failures) : Keeps rows' s :=
  fun hgood => himp _ (h hgood)

end Rows

/-! ## Runs that account for their failures -/

section Accounted

variable {env : RunEnv} {source : Source} {state state' : RunState} {result : IngestionResult}

/-- A failed fetch has been recorded. -/
def Noted (env : RunEnv) (source : Source) (state : RunState) : Prop :=
  Keeps (fun rows => state.fetchFailed = true →
    RecordedIn (sourceKey source) env.startedAt rows) state.session

/-- A failed fetch has been recorded, or makes the result a failure. -/
def Accounted (env : RunEnv) (source : Source) (result : IngestionResult) (state : RunState) :
    Prop :=
  Keeps (fun rows => state.fetchFailed = true → result.ok = true →
    RecordedIn (sourceKey source) env.startedAt rows) state.session

theorem Noted.accounted (h : Noted env source state) : Accounted env source result state :=
  Keeps.mono h fun _ hnoted hfailed _ => hnoted hfailed

theorem Accounted.noted (h : Accounted env source result state) (hok : result.ok = true) :
    Noted env source state :=
  Keeps.mono h fun _ haccounted hfailed => haccounted hfailed hok

theorem accounted_of_failed {rows : List IngestionFailure → Prop} (h : Keeps rows state.session)
    (hok : result.ok = false) : Accounted env source result state :=
  Keeps.mono h fun _ _ _ htrue => absurd htrue (by rw [hok]; exact Bool.false_ne_true)

variable (hsent : SourceFailuresSent env.toIngestEnv source)
include hsent

theorem runPaginatedIngestion_accounted {Cursor : Type} {args : RunnerArgs}
    {fetchPage : FetchPage Cursor} {initialCursor : Cursor} (hid : args.sourceId = source.id)
    (h : Noted env source state)
    (hrun : runPaginatedIngestion env.toIngestEnv args fetchPage initialCursor state =
      .ok (result, state')) : Accounted env source result state' := by
  have hcases := runPaginatedIngestion_keeps recordedIn_closed_of (fun _ _ _ => trivial) h hrun
  rcases hcases with ⟨_, hflag, hkeeps⟩ | ⟨_, _, ⟨hok, hkeeps⟩ | ⟨s, pageIndex, status, hs, hend⟩⟩
  · exact Keeps.mono hkeeps fun _ hnoted hfailed _ => hnoted (hflag ▸ hfailed)
  · exact accounted_of_failed hkeeps hok
  · have hkey : (pageFailureFields args pageIndex status).dedupKey = sourceKey source := by
      rw [pageFailureFields, hid]
      rfl
    have hrecorded := recordFailure_recorded (s := s) hsent hkey
    rw [Accounted, hend]
    exact Keeps.mono hrecorded fun _ h _ _ => h

omit hsent in
theorem runTerms_accounted {pass : Nat → String → RunState → RunOutcome}
    (hpass : ∀ number term {state state' : RunState} {result : IngestionResult},
      Noted env source state → pass number term state = .ok (result, state') →
        Accounted env source result state')
    {terms : List String} {number fetched created : Nat} (h : Noted env source state)
    (hrun : runTerms pass terms number fetched created state = .ok (result, state')) :
    Accounted env source result state' := by
  induction terms generalizing number fetched created state with
  | nil =>
      obtain ⟨rfl, rfl⟩ := Prod.mk.inj (Except.ok.inj hrun)
      exact h.accounted
  | cons term terms ih =>
      obtain ⟨⟨result₁, state₁⟩, hfirst, hrest⟩ := bind_ok hrun
      have haccounted := hpass number term h hfirst
      dsimp only at hrest
      split at hrest
      · next hok => exact ih (haccounted.noted hok) hrest
      · next hok =>
        obtain ⟨rfl, rfl⟩ := Prod.mk.inj (Except.ok.inj hrest)
        exact accounted_of_failed haccounted rfl

theorem jobBoard_runPass_accounted {Cursor : Type} {conn : JobBoardConnector Cursor}
    {forceRefresh : Bool} {limits : Limits} {config : Dict} {pass : Nat}
    (h : Noted env source state)
    (hrun : conn.runPass env source forceRefresh limits config pass state = .ok (result, state')) :
    Accounted env source result state' :=
  runPaginatedIngestion_accounted hsent rfl h hrun

theorem jobBoard_termPass_accounted {Cursor : Type} {conn : JobBoardConnector Cursor}
    {forceRefresh : Bool} {limits : Limits} {pass : Nat} {term : String}
    (h : Noted env source state)
    (hrun : conn.termPass env source forceRefresh limits pass term state = .ok (result, state')) :
    Accounted env source result state' := by
  obtain ⟨⟨result₁, state₁⟩, hpass, hend⟩ := bind_ok hrun
  obtain ⟨rfl, rfl⟩ := Prod.mk.inj (Except.ok.inj hend)
  have haccounted := jobBoard_runPass_accounted hsent h hpass
  exact haccounted

/-- A cursor-paginated run accounts for every page that failed. -/
theorem jobBoard_run_accounted {Cursor : Type} {conn : JobBoardConnector Cursor}
    {forceRefresh : Bool} (h : Noted env source state)
    (hrun : conn.run env source forceRefresh state = .ok (result, state')) :
    Accounted env source result state' := by
  obtain ⟨limits, _, hrun⟩ := bind_ok hrun
  obtain ⟨limits', _, hrun⟩ := bind_ok hrun
  split at hrun
  · obtain ⟨resolution, _, hrun⟩ := bind_ok hrun
    split at hrun
    · obtain ⟨rfl, rfl⟩ := Prod.mk.inj (Except.ok.inj hrun)
      exact accounted_of_failed h rfl
    · exact runTerms_accounted (fun _ _ => jobBoard_termPass_accounted hsent) h hrun
    · exact jobBoard_runPass_accounted hsent h hrun
  · exact jobBoard_runPass_accounted hsent h hrun

omit hsent in
/-- The rest of a sitemap run keeps what its loop has kept. -/
theorem sitemap_runOverUrls_keeps {conn : SitemapDetailPageConnector} {forceRefresh : Bool}
    {urls : List String} {persistCursor : Bool} {pass : Nat} {allowed : String → Prop}
    {rows : List IngestionFailure → Prop}
    (hclosed : ClosedUnder env.toIngestEnv allowed rows)
    (hvalidation : ∀ rest, StoredIn allowed ("validation:" ++ rest))
    (hdetail : ∀ url, StoredIn allowed (buildDetailUrlDedupKey env source.id url))
    (h : Keeps rows state.session)
    (hrun : conn.runOverUrls env source forceRefresh urls persistCursor pass state =
      .ok (result, state')) :
    result.ok = true ∧ state'.fetchFailed = state.fetchFailed ∧ Keeps rows state'.session := by
  obtain ⟨limits, _, hrun⟩ := bind_ok hrun
  obtain ⟨initialCursor, _, hrun⟩ := bind_ok hrun
  obtain ⟨⟨result₁, state₁⟩, hloop, hrun⟩ := bind_ok hrun
  have hcases := runPaginatedIngestion_keeps hclosed hvalidation h hloop
  rcases hcases with ⟨hok, hflag, hkeeps⟩ | ⟨hfailure, _⟩
  · obtain ⟨hblocked, hflag'⟩ := @recordBlocked_keeps env allowed rows state₁ source conn.name
      (SitemapDetailPageConnector.blockedDetails (conn.fetchDetails pass initialCursor
        ((urls.drop initialCursor).take (state₁.pagesFetched * limits.pageSize))))
      hclosed hdetail hkeeps
    dsimp only at hrun
    split at hrun
    · obtain ⟨state₂, hwrite, hend⟩ := bind_ok hrun
      obtain ⟨rfl, rfl⟩ := Prod.mk.inj (Except.ok.inj hend)
      obtain ⟨hkeeps', hflag''⟩ := writeConfig_keeps hclosed hblocked hwrite
      exact ⟨hok, hflag''.trans (hflag'.trans hflag), hkeeps'⟩
    · obtain ⟨rfl, rfl⟩ := Prod.mk.inj (Except.ok.inj hrun)
      exact ⟨hok, hflag'.trans hflag, hblocked⟩
  · have hgot : ∀ pageIndex cursor,
        ∃ page, conn.fetchPage urls limits.pageSize pass pageIndex cursor = .got page := by
      intro pageIndex cursor
      unfold SitemapDetailPageConnector.fetchPage
      dsimp only
      split
      · exact ⟨_, rfl⟩
      · exact ⟨_, rfl⟩
    rw [feedFrom_of_got hgot] at hfailure
    cases hfailure

omit hsent in
theorem sitemap_runOverUrls_accounted {conn : SitemapDetailPageConnector} {forceRefresh : Bool}
    {urls : List String} {persistCursor : Bool} {pass : Nat} (h : Noted env source state)
    (hrun : conn.runOverUrls env source forceRefresh urls persistCursor pass state =
      .ok (result, state')) : Accounted env source result state' := by
  obtain ⟨_, hflag, hkeeps⟩ := sitemap_runOverUrls_keeps recordedIn_closed_of
    (fun _ _ _ => trivial) (fun _ _ _ => trivial) h hrun
  exact Keeps.mono hkeeps fun _ hnoted hfailed _ => hnoted (hflag ▸ hfailed)

omit hsent in
theorem sitemap_termPass_accounted {conn : SitemapDetailPageConnector} {forceRefresh : Bool}
    {pass : Nat} {term : String} (h : Noted env source state)
    (hrun : conn.termPass env source forceRefresh pass term state = .ok (result, state')) :
    Accounted env source result state' := by
  unfold SitemapDetailPageConnector.termPass at hrun
  dsimp only at hrun
  split at hrun
  · obtain ⟨rfl, rfl⟩ := Prod.mk.inj (Except.ok.inj hrun)
    exact accounted_of_failed h rfl
  · obtain ⟨rfl, rfl⟩ := Prod.mk.inj (Except.ok.inj hrun)
    exact accounted_of_failed h rfl
  · obtain ⟨⟨result₁, state₁⟩, hover, hend⟩ := bind_ok hrun
    obtain ⟨rfl, rfl⟩ := Prod.mk.inj (Except.ok.inj hend)
    have haccounted := sitemap_runOverUrls_accounted h hover
    exact haccounted

omit hsent in
/-- A sitemap run accounts for a failed fetch, unless it has urls all the same. -/
theorem sitemap_runAll_accounted {conn : SitemapDetailPageConnector} {forceRefresh : Bool}
    (h : Noted env source state) (hfresh : state.fetchFailed = false)
    (hshown : ¬ ((conn.fetchSitemapUrls source.configJson).failed = true ∧
      ∃ urls, (conn.fetchSitemapUrls source.configJson).urls = .got urls))
    (hrun : conn.runAll env source forceRefresh state = .ok (result, state')) :
    Accounted env source result state' := by
  unfold SitemapDetailPageConnector.runAll at hrun
  dsimp only at hrun
  split at hrun
  · obtain ⟨rfl, rfl⟩ := Prod.mk.inj (Except.ok.inj hrun)
    exact accounted_of_failed h rfl
  · obtain ⟨rfl, rfl⟩ := Prod.mk.inj (Except.ok.inj hrun)
    exact accounted_of_failed h rfl
  · next urls hurls =>
    have hflag : (conn.fetchSitemapUrls source.configJson).failed = false := by
      cases hfailed : (conn.fetchSitemapUrls source.configJson).failed with
      | false => rfl
      | true => exact absurd ⟨hfailed, urls, hurls⟩ hshown
    rw [hflag, hfresh] at hrun
    refine sitemap_runOverUrls_accounted ?_ hrun
    exact Keeps.mono h fun _ _ hfalse => absurd hfalse Bool.false_ne_true

section Pracuj

variable {conn : PracujConnector} {forceRefresh : Bool} {e : PracujOffers} {terms : List String}
  {config : PracujConfig} {allowed : String → Prop} {rows : List IngestionFailure → Prop}

omit hsent in
theorem pracuj_recordBlockedUrls_keeps {blocked : List (PyValue × Nat)}
    (hclosed : ClosedUnder env.toIngestEnv allowed rows)
    (hdetail : ∀ url, StoredIn allowed (buildDetailUrlDedupKey env source.id url))
    (h : Keeps rows state.session)
    (hrun : conn.recordBlockedUrls env source blocked state = .ok state') :
    Keeps rows state'.session ∧ state'.fetchFailed = state.fetchFailed := by
  induction blocked generalizing state with
  | nil =>
      obtain rfl := Except.ok.inj hrun
      exact ⟨h, rfl⟩
  | cons b blocked ih =>
      obtain ⟨url, statusCode⟩ := b
      cases url with
      | str url =>
          have hnext : Keeps rows (record env
              (blockedFields env source.id conn.name url statusCode) state).session :=
            record_kept hclosed.kept.onAll (hdetail url) h
          have hrest := ih hnext hrun
          exact hrest
      | _ => cases hrun

omit hsent in
theorem pracuj_afterReplay_keeps (hclosed : ClosedUnder env.toIngestEnv allowed rows)
    (hdetail : ∀ url, StoredIn allowed (buildDetailUrlDedupKey env source.id url))
    (h : Keeps rows state.session)
    (hrun : conn.afterReplay env source terms e state = .ok state') :
    Keeps rows state'.session ∧ state'.fetchFailed = state.fetchFailed := by
  obtain ⟨state₁, hblocked, hrest⟩ := bind_ok hrun
  obtain ⟨hkeeps, hflag⟩ := pracuj_recordBlockedUrls_keeps hclosed hdetail h hblocked
  split at hrest
  · obtain ⟨hkeeps', hflag'⟩ := writeConfig_keeps hclosed hkeeps hrest
    exact ⟨hkeeps', hflag'.trans hflag⟩
  · obtain rfl := Except.ok.inj hrest
    exact ⟨hkeeps, hflag⟩

omit hsent in
/-- From the replay on, a run that goes through succeeds. -/
theorem pracuj_replay_keeps (hclosed : ClosedUnder env.toIngestEnv allowed rows)
    (hvalidation : ∀ rest, StoredIn allowed ("validation:" ++ rest))
    (h : Keeps rows state.session)
    (hrun : conn.replay env source forceRefresh config e.offers state = .ok (result, state')) :
    result.ok = true ∧ state'.fetchFailed = state.fetchFailed ∧ Keeps rows state'.session := by
  have hcases := runPaginatedIngestion_keeps hclosed hvalidation h hrun
  rcases hcases with hdone | ⟨hfailure, _⟩
  · exact hdone
  · rw [(@feedFrom_replayPage e.offers config.limits.pageSize _ 0 0).1] at hfailure
    cases hfailure

omit hsent in
theorem pracuj_runEnumerated_keeps (hclosed : ClosedUnder env.toIngestEnv allowed rows)
    (hvalidation : ∀ rest, StoredIn allowed ("validation:" ++ rest))
    (hdetail : ∀ url, StoredIn allowed (buildDetailUrlDedupKey env source.id url))
    (hok : e.enumerationOk = true)
    (h : Keeps rows (conn.recordMidRun env source e
      { state with fetchFailed := state.fetchFailed || e.listingFailed }).session)
    (hrun : conn.runEnumerated env source forceRefresh config terms e state =
      .ok (result, state')) :
    result.ok = true ∧ state'.fetchFailed = (state.fetchFailed || e.listingFailed) ∧
      Keeps rows state'.session := by
  unfold PracujConnector.runEnumerated at hrun
  dsimp only at hrun
  rw [if_pos hok] at hrun
  obtain ⟨⟨result₁, state₁⟩, hreplay, hrest⟩ := bind_ok hrun
  obtain ⟨state₂, hafter, hend⟩ := bind_ok hrest
  obtain ⟨rfl, rfl⟩ := Prod.mk.inj (Except.ok.inj hend)
  obtain ⟨hresult, hflag, hkeeps⟩ := pracuj_replay_keeps hclosed hvalidation h hreplay
  obtain ⟨hkeeps', hflag'⟩ := pracuj_afterReplay_keeps hclosed hdetail hkeeps hafter
  refine ⟨hresult, hflag'.trans (hflag.trans ?_), hkeeps'⟩
  unfold PracujConnector.recordMidRun
  split <;> rfl

/-- A Pracuj.pl run accounts for a failed listing page, if a successful
enumeration without a failure in the middle of the run has none. -/
theorem pracuj_runEnumerated_accounted (h : Noted env source state)
    (hfresh : state.fetchFailed = false)
    (hshown : e.enumerationOk = true → e.midRunFailure = false → e.listingFailed = false)
    (hrun : conn.runEnumerated env source forceRefresh config terms e state =
      .ok (result, state')) : Accounted env source result state' := by
  cases hok : e.enumerationOk with
  | false =>
      unfold PracujConnector.runEnumerated at hrun
      dsimp only at hrun
      rw [hok, if_neg Bool.false_ne_true] at hrun
      obtain ⟨rfl, rfl⟩ := Prod.mk.inj (Except.ok.inj hrun)
      exact accounted_of_failed h rfl
  | true =>
      have hnoted : Keeps (fun rows => e.listingFailed = true →
          RecordedIn (sourceKey source) env.startedAt rows)
          (conn.recordMidRun env source e
            { state with fetchFailed := state.fetchFailed || e.listingFailed }).session := by
        cases hmid : e.midRunFailure with
        | false =>
            rw [PracujConnector.recordMidRun, hmid, if_neg Bool.false_ne_true]
            refine Keeps.mono h fun _ _ hlisting => ?_
            rw [hshown hok hmid] at hlisting
            cases hlisting
        | true =>
            rw [PracujConnector.recordMidRun, hmid, if_pos rfl]
            have hrecorded := @recordFailure_recorded env.toIngestEnv source state.session
              (conn.midRunFields source e.listingBlockedStatus) hsent rfl
            exact Keeps.mono hrecorded fun _ hrows _ => hrows
      obtain ⟨_, hflag, hkeeps⟩ := pracuj_runEnumerated_keeps recordedIn_closed_of
        (fun _ _ _ => trivial) (fun _ _ _ => trivial) hok hnoted hrun
      rw [hfresh, Bool.false_or] at hflag
      exact Keeps.mono hkeeps fun _ hrows hfailed _ => hrows (hflag ▸ hfailed)

end Pracuj

end Accounted

/-! ## The terms of a filtered enumeration -/

section Terms

variable {site : Nat → String → PracujSite} {limits : Limits} {merged : PracujOffers}
  {es : List Enumeration}

theorem enumerateTerms_eq (terms : List String) (number : Nat) :
    enumerateTerms site limits terms number merged =
      (termEnumerations site limits terms number).map (·.foldl PracujOffers.merge merged) := by
  induction terms generalizing number merged with
  | nil => rfl
  | cons term terms ih =>
      rw [enumerateTerms, termEnumerations]
      cases collectOffers (site number term) 1 limits.pageSize limits.maxPages with
      | error err => rfl
      | ok e =>
          have hrest := @ih (merged.merge e) (number + 1)
          change enumerateTerms site limits terms (number + 1) (merged.merge e) = _
          rw [hrest]
          change _ = ((termEnumerations site limits terms (number + 1)) >>= _).map _
          cases termEnumerations site limits terms (number + 1) <;> rfl

theorem foldl_merge : (es.foldl PracujOffers.merge merged).enumerationOk =
      (merged.enumerationOk || es.any (·.enumerationOk)) ∧
    (es.foldl PracujOffers.merge merged).midRunFailure =
      (merged.midRunFailure || es.any (·.midRunFailure)) ∧
    (es.foldl PracujOffers.merge merged).listingFailed =
      (merged.listingFailed || es.any (·.listingFailed)) := by
  induction es generalizing merged with
  | nil => simp
  | cons e es ih =>
      obtain ⟨hok, hmid, hfailed⟩ := @ih (merged.merge e)
      refine ⟨hok.trans ?_, hmid.trans ?_, hfailed.trans ?_⟩
      all_goals simp [PracujOffers.merge, Bool.or_assoc]

/-- When an enumeration succeeds, though a listing page of it has failed, and
not in the middle of a run: it merges the terms of such a run. -/
theorem enumeration_hides_iff {terms : List String} {categoryFilter : String} {startPage : Nat}
    {e : PracujOffers}
    (henumerate : enumeratePracujOffers site limits terms categoryFilter startPage = .ok e) :
    (e.enumerationOk = true ∧ e.midRunFailure = false ∧ e.listingFailed = true) ↔
      ∃ es, termEnumerations site limits terms 0 = .ok es ∧
        (∃ e ∈ es, e.enumerationOk = false) ∧ (∃ e ∈ es, e.enumerationOk = true) ∧
        ∀ e ∈ es, e.midRunFailure = false := by
  unfold enumeratePracujOffers at henumerate
  split at henumerate
  · next hnil =>
    obtain ⟨call, _, hend⟩ := bind_ok henumerate
    obtain rfl := Except.ok.inj hend
    obtain rfl : terms = [] := List.isEmpty_iff.mp hnil
    constructor
    · rintro ⟨hok, hmid, hfailed⟩
      dsimp only at hok hmid hfailed
      simp [Enumeration.listingFailed, hok, hmid] at hfailed
    · rintro ⟨es, hes, ⟨call', hcall', _⟩, _⟩
      obtain rfl := Except.ok.inj hes
      cases hcall'
  · rw [enumerateTerms_eq] at henumerate
    cases hes : termEnumerations site limits terms 0 with
    | error err =>
        rw [hes] at henumerate
        cases henumerate
    | ok es =>
        rw [hes] at henumerate
        obtain rfl := Except.ok.inj henumerate
        obtain ⟨hok, hmid, hfailed⟩ := @foldl_merge {} es
        rw [hok, hmid, hfailed]
        simp only [Bool.false_or]
        constructor
        · rintro ⟨hany, hnone, hsome⟩
          have hmids : ∀ call ∈ es, call.midRunFailure = false := by
            intro call hcall
            exact Bool.eq_false_iff.mpr (List.any_eq_false.mp hnone call hcall)
          obtain ⟨call, hcall, hlisting⟩ := List.any_eq_true.mp hsome
          refine ⟨es, rfl, ⟨call, hcall, ?_⟩, List.any_eq_true.mp hany, hmids⟩
          simpa [Enumeration.listingFailed, hmids call hcall] using hlisting
        · rintro ⟨es', hes', ⟨call, hcall, hnot⟩, hany, hmids⟩
          obtain rfl := Except.ok.inj hes'
          refine ⟨List.any_eq_true.mpr hany, ?_, List.any_eq_true.mpr ⟨call, hcall, ?_⟩⟩
          · exact List.any_eq_false.mpr fun call hcall => by simp [hmids call hcall]
          · simp [Enumeration.listingFailed, hnot]

end Terms

/-! ## All connectors -/

section Runs

variable {env : RunEnv} {source : Source} {db : Database} {forceRefresh : Bool}
  {run : ConnectorRun} {result : IngestionResult} {state : RunState}

theorem opened_noted : Noted env source { session := .opened db } :=
  fun _ hfalse => absurd hfalse Bool.false_ne_true

theorem resolved_mode {config : Dict} {s : Session} {scope : FetchScopeResolution}
    (h : resolveFetchScopeTerms config s = .ok scope) :
    scope.mode = resolveFetchScopeMode (config.get "fetch_scope") := by
  unfold resolveFetchScopeTerms at h
  split at h
  · next hmode =>
    obtain rfl := Except.ok.inj h
    exact hmode.symm
  · next hmode =>
    obtain ⟨profile, _, h⟩ := bind_ok h
    obtain rfl := Except.ok.inj h
    rw [hmode]
    unfold resolveFetchScope
    cases profile with
    | none => rfl
    | some profile =>
        dsimp only
        split <;> rfl

/-- A run that hides no failure accounts for all of them. -/
theorem run_accounted (hsent : SourceFailuresSent env.toIngestEnv source)
    (hshown : ¬ HidesFailure env source db run)
    (hrun : run.run env source forceRefresh { session := .opened db } = .ok (result, state)) :
    Accounted env source result state := by
  have hnoted : Noted env source { session := .opened db } := opened_noted
  cases run with
  | cursor conn => exact jobBoard_run_accounted hsent hnoted hrun
  | weWorkRemotely feed mapOffer =>
      obtain ⟨threshold, _, hrun⟩ := bind_ok hrun
      exact jobBoard_runPass_accounted hsent hnoted hrun
  | sitemap conn =>
      have hall : (conn.supportsFetchScope = true →
          resolveFetchScopeMode (source.configJson.get "fetch_scope") = .all) →
          conn.runAll env source forceRefresh { session := .opened db } = .ok (result, state) →
          Accounted env source result state := by
        intro hscope hrunAll
        exact sitemap_runAll_accounted hnoted rfl (fun h => hshown ⟨hscope, h⟩) hrunAll
      change conn.run env source forceRefresh { session := .opened db } = _ at hrun
      unfold SitemapDetailPageConnector.run at hrun
      split at hrun
      · next hsupports =>
        obtain ⟨resolution, hresolution, hrun⟩ := bind_ok hrun
        have hmode := resolved_mode (liftSession_ok hresolution)
        split at hrun
        · obtain ⟨rfl, rfl⟩ := Prod.mk.inj (Except.ok.inj hrun)
          exact accounted_of_failed hnoted rfl
        · exact runTerms_accounted (fun _ _ => sitemap_termPass_accounted) hnoted hrun
        · next hallMode => exact hall (fun _ => hmode.symm.trans hallMode) hrun
      · next hsupports => exact hall (fun h => absurd h hsupports) hrun
  | pracuj conn =>
      obtain ⟨config, hconfig, hrun⟩ := bind_ok hrun
      obtain ⟨scope, hscope, hrun⟩ := bind_ok hrun
      split at hrun
      · obtain ⟨rfl, rfl⟩ := Prod.mk.inj (Except.ok.inj hrun)
        exact accounted_of_failed hnoted rfl
      · next hunblocked =>
        obtain ⟨e, henumerate, hrun⟩ := bind_ok hrun
        have hhides := enumeration_hides_iff (runLift_ok henumerate)
        refine pracuj_runEnumerated_accounted hsent hnoted rfl (fun hok hmid => ?_) hrun
        cases hfailed : e.listingFailed with
        | false => rfl
        | true =>
            obtain ⟨es, hes⟩ := hhides.mp ⟨hok, hmid, hfailed⟩
            exact absurd ⟨config, scope, es, runLift_ok hconfig, liftSession_ok hscope,
              hunblocked, hes⟩ hshown

/-- A run that hides a failure succeeds, and records nothing under the key of its source. -/
theorem run_hidden (hhides : HidesFailure env source db run)
    (hold : Unrecorded (sourceKey source) env.startedAt db.ingestionFailures)
    (hrun : run.run env source forceRefresh { session := .opened db } = .ok (result, state)) :
    result.ok = true ∧ state.fetchFailed = true ∧
      Keeps (Unrecorded (sourceKey source) env.startedAt) state.session := by
  have hkeeps : Keeps (Unrecorded (sourceKey source) env.startedAt) (.opened db) := fun _ => hold
  have hvalidation := validation_ne_source source
  have hdetail := @detail_ne_source env source
  cases run with
  | cursor conn => cases hhides
  | weWorkRemotely feed mapOffer => cases hhides
  | sitemap conn =>
      obtain ⟨hscope, hfailed, urls, hurls⟩ := hhides
      change conn.run env source forceRefresh { session := .opened db } = _ at hrun
      rw [SitemapDetailPageConnector.run_unfiltered hscope] at hrun
      unfold SitemapDetailPageConnector.runAll at hrun
      simp only [hurls, hfailed] at hrun
      exact sitemap_runOverUrls_keeps unrecorded_closed hvalidation hdetail hkeeps hrun
  | pracuj conn =>
      obtain ⟨config, scope, es, hconfig, hscope, hunblocked, hes⟩ := hhides
      obtain ⟨config', hconfig', hrun⟩ := bind_ok hrun
      obtain ⟨scope', hscope', hrun⟩ := bind_ok hrun
      obtain rfl : config' = config := Except.ok.inj ((runLift_ok hconfig').symm.trans hconfig)
      obtain rfl : scope' = scope := Except.ok.inj ((liftSession_ok hscope').symm.trans hscope)
      rw [hunblocked] at hrun
      obtain ⟨e, henumerate, hrun⟩ := bind_ok hrun
      obtain ⟨hok, hmid, hfailed⟩ := (enumeration_hides_iff (runLift_ok henumerate)).mpr ⟨es, hes⟩
      have hstart : Keeps (Unrecorded (sourceKey source) env.startedAt)
          (conn.recordMidRun env source e
            { session := .opened db, fetchFailed := false || e.listingFailed }).session := by
        rw [PracujConnector.recordMidRun, hmid, if_neg Bool.false_ne_true]
        exact hkeeps
      obtain ⟨hresult, hflag, hend⟩ := pracuj_runEnumerated_keeps unrecorded_closed
        hvalidation hdetail hok hstart hrun
      exact ⟨hresult, hflag.trans hfailed, hend⟩

theorem stampFetched_keeps {rows : List IngestionFailure → Prop} {s s' : Session} {now : Int}
    {sourceId : Nat} (h : Keeps rows s) (hwrite : s.write (stampFetched sourceId now) = .ok s') :
    Keeps rows s' := by
  have hends := @write_kept (Keeps rows) s (stampFetched sourceId now)
    (fun _ _ hfalse => absurd hfalse.symm Bool.false_ne_true) ?_ h
  · exact ends_ok hends hwrite
  · intro s db hdone hs hgood
    rw [← Attempt.done.inj hdone]
    exact hs hgood

theorem finishRun_ok {caller : Caller} {now : Int} {report : RunReport}
    (h : finishRun env caller now source result state = .ok report) :
    ∃ session, report.source = source ∧
      report.state = recordRunFetchFailure env caller source result { state with session } ∧
      report.db = commit report.state.session ∧
      ∀ rows, Keeps rows state.session → Keeps rows session := by
  unfold finishRun at h
  split at h
  · obtain ⟨session, hsession, hend⟩ := bind_ok h
    obtain rfl := Except.ok.inj hend
    exact ⟨session, rfl, rfl, rfl, fun _ hkeeps => stampFetched_keeps hkeeps hsession⟩
  · obtain ⟨session, hsession, hend⟩ := bind_ok h
    obtain rfl := Except.ok.inj hsession
    obtain rfl := Except.ok.inj hend
    exact ⟨_, rfl, rfl, rfl, fun _ hkeeps => hkeeps⟩

theorem commit_of_keeps {rows : List IngestionFailure → Prop} {s : Session} (h : Keeps rows s)
    (hgood : s.aborted = false) : rows (commit s).ingestionFailures := by
  rw [commit, hgood, if_neg Bool.false_ne_true]
  exact h hgood

/-- After a run that did not raise, a listing, sitemap or page that could not be
fetched is on record under the key of the source, exactly when the run is not
one of the two kinds that take what the other listings gave for a success. -/
theorem listing_failures_recorded_iff {caller : Caller} {registry : Registry} {now : Int}
    {connector : String} {report : RunReport}
    (hsent : SourceFailuresSent env.toIngestEnv report.source)
    (hold : ∀ row ∈ db.ingestionFailures, row.occurredAt ≠ env.startedAt)
    (hrun : runWithLifecycle env caller registry now connector db = .ok report)
    (hgood : report.state.session.aborted = false) :
    (report.state.fetchFailed = true →
        RecordedIn (sourceKey report.source) env.startedAt report.db.ingestionFailures) ↔
      ∀ run, registry.lookup connector = some run → ¬ HidesFailure env report.source db run := by
  obtain ⟨source, run, result, state, _, hlookup, hdispatch, hfinish⟩ := runWithLifecycle_ok hrun
  obtain ⟨session, rfl, hstate, hdb, hkept⟩ := finishRun_ok hfinish
  constructor
  · rintro hrecorded run' hrun' hhides
    obtain rfl : run = run' := Option.some.inj (hlookup.symm.trans hrun')
    obtain ⟨hok, hfailed, hkeeps⟩ :=
      run_hidden hhides (fun row hrow _ => hold row hrow) hdispatch
    rw [recordRunFetchFailure, if_pos hok] at hstate
    rw [hstate] at hgood
    have hend := commit_of_keeps (hkept _ hkeeps) hgood
    rw [hdb, hstate] at hrecorded
    exact not_recordedIn hend (hrecorded hfailed)
  · intro hshown hfailed
    have haccounted := run_accounted hsent (hshown run hlookup) hdispatch
    rw [hdb]
    cases hok : result.ok with
    | true =>
        rw [recordRunFetchFailure, if_pos hok] at hstate
        rw [hstate] at hfailed hgood ⊢
        exact commit_of_keeps (hkept _ haccounted) hgood hfailed hok
    | false =>
        rw [recordRunFetchFailure, if_neg (by rw [hok]; exact Bool.false_ne_true)] at hstate
        rw [hstate] at hgood ⊢
        have hrecorded := @recordFailure_recorded env.toIngestEnv report.source session
          (runFetchFields caller report.source result) hsent rfl
        exact commit_of_keeps hrecorded hgood

end Runs

/-! ## A filtered run with two terms -/

/-- The listing of the first term cannot be fetched, that of the second is empty. -/
def halfBlockedPracuj : PracujConnector :=
  { mapOffer := PracujConnector.mapPosting
    site := fun
      | 0 => fun _ => { listingPage := fun _ => .blocked 403, detail := fun _ _ => .failed }
      | _ => fun _ => { listingPage := fun _ => .got [], detail := fun _ _ => .failed } }

def halfBlocked : Registry :=
  { quietRegistry with pracuj := halfBlockedPracuj }

def filteredSource : Source :=
  { id := 1
    name := "Pracuj.pl"
    connector := some "pracuj"
    configJson := ⟨[("fetch_scope", .dict [("mode", .str "filtered")])]⟩
    lastFetchedAt := none }

def twoSkills : Schemas.Profile :=
  { Schemas.Profile.empty with
    skills := [⟨"python", none, true, by decide⟩, ⟨"rust", none, true, by decide⟩] }

def filteredDb : Database :=
  { sources := [filteredSource]
    profiles := [⟨1, "default", .active, true, some twoSkills⟩] }

/-- The run succeeds with nothing, and no row says that a listing was blocked. -/
theorem blocked_term_is_silent :
    ∃ report, runWithLifecycle acmeRunEnv manualCaller halfBlocked 5 "pracuj"
        filteredDb = .ok report ∧
      report.result.ok = true ∧ report.state.fetchFailed = true ∧
      report.db.ingestionFailures = [] ∧
      ¬ RecordedIn (sourceKey report.source) acmeRunEnv.startedAt
        report.db.ingestionFailures :=
  ⟨_, rfl, rfl, rfl, rfl, fun ⟨_, hrow, _⟩ => nomatch hrow⟩

theorem listing_failures_recorded_iff_halfBlocked :
    ∃ report, runWithLifecycle acmeRunEnv manualCaller halfBlocked 5 "pracuj"
        filteredDb = .ok report ∧
      ((report.state.fetchFailed = true → RecordedIn (sourceKey report.source)
          acmeRunEnv.startedAt report.db.ingestionFailures) ↔
        ∀ run, halfBlocked.lookup "pracuj" = some run →
          ¬ HidesFailure acmeRunEnv report.source filteredDb run) :=
  ⟨_, rfl, listing_failures_recorded_iff (fun _ _ _ h => nomatch h)
    (fun _ hrow => nomatch hrow) rfl rfl⟩

end RecruFlow.Ingestion
