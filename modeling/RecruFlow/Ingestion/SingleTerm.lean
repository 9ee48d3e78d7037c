import RecruFlow.Connectors.MapOffer
import RecruFlow.Connectors.SolidJobs
import RecruFlow.Ingestion.Lifecycle

/-!
# Filtered runs for one term

A filtered run puts its result together from those of its passes. For one term
that is the result of the plain run over the configuration for the term, but
for the blocked status, which a failed row needs to be retried by itself.
-/

namespace RecruFlow.Ingestion

open Connectors Db Dlq Lib.Transaction

/-- A result as a filtered run passes it on. -/
def IngestionResult.withoutBlocked (result : IngestionResult) : IngestionResult :=
  { result with blockedStatus := none }

variable {Cursor : Type} (env : RunEnv) (conn : FetchScopeConnector Cursor) (source : Source)

/-- The limits of a run, as the connector overrides them. -/
def readRunLimits (config : Dict) : Except PyError Limits := do
  let limits ← readLimits env config 100 100
  conn.runnerKwargs config limits

/-- The pass for the term is blocked on its first page. -/
def FirstPageBlocked (term : String) : Prop :=
  ∃ limits statusCode, readRunLimits env conn source.configJson = .ok limits ∧
    limits.maxPages ≠ 0 ∧
    conn.fetchPage 0 (conn.applyFetchScopeTerm source.configJson term) limits.pageSize 0
      conn.initialCursor = .blocked statusCode

/-- A run, and the recording of its failure. -/
def runRecorded (caller : Caller) (conn : JobBoardConnector Cursor) (source : Source)
    (state : RunState) : RunOutcome := do
  let (result, state) ← conn.run env source caller.forceRefresh state
  pure (result, recordRunFetchFailure env caller source result state)

variable {env conn source} {caller : Caller} {state : RunState} {term : String} {plain : Dict}
  {forceRefresh : Bool} {limits : Limits}

/-! ## The configuration for the term -/

/-- The keys that a run reads itself are those of the configuration without the term. -/
theorem plain_agrees
    (hplain : plain.AgreeOutside ["fetch_scope"] (conn.applyFetchScopeTerm source.configJson term)) :
    plain.AgreeOutside ("fetch_scope" :: conn.termKeys) source.configJson :=
  hplain.trans (conn.applyFetchScopeTerm_agrees source.configJson term)

theorem runKey_not_mem {key : String} (hrun : key ∈ runKeys) (hscope : key ≠ "fetch_scope") :
    key ∉ "fetch_scope" :: conn.termKeys := by
  rw [List.mem_cons, not_or]
  exact ⟨hscope, conn.runKeys_not_term key hrun⟩

theorem readRunLimits_plain
    (hagree : plain.AgreeOutside ("fetch_scope" :: conn.termKeys) source.configJson) :
    readRunLimits env conn plain = readRunLimits env conn source.configJson := by
  have hread {key : String} (hrun : key ∈ runKeys) (hscope : key ≠ "fetch_scope")
      (default : Nat) : readNat env plain key default = readNat env source.configJson key default := by
    rw [readNat, readNat, hagree.getD (runKey_not_mem hrun hscope)]
  simp only [readRunLimits, readLimits, conn.runnerKwargs_agrees hagree,
    hread (by decide : "page_size" ∈ runKeys) (by decide),
    hread (by decide : "max_pages" ∈ runKeys) (by decide),
    hread (by decide : "already_seen_stop_threshold" ∈ runKeys) (by decide)]

/-- The pass over the plain configuration is that for the term. -/
theorem runPass_plain
    (hplain : plain.AgreeOutside ["fetch_scope"] (conn.applyFetchScopeTerm source.configJson term)) :
    conn.runPass env { source with configJson := plain } forceRefresh limits plain 0 state =
      conn.runPass env source forceRefresh limits
        (conn.applyFetchScopeTerm source.configJson term) 0 state := by
  have hrange : plain.get "fetch_range" = source.configJson.get "fetch_range" :=
    plain_agrees hplain _ (runKey_not_mem (by decide) (by decide))
  unfold JobBoardConnector.runPass JobBoardConnector.runnerArgs
  rw [hrange, conn.fetchPage_agrees hplain]

/-! ## The two runs -/

/-- A run that has read its limits. -/
theorem run_eq : conn.run env source forceRefresh state =
    (lift state (readRunLimits env conn source.configJson) >>= fun limits =>
      liftSession state (resolveFetchScopeTerms source.configJson state.session) >>=
        fun resolution =>
          match resolution.blockedReason, resolution.mode with
          | some reason, _ => pure (failedResult reason none, state)
          | none, .filtered =>
              runTerms (conn.termPass env source forceRefresh limits) resolution.terms 0 0 0 state
          | none, .all =>
              conn.runPass env source forceRefresh limits source.configJson 0 state) := by
  simp only [JobBoardConnector.run, readRunLimits, conn.supports, if_true]
  cases readLimits env source.configJson 100 100 <;> rfl

theorem run_plain
    (hplain : plain.AgreeOutside ["fetch_scope"] (conn.applyFetchScopeTerm source.configJson term))
    (hall : resolveFetchScopeMode (plain.get "fetch_scope") = .all) :
    conn.run env { source with configJson := plain } forceRefresh state =
      (lift state (readRunLimits env conn source.configJson) >>= fun limits =>
        conn.runPass env source forceRefresh limits
          (conn.applyFetchScopeTerm source.configJson term) 0 state) := by
  have hresolution : resolveFetchScopeTerms plain state.session =
      .ok (resolveFetchScope .all none) := by
    rw [resolveFetchScopeTerms, hall]
    rfl
  rw [run_eq, readRunLimits_plain (plain_agrees hplain), hresolution]
  simp only [runPass_plain hplain]
  rfl

theorem IngestionResult.withoutBlocked_eq_iff (result : IngestionResult) :
    result.withoutBlocked = result ↔ result.blockedStatus = none := by
  constructor
  · intro hresult
    rw [← hresult]
    rfl
  · intro hnone
    rw [IngestionResult.withoutBlocked, ← hnone]

/-- The passes for one term are its pass. -/
theorem runTerms_single : runTerms (conn.termPass env source forceRefresh limits) [term] 0 0 0 state =
    (conn.runPass env source forceRefresh limits
      (conn.applyFetchScopeTerm source.configJson term) 0 state).map
        fun r => (r.1.withoutBlocked, r.2) := by
  rw [runTerms, JobBoardConnector.termPass]
  cases hpass : conn.runPass env source forceRefresh limits
      (conn.applyFetchScopeTerm source.configJson term) 0 state with
  | error raised => rfl
  | ok r =>
      obtain ⟨⟨ok, fetched, created, errorMessage, blockedStatus⟩, state'⟩ := r
      simp only [bind, Except.bind, pure, Except.pure, Except.map, Nat.zero_add,
        IngestionResult.withoutBlocked]
      cases ok with
      | false => rfl
      | true =>
          -- a pass that does not fail has no error message to lose
          cases hfirst : firstFailure (conn.runnerArgs env source forceRefresh limits 0)
              (conn.fetchPage 0 (conn.applyFetchScopeTerm source.configJson term) limits.pageSize)
              conn.initialCursor with
          | none =>
              obtain ⟨-, rfl, -⟩ := runPaginatedIngestion_of_firstFetched hfirst hpass
              rfl
          | some blocked =>
              rw [JobBoardConnector.runPass, runPaginatedIngestion_of_firstFailure hfirst] at hpass
              cases hpass

theorem run_singleTerm
    (hterm : resolveFetchScopeTerms source.configJson state.session =
      .ok ⟨.filtered, [term], none⟩)
    (hplain : plain.AgreeOutside ["fetch_scope"] (conn.applyFetchScopeTerm source.configJson term))
    (hall : resolveFetchScopeMode (plain.get "fetch_scope") = .all) :
    conn.run env source forceRefresh state =
      (conn.run env { source with configJson := plain } forceRefresh state).map
        fun r => (r.1.withoutBlocked, r.2) := by
  rw [run_plain hplain hall, run_eq, hterm]
  cases readRunLimits env conn source.configJson with
  | error e => rfl
  | ok limits => exact runTerms_single

theorem firstPageBlocked_iff (hlimits : readRunLimits env conn source.configJson = .ok limits) :
    FirstPageBlocked env conn source term ↔ ∃ statusCode,
      firstFailure (conn.runnerArgs env source forceRefresh limits 0)
        (conn.fetchPage 0 (conn.applyFetchScopeTerm source.configJson term) limits.pageSize)
        conn.initialCursor = some (some statusCode) := by
  simp only [firstFailure_blocked_iff]
  constructor
  · intro h
    obtain ⟨limits', statusCode, hread, hpages, hpage⟩ := h
    rw [hlimits] at hread
    obtain rfl := Except.ok.inj hread
    exact ⟨statusCode, hpages, hpage⟩
  · intro h
    obtain ⟨statusCode, hpages, hpage⟩ := h
    exact ⟨limits, statusCode, hlimits, hpages, hpage⟩

/-- A filtered run for one term comes to what the plain run over the configuration
for the term does, dead-letter rows included, unless its first page is blocked. -/
theorem singleTerm_agrees_iff
    (hterm : resolveFetchScopeTerms source.configJson state.session =
      .ok ⟨.filtered, [term], none⟩)
    (hplain : plain.AgreeOutside ["fetch_scope"] (conn.applyFetchScopeTerm source.configJson term))
    (hall : resolveFetchScopeMode (plain.get "fetch_scope") = .all) :
    runRecorded env caller conn.toJobBoardConnector source state =
        runRecorded env caller conn.toJobBoardConnector { source with configJson := plain } state ↔
      ¬ FirstPageBlocked env conn source term := by
  unfold runRecorded
  rw [run_singleTerm hterm hplain hall, run_plain hplain hall]
  cases hlimits : readRunLimits env conn source.configJson with
  | error e =>
      have hnot : ¬ FirstPageBlocked env conn source term := by
        intro h
        obtain ⟨limits, statusCode, hread, -⟩ := h
        rw [hlimits] at hread
        cases hread
      exact iff_of_true rfl hnot
  | ok limits =>
      rw [@firstPageBlocked_iff _ _ _ _ _ caller.forceRefresh _ hlimits]
      change ((conn.runPass env source caller.forceRefresh limits _ 0 state).map _ >>= _) =
        (conn.runPass env source caller.forceRefresh limits _ 0 state >>= _) ↔ _
      cases hpass : conn.runPass env source caller.forceRefresh limits
          (conn.applyFetchScopeTerm source.configJson term) 0 state with
      | error raised =>
          refine iff_of_true rfl fun h => ?_
          obtain ⟨statusCode, hfirst⟩ := h
          rw [JobBoardConnector.runPass, runPaginatedIngestion_of_firstFailure hfirst] at hpass
          cases hpass
      | ok r =>
          obtain ⟨result, state'⟩ := r
          rw [← runPaginatedIngestion_unblocked_iff hpass, ← result.withoutBlocked_eq_iff]
          constructor
          · intro heq
            exact (Prod.mk.inj (Except.ok.inj heq)).1
          · intro hresult
            change (Except.ok (result.withoutBlocked, _) : RunOutcome) = Except.ok (result, _)
            rw [hresult]
            rfl

/-! ## SOLID.Jobs with one starred skill -/

def elixirSource : Source :=
  { id := 1
    name := "SOLID.Jobs"
    connector := some "solid_jobs"
    configJson := ⟨[("page_size", .int 1), ("fetch_scope", .dict [("mode", .str "filtered")])]⟩
    lastFetchedAt := none }

/-- The configuration for the term, with the fetch scope switched off. -/
def elixirConfig : Dict :=
  (SolidJobs.applyFetchScopeTerm elixirSource.configJson "elixir").set "fetch_scope"
    (.dict [("mode", .str "all")])

theorem elixir_ne : "elixir" ≠ "" := by decide

def elixirState : RunState :=
  let profile : Schemas.Profile :=
    { Schemas.Profile.empty with skills := [⟨"elixir", none, true, elixir_ne⟩] }
  { session := .opened
      { sources := [elixirSource]
        profiles := [⟨1, "default", .active, true, some profile⟩] } }

/-- One offer for "elixir", and a block on the page after it. -/
def elixirSite : SolidJobs.Site := fun _ page request =>
  if page = 0 ∧ request.searchTerm = some (.list [.str "elixir"]) then
    .got (.dict [("jobs", .list [.dict [("title", .str "Elixir developer"),
      ("company", .str "acme")]])])
  else .blocked 403

theorem singleTerm_agrees_iff_elixir :
    runRecorded acmeRunEnv manualCaller
        (solidJobs acmeMapTools elixirSite "recruflow").toJobBoardConnector elixirSource
        elixirState =
        runRecorded acmeRunEnv manualCaller
          (solidJobs acmeMapTools elixirSite "recruflow").toJobBoardConnector
          { elixirSource with configJson := elixirConfig } elixirState ↔
      ¬ FirstPageBlocked acmeRunEnv (solidJobs acmeMapTools elixirSite "recruflow") elixirSource
        "elixir" :=
  singleTerm_agrees_iff rfl (Dict.agreeOutside_set _ _ _) rfl

/-- A run against a site that blocks every request. -/
def runBlocked (source : Source) : RunOutcome :=
  runRecorded acmeRunEnv manualCaller
    (solidJobs acmeMapTools (fun _ _ _ => .blocked 403) "recruflow").toJobBoardConnector source
    elixirState

/-- The statuses on the dead-letter rows that a run leaves. -/
def rowStatuses : RunOutcome → List (Option Nat)
  | .ok (_, state) => (commit state.session).ingestionFailures.map (·.blockedStatus)
  | .error _ => []

/-- The row of the filtered run does not say that the run was blocked. -/
theorem blocked_term_loses_status :
    resolveFetchScopeTerms elixirSource.configJson elixirState.session =
        .ok ⟨.filtered, ["elixir"], none⟩ ∧
      elixirConfig.AgreeOutside ["fetch_scope"]
        (SolidJobs.applyFetchScopeTerm elixirSource.configJson "elixir") ∧
      resolveFetchScopeMode (elixirConfig.get "fetch_scope") = .all ∧
      rowStatuses (runBlocked elixirSource) = [none] ∧
      rowStatuses (runBlocked { elixirSource with configJson := elixirConfig }) = [some 403] ∧
      runBlocked elixirSource ≠ runBlocked { elixirSource with configJson := elixirConfig } := by
  have hfiltered : rowStatuses (runBlocked elixirSource) = [none] := by decide +kernel
  have hplain : rowStatuses (runBlocked { elixirSource with configJson := elixirConfig }) =
      [some 403] := by
    decide +kernel
  refine ⟨rfl, Dict.agreeOutside_set _ _ _, rfl, hfiltered, hplain, fun heq => ?_⟩
  rw [heq, hplain] at hfiltered
  cases hfiltered

end RecruFlow.Ingestion
