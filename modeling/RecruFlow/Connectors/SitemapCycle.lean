import RecruFlow.Connectors.SitemapWalk

/-!
# Unfiltered sitemap runs read the sitemap in a circle

Each completed run stores where the next one starts. What the runs have tried
is a number of whole passes over the urls, and the part of a pass that ends at
the stored cursor.
-/

namespace RecruFlow.Connectors

open Db Dlq Ingestion Lib.Outcome Lib.Transaction

/-- The cursor that is stored for the source of a connector. -/
def storedCursor (connector : String) (db : Database) : Option PyValue :=
  match resolveSourceByConnector db.sources connector with
  | .ok source => source.configJson.get "sitemap_cursor"
  | .error _ => none

/-- A completed unfiltered run whose sitemap has the urls. -/
structure CompletedRun (connector : String) (urls : List String) (db : Database) where
  env : RunEnv
  caller : Caller
  registry : Registry
  now : Int
  conn : SitemapDetailPageConnector
  report : RunReport
  limits : Limits
  initialCursor : Nat
  dispatched : registry.lookup connector = some (.sitemap conn)
  returned : runWithLifecycle env caller registry now connector db = .ok report
  unfiltered : conn.supportsFetchScope = true →
    resolveFetchScopeMode (report.source.configJson.get "fetch_scope") = .all
  sitemap : (conn.fetchSitemapUrls report.source.configJson).urls = .got urls
  limits_eq : readLimits env report.source.configJson 20 50 = .ok limits
  initialCursor_eq :
    resolveSitemapCursor env.parseInt report.source.configJson urls.length = .ok initialCursor
  pageSize_pos : 0 < limits.pageSize
  maxPages_pos : 0 < limits.maxPages

/-- The urls that a run tries. -/
def CompletedRun.slice {connector : String} {urls : List String} {db : Database}
    (run : CompletedRun connector urls db) : List (String × Nat) :=
  run.conn.attempted urls run.limits.pageSize 0 run.initialCursor run.report.state.pagesFetched

/-- A history of completed runs over the same urls, from an absent cursor: their
number, what they have tried so far, and the database. Between the runs anything
may happen but to the cursor. -/
inductive Walks (connector : String) (urls : List String) :
    (runs : Nat) → List (String × Nat) → Database → Prop
  | start {db : Database} (h : storedCursor connector db = none) : Walks connector urls 0 [] db
  | elsewhere {runs : Nat} {tried : List (String × Nat)} {db db' : Database}
      (before : Walks connector urls runs tried db)
      (h : storedCursor connector db' = storedCursor connector db) :
      Walks connector urls runs tried db'
  | run {runs : Nat} {tried : List (String × Nat)} {db : Database}
      (before : Walks connector urls runs tried db) (run : CompletedRun connector urls db) :
      Walks connector urls (runs + 1) (tried ++ run.slice) run.report.db

/-! ## What a run stores -/

theorem resolveSourceByConnector_map {sources : List Source} {connector : String}
    {f : Source → Source} (hf : ∀ source, (f source).connector = source.connector) :
    resolveSourceByConnector (sources.map f) connector =
      (resolveSourceByConnector sources connector).map f := by
  unfold resolveSourceByConnector
  split
  · rfl
  · have hcomp : (fun source : Source => decide (source.connector = some connector)) ∘ f =
        fun source => decide (source.connector = some connector) := by
      funext source
      simp only [Function.comp_apply, hf]
    rw [List.find?_map, hcomp]
    cases sources.find? (·.connector = some connector) with
    | none => rfl
    | some source => rfl

section Run

variable {env : RunEnv} {source : Source} {conn : SitemapDetailPageConnector} {urls : List String}
  {forceRefresh : Bool} {state state' : RunState} {result : IngestionResult} {limits : Limits}
  {initialCursor : Nat} {sources : List Source}

/-- Ingesting offers leaves the sources alone. -/
theorem sources_kept {env : IngestEnv} :
    Kept env (fun _ => True) fun s => s.working.sources = sources where
  rejected _ h := h
  offer _ _ h := h
  failure _ _ _ h := h

theorem writeConfig_ok {sourceId : Nat} {configJson : Dict}
    (h : writeConfig sourceId configJson state = .ok state') :
    state'.session.aborted = false ∧
      updateConfig sourceId configJson state.session.working = .done state'.session.working ∧
      state'.pagesFetched = state.pagesFetched := by
  obtain ⟨session, hsession, hend⟩ := bind_ok h
  obtain rfl := Except.ok.inj hend
  cases hx : state.session.write (updateConfig sourceId configJson) with
  | error raised =>
      rw [hx] at hsession
      cases hsession
  | ok s =>
      rw [hx] at hsession
      obtain rfl : s = session := Except.ok.inj hsession
      obtain ⟨hgood, hdone⟩ := Session.write_ok hx
      exact ⟨hgood, hdone, rfl⟩

theorem recordBlocked_pagesFetched {name : String} {sourceId : Nat}
    {blocked : List (String × Nat)} :
    (recordBlocked env sourceId name blocked state).pagesFetched = state.pagesFetched := by
  induction blocked generalizing state with
  | nil => rfl
  | cons b blocked ih => exact ih

/-- What an unfiltered run over urls tries, and the cursor that it stores. -/
theorem runOverUrls_ok (hlimits : readLimits env source.configJson 20 50 = .ok limits)
    (hcursor : resolveSitemapCursor env.parseInt source.configJson urls.length = .ok initialCursor)
    (hsize : 0 < limits.pageSize) (hmax : 0 < limits.maxPages)
    (hsources : state.session.working.sources = sources)
    (hrun : conn.runOverUrls env source forceRefresh urls true 0 state = .ok (result, state')) :
    result.ok = true ∧ 0 < state'.pagesFetched ∧ state'.session.aborted = false ∧
      (∀ page, 0 < page → page < state'.pagesFetched →
        initialCursor + page * limits.pageSize < urls.length) ∧
      state'.session.working.sources = sources.map fun row =>
        if row.id = source.id then
          { row with configJson := source.configJson.set "sitemap_cursor" (.int (nextSitemapCursor
              (SitemapDetailPageConnector.lastCursor urls limits.pageSize initialCursor
                state'.pagesFetched))) }
        else row := by
  obtain ⟨limits', hlimits', hrun⟩ := bind_ok hrun
  obtain rfl : limits' = limits := Except.ok.inj ((runLift_ok hlimits').symm.trans hlimits)
  obtain ⟨cursor, hcursor', hrun⟩ := bind_ok hrun
  obtain rfl : cursor = initialCursor := Except.ok.inj ((runLift_ok hcursor').symm.trans hcursor)
  obtain ⟨⟨result₁, state₁⟩, hloop, hrun⟩ := bind_ok hrun
  obtain ⟨hok, hpos, hpages⟩ := SitemapDetailPageConnector.runLoop_ok hsize hmax hloop
  have hkept : state₁.session.working.sources = sources :=
    ends_ok (sitemap_runLoop_kept sources_kept.onAll allowsRun_all admitsRun_all hsources) hloop
  dsimp only at hrun
  rw [if_pos rfl] at hrun
  obtain ⟨state₂, hwrite, hend⟩ := bind_ok hrun
  obtain ⟨rfl, rfl⟩ := Prod.mk.inj (Except.ok.inj hend)
  obtain ⟨hgood, hupdate, hfetched⟩ := writeConfig_ok hwrite
  rw [recordBlocked_pagesFetched] at hfetched hupdate
  have hblocked := @recordBlocked_kept env source (fun _ => True) (fun _ => True)
    (fun session => session.working.sources = sources) state₁ sources_kept.onAll conn.name
    (SitemapDetailPageConnector.blockedDetails (conn.fetchDetails 0 cursor
      ((urls.drop cursor).take (state₁.pagesFetched * limits'.pageSize))))
    (fun _ _ _ => trivial) hkept
  refine ⟨hok, by rw [hfetched]; exact hpos, hgood, ?_, ?_⟩
  · rw [hfetched]
    exact hpages
  · rw [hfetched, ← Attempt.done.inj hupdate, hblocked]

end Run

/-- `finishRun` stamps the source, and leaves its configuration as it is. -/
theorem finishRun_ok_of_ok {env : RunEnv} {caller : Caller} {now : Int} {source : Source}
    {result : IngestionResult} {state : RunState} {report : RunReport} (hok : result.ok = true)
    (h : finishRun env caller now source result state = .ok report) :
    report.state.pagesFetched = state.pagesFetched ∧
      report.db.sources = state.session.working.sources.map fun row =>
        if row.id = source.id then { row with lastFetchedAt := some now } else row := by
  unfold finishRun at h
  rw [if_pos hok] at h
  obtain ⟨session, hsession, hend⟩ := bind_ok h
  obtain rfl := Except.ok.inj hend
  obtain ⟨hgood, hdone⟩ := Session.write_ok hsession
  have hstate : recordRunFetchFailure env caller source result { state with session } =
      { state with session } := by
    rw [recordRunFetchFailure, if_pos hok]
  refine ⟨by rw [hstate], ?_⟩
  rw [hstate, commit, hgood, if_neg Bool.false_ne_true, ← Attempt.done.inj hdone]

/-- The cursor that a run has written is the one that is stored afterwards. -/
theorem storedCursor_of_update {connector : String} {db db' : Database} {source : Source}
    {cursor : Nat} {now : Int}
    (hsource : resolveSourceByConnector db.sources connector = .ok source)
    (h : db'.sources = (db.sources.map fun row => if row.id = source.id then
        { row with configJson := source.configJson.set "sitemap_cursor" (.int cursor) }
      else row).map fun row =>
        if row.id = source.id then { row with lastFetchedAt := some now } else row) :
    storedCursor connector db' = some (.int cursor) := by
  have hresolved : resolveSourceByConnector db'.sources connector = .ok { source with
      configJson := source.configJson.set "sitemap_cursor" (.int cursor)
      lastFetchedAt := some now } := by
    rw [h, resolveSourceByConnector_map (fun row => by split <;> rfl),
      resolveSourceByConnector_map (fun row => by split <;> rfl), hsource]
    simp only [Except.map, if_true]
  rw [storedCursor, hresolved]
  dsimp only
  rw [Dict.get_set, if_pos rfl]

namespace CompletedRun

variable {connector : String} {urls : List String} {db : Database}

theorem storedCursor_eq (run : CompletedRun connector urls db) :
    storedCursor connector db = run.report.source.configJson.get "sitemap_cursor" := by
  obtain ⟨source, _, _, _, hsource, _, _, hfinish⟩ := runWithLifecycle_ok run.returned
  rw [storedCursor, hsource, finishRun_source hfinish]

/-- A run starts at the stored cursor. -/
theorem initialCursor_of_stored (run : CompletedRun connector urls db) {cursor : Nat}
    (hlt : cursor < urls.length) (h : storedCursor connector db = some (.int cursor)) :
    run.initialCursor = cursor := by
  rw [run.storedCursor_eq] at h
  have hresume : resolveSitemapCursor run.env.parseInt run.report.source.configJson urls.length =
      .ok cursor := resolveSitemapCursor_of_get h hlt
  exact Except.ok.inj (run.initialCursor_eq.symm.trans hresume)

theorem initialCursor_of_absent (run : CompletedRun connector urls db)
    (h : storedCursor connector db = none) : run.initialCursor = 0 := by
  rw [run.storedCursor_eq] at h
  have hresume : resolveSitemapCursor run.env.parseInt run.report.source.configJson urls.length =
      .ok 0 := resolveSitemapCursor_of_absent h
  exact Except.ok.inj (run.initialCursor_eq.symm.trans hresume)

/-- What a completed run tries and stores. -/
theorem spec (run : CompletedRun connector urls db) (hurls : 0 < urls.length) :
    run.initialCursor < urls.length ∧
    ∃ width, 0 < width ∧ run.slice = (urls.zipIdx.drop run.initialCursor).take width ∧
      storedCursor connector run.report.db = some (.int
        (if run.initialCursor + width < urls.length then run.initialCursor + width else 0 : Nat)) := by
  have hcursor : run.initialCursor < urls.length :=
    resolveSitemapCursor_lt hurls run.initialCursor_eq
  obtain ⟨source, found, result, state, hsource, hlookup, hdispatch, hfinish⟩ :=
    runWithLifecycle_ok run.returned
  obtain rfl : found = .sitemap run.conn :=
    Option.some.inj (hlookup.symm.trans run.dispatched)
  obtain rfl : run.report.source = source := finishRun_source hfinish
  change run.conn.run run.env _ _ _ = _ at hdispatch
  rw [SitemapDetailPageConnector.run_unfiltered run.unfiltered] at hdispatch
  unfold SitemapDetailPageConnector.runAll at hdispatch
  simp only [run.sitemap] at hdispatch
  obtain ⟨hok, hpos, _, hpages, hsources⟩ := runOverUrls_ok run.limits_eq run.initialCursor_eq
    run.pageSize_pos run.maxPages_pos rfl hdispatch
  obtain ⟨hfetched, hstored⟩ := finishRun_ok_of_ok hok hfinish
  refine ⟨hcursor, state.pagesFetched * run.limits.pageSize,
    Nat.mul_pos hpos run.pageSize_pos, ?_, ?_⟩
  · rw [slice, hfetched]
    exact SitemapDetailPageConnector.attempted_eq run.pageSize_pos hpages
  · have hlast : run.initialCursor + (state.pagesFetched - 1) * run.limits.pageSize <
        urls.length := by
      by_cases hone : state.pagesFetched = 1
      · rw [hone]
        simpa using hcursor
      · exact hpages _ (by omega) (by omega)
    have hnext : nextSitemapCursor (SitemapDetailPageConnector.lastCursor urls
        run.limits.pageSize run.initialCursor state.pagesFetched) =
        if run.initialCursor + state.pagesFetched * run.limits.pageSize < urls.length then
          run.initialCursor + state.pagesFetched * run.limits.pageSize else 0 := by
      rw [SitemapDetailPageConnector.lastCursor_eq hpos hlast run.pageSize_pos]
      split <;> rfl
    rw [hnext] at hsources
    exact storedCursor_of_update hsource (hstored.trans (by rw [hsources]; rfl))

theorem slice_ne_nil (run : CompletedRun connector urls db) (hurls : 0 < urls.length) :
    run.slice ≠ [] := by
  obtain ⟨hcursor, width, hpos, hslice, _⟩ := run.spec hurls
  rw [hslice, ← List.length_pos_iff, List.length_take, List.length_drop, List.length_zipIdx]
  omega

end CompletedRun

/-! ## Histories of runs -/

/-- Passes over a list, and a part of the next one. -/
def circle {α : Type} (xs : List α) (passes cursor : Nat) : List α :=
  (List.replicate passes xs).flatten ++ xs.take cursor

/-- To go on in a circle is to go on reading, or to begin the next pass. -/
theorem circle_append {α : Type} {xs : List α} {passes cursor width : Nat} :
    circle xs passes cursor ++ (xs.drop cursor).take width =
      if cursor + width < xs.length then circle xs passes (cursor + width)
      else circle xs (passes + 1) 0 := by
  rw [circle, List.append_assoc, ← List.take_add]
  split
  · rfl
  · next hend =>
    rw [List.take_of_length_le (by omega), circle, List.replicate_succ', List.flatten_append,
      List.flatten_singleton, List.take_zero, List.append_nil]

section Histories

variable {connector : String} {urls : List String} {runs : Nat} {tried : List (String × Nat)}
  {db : Database}

/-- The runs have read the urls in a circle up to the stored cursor. -/
theorem Walks.invariant (hurls : 0 < urls.length) (h : Walks connector urls runs tried db) :
    ∃ passes cursor, cursor < urls.length ∧ tried = circle urls.zipIdx passes cursor ∧
      runs ≤ passes * urls.length + cursor ∧
      (runs = 0 → storedCursor connector db = none ∧ cursor = 0) ∧
      (0 < runs → storedCursor connector db = some (.int cursor)) := by
  induction h with
  | start hstored =>
      exact ⟨0, 0, hurls, rfl, Nat.zero_le _, fun _ => ⟨hstored, rfl⟩, fun hpos => absurd hpos (by omega)⟩
  | elsewhere _ hsame ih => rwa [hsame]
  | run before run ih =>
      rename_i runs tried db
      obtain ⟨passes, cursor, hcursor, rfl, hruns, hfirst, hstored⟩ := ih
      obtain ⟨_, width, hpos, hslice, hnext⟩ := run.spec hurls
      have hinitial : run.initialCursor = cursor := by
        rcases Nat.eq_zero_or_pos runs with hzero | hpos
        · rw [run.initialCursor_of_absent (hfirst hzero).1, (hfirst hzero).2]
        · exact run.initialCursor_of_stored hcursor (hstored hpos)
      rw [hinitial] at hslice hnext
      rw [hslice, circle_append, List.length_zipIdx]
      by_cases hlt : cursor + width < urls.length
      · rw [if_pos hlt] at hnext ⊢
        exact ⟨passes, cursor + width, hlt, rfl, by omega, nofun, fun _ => hnext⟩
      · rw [if_neg hlt] at hnext ⊢
        refine ⟨passes + 1, 0, hurls, rfl, ?_, nofun, fun _ => hnext⟩
        rw [Nat.succ_mul]
        omega

/-- Whatever happens to the detail pages and their offers, completed runs read
the urls in a circle: what they have tried is whole passes and the part of a pass
up to the stored cursor, which is in range, and each run tries a url. -/
theorem sitemap_runs_read_in_a_circle (hurls : 0 < urls.length)
    (h : Walks connector urls runs tried db) :
    (∃ passes cursor, cursor < urls.length ∧ tried = circle urls.zipIdx passes cursor ∧
        runs ≤ passes * urls.length + cursor ∧
        (0 < runs → storedCursor connector db = some (.int cursor))) ∧
      ∀ run : CompletedRun connector urls db, run.slice ≠ [] := by
  refine ⟨?_, fun run => run.slice_ne_nil hurls⟩
  obtain ⟨passes, cursor, hcursor, htried, hruns, _, hstored⟩ := h.invariant hurls
  exact ⟨passes, cursor, hcursor, htried, hruns, hstored⟩

end Histories

/-! ## Two runs over a sitemap of three urls -/

/-- None of the detail pages can be fetched. -/
def threeUrls : SitemapDetailPageConnector :=
  { quietSitemap with fetchSitemapUrls := fun _ => ⟨.got ["a", "b", "c"], false⟩ }

def threeUrlsRegistry : Registry :=
  { quietRegistry with bulldogjob := threeUrls }

/-- Two urls are tried in each run. -/
def bulldogSource : Source :=
  { id := 1
    name := "bulldogjob"
    connector := some "bulldogjob"
    configJson := ⟨[("page_size", .int 2), ("max_pages", .int 1)]⟩
    lastFetchedAt := none }

def firstRun : CompletedRun "bulldogjob" ["a", "b", "c"] { sources := [bulldogSource] } where
  env := acmeRunEnv
  caller := manualCaller
  registry := threeUrlsRegistry
  now := 5
  conn := threeUrls
  report := _
  limits := ⟨2, 1, 20⟩
  initialCursor := 0
  dispatched := rfl
  returned := rfl
  unfiltered := fun _ => rfl
  sitemap := rfl
  limits_eq := rfl
  initialCursor_eq := rfl
  pageSize_pos := by decide
  maxPages_pos := by decide

def secondRun : CompletedRun "bulldogjob" ["a", "b", "c"] firstRun.report.db where
  env := acmeRunEnv
  caller := manualCaller
  registry := threeUrlsRegistry
  now := 6
  conn := threeUrls
  report := _
  limits := ⟨2, 1, 20⟩
  initialCursor := 2
  dispatched := rfl
  returned := rfl
  unfiltered := fun _ => rfl
  sitemap := rfl
  limits_eq := rfl
  initialCursor_eq := rfl
  pageSize_pos := by decide
  maxPages_pos := by decide

example : firstRun.slice ++ secondRun.slice = [("a", 0), ("b", 1), ("c", 2)] := rfl

theorem sitemap_runs_read_in_a_circle_bulldog :
    (∃ passes cursor, cursor < 3 ∧
        [] ++ firstRun.slice ++ secondRun.slice = circle ["a", "b", "c"].zipIdx passes cursor ∧
        2 ≤ passes * 3 + cursor ∧
        (0 < 2 → storedCursor "bulldogjob" secondRun.report.db = some (.int cursor))) ∧
      ∀ run : CompletedRun "bulldogjob" ["a", "b", "c"] secondRun.report.db, run.slice ≠ [] :=
  sitemap_runs_read_in_a_circle (by decide) (.run (.run (.start rfl) firstRun) secondRun)

end RecruFlow.Connectors
