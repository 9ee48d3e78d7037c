import RecruFlow.Connectors.SitemapWalk
import RecruFlow.Ingestion.SeenOffers

/-!
# Does a filtered run cover each of its terms?

The passes of a filtered run share a session. The caught-up rule of a pass
cannot tell the offers of earlier runs from those that an earlier term has
stored a moment ago.
-/

namespace RecruFlow.Connectors

open Db Ingestion Lib.CatchUp Lib.Pages

/-! ## The passes of a filtered run -/

/-- A pass of a filtered run, and the state that it starts in. -/
structure StartedPass where
  number : Nat
  term : String
  before : RunState

section Passes

variable (pass : Nat → String → RunState → RunOutcome)

def startedPasses : List String → (number : Nat) → RunState → List StartedPass
  | [], _, _ => []
  | term :: terms, number, state =>
      ⟨number, term, state⟩ ::
        match pass number term state with
        | .ok (result, state) => if result.ok then startedPasses terms (number + 1) state else []
        | .error _ => []

variable {pass} {terms : List String} {number fetched created : Nat} {state : RunState}
  {sources : List Source} {Hands : Nat → String → Database → Dict → Prop}

theorem startedPasses_term {p : StartedPass} (hp : p ∈ startedPasses pass terms number state) :
    ∃ i, p.number = number + i ∧ terms[i]? = some p.term := by
  induction terms generalizing number state with
  | nil => cases hp
  | cons term terms ih =>
      rw [startedPasses] at hp
      rcases List.mem_cons.mp hp with rfl | hrest
      · exact ⟨0, rfl, rfl⟩
      · split at hrest
        · split at hrest
          · obtain ⟨i, hnumber, hterm⟩ := ih hrest
            exact ⟨i + 1, by omega, hterm⟩
          · cases hrest
        · cases hrest

/-- Where each pass goes through, the run makes all of them and hands over what
they hand over. -/
theorem runTerms_hands
    (hpass : ∀ i term, terms[i]? = some term → ∀ state, GoesOn sources state.session →
      ∃ result state', pass (number + i) term state = .ok (result, state') ∧ result.ok = true ∧
        GoesOn sources state'.session ∧ ∀ raw, raw ∈ state'.handed ↔
          raw ∈ state.handed ∨ Hands (number + i) term state.session.working raw)
    (hgoes : GoesOn sources state.session) :
    (∃ result state', runTerms pass terms number fetched created state = .ok (result, state') ∧
      ∀ raw, raw ∈ state'.handed ↔ raw ∈ state.handed ∨
        ∃ p ∈ startedPasses pass terms number state,
          Hands p.number p.term p.before.session.working raw) ∧
    ∀ i term, terms[i]? = some term →
      ∃ p ∈ startedPasses pass terms number state, p.number = number + i ∧ p.term = term := by
  induction terms generalizing number fetched created state with
  | nil => exact ⟨⟨_, state, rfl, by simp [startedPasses]⟩, fun i term hterm => by simp at hterm⟩
  | cons term terms ih =>
      obtain ⟨result, state₁, hfirst, hok, hgoes₁, hhanded₁⟩ := hpass 0 term rfl state hgoes
      rw [Nat.add_zero] at hfirst hhanded₁
      have hrest : ∀ i term, terms[i]? = some term → ∀ state, GoesOn sources state.session →
          ∃ result state', pass (number + 1 + i) term state = .ok (result, state') ∧
            result.ok = true ∧ GoesOn sources state'.session ∧ ∀ raw, raw ∈ state'.handed ↔
              raw ∈ state.handed ∨ Hands (number + 1 + i) term state.session.working raw := by
        intro i term hterm state hgoes
        have hnumber : number + 1 + i = number + (i + 1) := by omega
        rw [hnumber]
        exact hpass (i + 1) term hterm state hgoes
      obtain ⟨⟨result', state', hrun, hhanded'⟩, hall⟩ :=
        @ih (number + 1) (fetched + result.fetched) (created + result.created) state₁ hrest hgoes₁
      have hpasses : startedPasses pass (term :: terms) number state =
          ⟨number, term, state⟩ :: startedPasses pass terms (number + 1) state₁ := by
        rw [startedPasses, hfirst]
        dsimp only
        rw [if_pos hok]
      refine ⟨⟨result', state', ?_, fun raw => ?_⟩, fun i term' hterm => ?_⟩
      · rw [runTerms, hfirst]
        dsimp only [bind, Except.bind]
        rw [if_pos hok]
        exact hrun
      · rw [hhanded' raw, hhanded₁ raw, hpasses]
        simp only [List.mem_cons, exists_eq_or_imp, or_assoc]
      · rw [hpasses]
        cases i with
        | zero => exact ⟨_, List.mem_cons_self, rfl, Option.some.inj hterm⟩
        | succ i =>
            obtain ⟨p, hp, hnumber, hp'⟩ := hall i term' hterm
            exact ⟨p, List.mem_cons_of_mem _ hp, by omega, hp'⟩

end Passes

/-! ## The connectors -/

/-- The connectors that make a pass for each term. -/
inductive TermConnector where
  | cursor (conn : JobBoardConnector Int)
  | sitemap (conn : SitemapDetailPageConnector)

namespace TermConnector

variable (env : RunEnv) (source : Source) (limits : Limits)

def supportsFetchScope : TermConnector → Bool
  | cursor conn => conn.supportsFetchScope
  | sitemap conn => conn.supportsFetchScope

/-- A run, without `force_refresh`. -/
def run (state : RunState) : TermConnector → RunOutcome
  | cursor conn => conn.run env source false state
  | sitemap conn => conn.run env source false state

def readLimits : TermConnector → Except PyError Limits
  | cursor conn => do
      let limits ← Connectors.readLimits env source.configJson 100 100
      conn.runnerKwargs source.configJson limits
  | sitemap _ => Connectors.readLimits env source.configJson 20 50

def termPass (number : Nat) (term : String) (state : RunState) : TermConnector → RunOutcome
  | cursor conn => conn.termPass env source false limits number term state
  | sitemap conn => conn.termPass env source false number term state

/-- The run that is restricted to a term. The answers of the site and the clock
are those of the pass for the term. -/
def runTerm (conn : TermConnector) (number : Nat) (term : String) (state : RunState) : RunOutcome :=
  runTerms (fun _ term state => conn.termPass env source limits number term state) [term] 0 0 0 state

def runnerArgs (number : Nat) : TermConnector → RunnerArgs
  | cursor conn => conn.runnerArgs env source false limits number
  | sitemap conn => conn.runnerArgs env source false limits number

/-- The pages of a term, up to the page limit. -/
def pages (number : Nat) (term : String) : TermConnector → List (List Dict)
  | cursor conn =>
      feed (conn.runnerArgs env source false limits number)
        (conn.fetchPage number (conn.applyFetchScopeTerm source.configJson term) limits.pageSize)
        conn.initialCursor
  | sitemap conn =>
      match conn.fetchFilteredSitemapUrls number source.configJson term with
      | .got urls =>
          match resolveSitemapCursor env.parseInt source.configJson urls.length with
          | .ok initialCursor =>
              feed (conn.runnerArgs env source false limits number)
                (conn.fetchPage urls limits.pageSize number) initialCursor
          | .error _ => []
      | _ => []

/-- Every fetch for the term succeeds, and so does reading the stored cursor. -/
def FetchesSucceed (number : Nat) (term : String) : TermConnector → Prop
  | cursor conn =>
      (feedFrom (conn.fetchPage number (conn.applyFetchScopeTerm source.configJson term)
        limits.pageSize) limits.maxPages 0 conn.initialCursor).2 = none
  | sitemap conn =>
      (∃ urls initialCursor,
        conn.fetchFilteredSitemapUrls number source.configJson term = .got urls ∧
        resolveSitemapCursor env.parseInt source.configJson urls.length = .ok initialCursor) ∧
      ∀ i url, ∃ parsed, conn.fetchDetail number i url = .got parsed

/-- Every fetch for the term succeeds, and every record is valid. -/
def GoesThrough (sources : List Source) (number : Nat) (term : String) (conn : TermConnector) :
    Prop :=
  conn.FetchesSucceed env source limits number term ∧
    ∀ raw ∈ (conn.pages env source limits number term).flatten,
      ValidRecord env.toIngestEnv (conn.runnerArgs env source limits number) sources raw

/-- The passes of the filtered run over some terms. -/
def passes (conn : TermConnector) (terms : List String) (state : RunState) : List StartedPass :=
  startedPasses (fun number term state => conn.termPass env source limits number term state) terms 0
    state

variable (conn : TermConnector)

/-- The pages for a term that a run comes to which starts on the store. -/
def Reads (number : Nat) (term : String) (db : Database) (j : Nat) : Prop :=
  ReadsPage env.toIngestEnv (conn.runnerArgs env source limits number) db
    (conn.pages env source limits number term) j

/-- The due records of a page for a term. -/
def due (number : Nat) (term : String) (j : Nat) : List Dict :=
  dueOn (conn.runnerArgs env source limits number) (conn.pages env source limits number term) j

/-- The store knows the last `already_seen_stop_threshold` due records of some
first pages for the term. -/
def LooksCaughtUp (number : Nat) (term : String) (db : Database) (pageCount : Nat) : Prop :=
  (memory env.toIngestEnv (conn.runnerArgs env source limits number)).CaughtUp
    limits.alreadySeenStopThreshold
    (dueFrom (conn.runnerArgs env source limits number) 0
      ((conn.pages env source limits number term).take pageCount).flatten) db

/-- A record is due on a page for the term that a run comes to which starts on the store. -/
def DueIn (number : Nat) (term : String) (db : Database) (raw : Dict) : Prop :=
  ∃ j, conn.Reads env source limits number term db j ∧
    raw ∈ conn.due env source limits number term j

/-- Where the store before a pass makes it look caught up, the due records of the
pages that a run for its term alone comes to behind are due on pages that are
read for another term. -/
def CoveredElsewhere (terms : List String) (state : RunState) : Prop :=
  ∀ p ∈ conn.passes env source limits terms state, ∀ pageCount j, 0 < pageCount → pageCount ≤ j →
    conn.LooksCaughtUp env source limits p.number p.term p.before.session.working pageCount →
    conn.Reads env source limits p.number p.term state.session.working j →
    ∀ raw ∈ conn.due env source limits p.number p.term j,
      ∃ other ∈ conn.passes env source limits terms state,
        conn.DueIn env source limits other.number other.term other.before.session.working raw

variable {env source limits conn} {number : Nat} {term : String} {sources : List Source}
  {state : RunState} {terms : List String}

theorem blockedDetails_of_got {site : SitemapDetailPageConnector} {first : Nat}
    {urls : List String} (hdetail : ∀ i url, ∃ parsed, site.fetchDetail number i url = .got parsed) :
    SitemapDetailPageConnector.blockedDetails (site.fetchDetails number first urls) = [] := by
  refine List.filterMap_eq_nil_iff.mpr fun detail hmem => ?_
  obtain ⟨⟨url, i⟩, _, rfl⟩ := List.mem_map.mp hmem
  obtain ⟨parsed, hparsed⟩ := hdetail i url
  dsimp only
  rw [hparsed]

/-- The pages of a sitemap pass whose listing and cursor can be read. -/
theorem pages_sitemap {site : SitemapDetailPageConnector} {urls : List String}
    {initialCursor : Nat}
    (hurls : site.fetchFilteredSitemapUrls number source.configJson term = .got urls)
    (hcursor : resolveSitemapCursor env.parseInt source.configJson urls.length = .ok initialCursor) :
    (sitemap site).pages env source limits number term =
      feed (site.runnerArgs env source false limits number)
        (site.fetchPage urls limits.pageSize number) initialCursor := by
  simp only [pages, hurls, hcursor]

/-- A pass whose fetches succeed, over valid records. -/
theorem termPass_hands (hlimits : conn.readLimits env source = .ok limits)
    (hthrough : conn.GoesThrough env source limits sources number term)
    (hgoes : GoesOn sources state.session) :
    ∃ result state', conn.termPass env source limits number term state = .ok (result, state') ∧
      result.ok = true ∧ GoesOn sources state'.session ∧ ∀ raw, raw ∈ state'.handed ↔
        raw ∈ state.handed ∨
          conn.DueIn env source limits number term state.session.working raw := by
  obtain ⟨hfetch, hvalid⟩ := hthrough
  cases conn with
  | cursor board =>
      obtain ⟨result, state', hrun, hok, hgoes', _, hhanded⟩ :=
        runPaginatedIngestion_valid hgoes hvalid hfetch
      refine ⟨{ result with blockedStatus := none }, state', ?_, hok, hgoes', fun raw => ?_⟩
      · rw [termPass, JobBoardConnector.termPass, JobBoardConnector.runPass]
        exact hrun ▸ rfl
      · rw [hhanded, List.mem_append, mem_walked_iff hgoes hvalid]
        exact Iff.rfl
  | sitemap site =>
      obtain ⟨⟨urls, initialCursor, hurls, hcursor⟩, hdetail⟩ := hfetch
      have hpages := @pages_sitemap env source limits number term site urls initialCursor hurls
        hcursor
      rw [hpages] at hvalid
      have hgot : (feedFrom (site.fetchPage urls limits.pageSize number)
          (site.runnerArgs env source false limits number).maxPages 0 initialCursor).2 = none :=
        feedFrom_of_got SitemapDetailPageConnector.fetchPage_got _ _ _
      obtain ⟨result, state', hrun, hok, hgoes', _, hhanded⟩ :=
        runPaginatedIngestion_valid hgoes hvalid hgot
      have hreadLimits : Connectors.readLimits env source.configJson 20 50 = .ok limits := hlimits
      refine ⟨{ result with blockedStatus := none }, state', ?_, hok, hgoes', fun raw => ?_⟩
      · simp only [termPass, SitemapDetailPageConnector.termPass, hurls,
          SitemapDetailPageConnector.runOverUrls, hreadLimits, hcursor, lift, Except.mapError,
          SitemapDetailPageConnector.runLoop, hrun, blockedDetails_of_got hdetail, bind,
          Except.bind, pure, Except.pure]
        rfl
      · rw [hhanded, List.mem_append, mem_walked_iff hgoes hvalid, ← hpages]
        exact Iff.rfl

/-- A filtered run makes a pass for each of its terms. -/
theorem run_filtered (hscope : conn.supportsFetchScope = true)
    (hlimits : conn.readLimits env source = .ok limits)
    (hresolution : resolveFetchScopeTerms source.configJson state.session =
      .ok ⟨.filtered, terms, none⟩) :
    conn.run env source state =
      runTerms (fun number term state => conn.termPass env source limits number term state) terms 0
        0 0 state := by
  cases conn with
  | cursor board =>
      have hscope : board.supportsFetchScope = true := hscope
      obtain ⟨limits₀, hread, hkwargs⟩ := bind_ok hlimits
      simp only [run, JobBoardConnector.run, hread, hkwargs, hscope, hresolution, lift, liftSession,
        Except.mapError, bind, Except.bind, if_true]
      rfl
  | sitemap site =>
      have hscope : site.supportsFetchScope = true := hscope
      simp only [run, SitemapDetailPageConnector.run, hscope, hresolution, liftSession,
        Except.mapError, bind, Except.bind, if_true]
      rfl

theorem runnerArgs_threshold : (conn.runnerArgs env source limits number).alreadySeenStopThreshold =
    limits.alreadySeenStopThreshold := by
  cases conn <;> rfl

/-- A run that does not come to a page which it would come to from another store
looks caught up before. -/
theorem not_reads {db₀ db : Database} {j : Nat} (hlone : conn.Reads env source limits number term db₀ j)
    (hnot : ¬ conn.Reads env source limits number term db j) :
    ∃ pageCount, 0 < pageCount ∧ pageCount ≤ j ∧
      conn.LooksCaughtUp env source limits number term db pageCount := by
  by_contra hnone
  refine hnot ⟨hlone.1, fun i hpos hi hends => ?_⟩
  rcases hends with hold | ⟨_, hcaught⟩
  · exact hlone.2 i hpos hi (.inl hold)
  · rw [runnerArgs_threshold] at hcaught
    exact hnone ⟨i, hpos, hi, hcaught⟩

/-- A filtered run over valid records, with all fetches succeeding, hands over
whatever runs for its terms alone would hand over exactly when what passes leave
out as caught up is read for other terms. -/
theorem filtered_run_covers_terms_iff (hscope : conn.supportsFetchScope = true)
    (hlimits : conn.readLimits env source = .ok limits)
    (hresolution : resolveFetchScopeTerms source.configJson state.session =
      .ok ⟨.filtered, terms, none⟩)
    (hgood : state.session.aborted = false) (hhanded : state.handed = [])
    (hthrough : ∀ i term, terms[i]? = some term →
      conn.GoesThrough env source limits state.session.working.sources i term) :
    (∀ i term, terms[i]? = some term →
      ∀ raw ∈ handedBy (conn.runTerm env source limits i term state),
        raw ∈ handedBy (conn.run env source state)) ↔
      conn.CoveredElsewhere env source limits terms state := by
  have hgoes : GoesOn state.session.working.sources state.session := ⟨hgood, rfl⟩
  have hlone : ∀ i term, terms[i]? = some term → ∀ raw,
      raw ∈ handedBy (conn.runTerm env source limits i term state) ↔
        conn.DueIn env source limits i term state.session.working raw := by
    intro i term hterm raw
    obtain ⟨result, state', hpass, hok, _, hhanded'⟩ :=
      termPass_hands hlimits (hthrough i term hterm) hgoes
    have hrun : conn.runTerm env source limits i term state =
        .ok (⟨true, 0 + result.fetched, 0 + result.created, none, none⟩, state') := by
      rw [runTerm, runTerms, hpass]
      dsimp only [bind, Except.bind]
      rw [if_pos hok, runTerms]
      rfl
    rw [hrun, handedBy, hhanded' raw, hhanded]
    simp
  obtain ⟨⟨result, state', hrun, hfiltered⟩, hpasses⟩ :=
    @runTerms_hands (fun number term state => conn.termPass env source limits number term state) terms
      0 0 0 state _ (conn.DueIn env source limits) (fun i term hterm before hbefore => by
        rw [Nat.zero_add]
        exact termPass_hands hlimits (hthrough i term hterm) hbefore) hgoes
  have hhands : ∀ raw, raw ∈ handedBy (conn.run env source state) ↔
      ∃ p ∈ conn.passes env source limits terms state,
        conn.DueIn env source limits p.number p.term p.before.session.working raw := by
    intro raw
    rw [run_filtered hscope hlimits hresolution, hrun, handedBy, hfiltered raw, hhanded]
    simp [passes]
  constructor
  · intro h p hp pageCount j hpos hle hcaught hreads raw hdue
    obtain ⟨i, hnumber, hterm⟩ := startedPasses_term hp
    obtain rfl : p.number = i := by omega
    exact (hhands raw).mp (h _ p.term hterm raw ((hlone _ _ hterm raw).mpr ⟨j, hreads, hdue⟩))
  · intro h i term hterm raw hraw
    obtain ⟨j, hreads, hdue⟩ := (hlone i term hterm raw).mp hraw
    obtain ⟨p, hp, hnumber, rfl⟩ := hpasses i term hterm
    obtain rfl : p.number = i := by omega
    refine (hhands raw).mpr ?_
    by_cases hpass : conn.Reads env source limits p.number p.term p.before.session.working j
    · exact ⟨p, hp, j, hpass, hdue⟩
    · obtain ⟨pageCount, hpos, hle, hcaught⟩ := not_reads hreads hpass
      exact h p hp pageCount j hpos hle hcaught hreads raw hdue

end TermConnector

/-! ## Two terms with one offer in common -/

/-- The offer "a" is found for both terms, "b" on the second page of the second term only. -/
def overlappingBoard : JobBoardConnector Int :=
  { name := "acme"
    initialCursor := 0
    mapOffer := fun _ raw => .ok raw
    supportsFetchScope := true
    applyFetchScopeTerm := fun config term => config.set "keyword" (.str term)
    runnerKwargs := fun _ limits => pure limits
    fetchPage := fun _ config _ pageIndex _ =>
      if config.get "keyword" = some (.str "phoenix") then
        if pageIndex = 0 then .got ([acmeFields "a"], some 1) else .got ([acmeFields "b"], none)
      else .got ([acmeFields "a"], none) }

def overlappingSource : Source :=
  { id := 1
    name := "acme"
    connector := none
    configJson := ⟨[("page_size", .int 1), ("already_seen_stop_threshold", .int 1),
      ("fetch_scope", .dict [("mode", .str "filtered")])]⟩
    lastFetchedAt := none }

def webSkills : Schemas.Profile :=
  { Schemas.Profile.empty with
    skills := [⟨"elixir", none, true, by decide⟩, ⟨"phoenix", none, true, by decide⟩] }

def overlappingState : RunState :=
  { session := .opened
      { sources := [overlappingSource]
        profiles := [⟨1, "default", .active, true, some webSkills⟩] } }

def overlapping : TermConnector :=
  .cursor overlappingBoard

theorem overlapping_goesThrough {i : Nat} {term : String}
    (hterm : ["elixir", "phoenix"][i]? = some term) :
    overlapping.GoesThrough acmeRunEnv overlappingSource ⟨1, 100, 1⟩
      overlappingState.session.working.sources i term := by
  have ha : Schemas.Offer.modelValidate acmeEnv.pydantic (acmeFields "a") =
      some (acmeOffer "a") := by decide
  have hb : Schemas.Offer.modelValidate acmeEnv.pydantic (acmeFields "b") =
      some (acmeOffer "b") := by decide
  rcases i with _ | _ | i
  · obtain rfl : "elixir" = term := Option.some.inj hterm
    refine ⟨rfl, fun raw hraw => ?_⟩
    have hraw : raw ∈ [acmeFields "a"] := hraw
    obtain rfl := List.mem_singleton.mp hraw
    exact acme_validRecord rfl ⟨rfl, rfl⟩ ha rfl
  · obtain rfl : "phoenix" = term := Option.some.inj hterm
    refine ⟨rfl, fun raw hraw => ?_⟩
    have hraw : raw ∈ [acmeFields "a", acmeFields "b"] := hraw
    rcases List.mem_pair.mp hraw with rfl | rfl
    · exact acme_validRecord rfl ⟨rfl, rfl⟩ ha rfl
    · exact acme_validRecord rfl ⟨rfl, rfl⟩ hb rfl
  · simp at hterm

theorem filtered_run_covers_terms_iff_overlapping :
    (∀ i term, ["elixir", "phoenix"][i]? = some term →
      ∀ raw ∈ handedBy (overlapping.runTerm acmeRunEnv overlappingSource ⟨1, 100, 1⟩ i term
        overlappingState),
        raw ∈ handedBy (overlapping.run acmeRunEnv overlappingSource overlappingState)) ↔
      overlapping.CoveredElsewhere acmeRunEnv overlappingSource ⟨1, 100, 1⟩ ["elixir", "phoenix"]
        overlappingState :=
  TermConnector.filtered_run_covers_terms_iff rfl rfl rfl rfl rfl
    fun _ _ hterm => overlapping_goesThrough hterm

/-- The first term has stored "a". For the second one it counts as already seen,
and the page with "b" is not read. -/
theorem earlier_term_hides_offer :
    (∀ i term, ["elixir", "phoenix"][i]? = some term →
      overlapping.GoesThrough acmeRunEnv overlappingSource ⟨1, 100, 1⟩
        overlappingState.session.working.sources i term) ∧
      handedBy (overlapping.runTerm acmeRunEnv overlappingSource ⟨1, 100, 1⟩ 1 "phoenix"
        overlappingState) = [acmeFields "a", acmeFields "b"] ∧
      acmeFields "b" ∉
        handedBy (overlapping.run acmeRunEnv overlappingSource overlappingState) := by
  have hrun : handedBy (overlapping.run acmeRunEnv overlappingSource overlappingState) =
      [acmeFields "a", acmeFields "a"] := by rfl
  refine ⟨fun _ _ hterm => overlapping_goesThrough hterm, by rfl, ?_⟩
  rw [hrun]
  decide

end RecruFlow.Connectors
