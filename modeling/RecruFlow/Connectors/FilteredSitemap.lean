import RecruFlow.Connectors.SitemapWalk

/-!
# Where the passes of a filtered sitemap run start

A filtered run walks the listing of each of its terms. It resolves the cursor
that unfiltered runs have stored for the full sitemap against each of these
listings.
-/

namespace RecruFlow.Connectors

open Db Ingestion Lib.Pages

/-- A pass over the listing of a term, and the state it starts in. -/
structure ListedPass where
  number : Nat
  urls : List String
  state : RunState

namespace SitemapDetailPageConnector

variable (env : RunEnv) (conn : SitemapDetailPageConnector) (source : Source)
  (forceRefresh : Bool)

/-- The passes of a filtered run whose listings were fetched. -/
def listedPasses : List String → (number : Nat) → RunState → List ListedPass
  | [], _, _ => []
  | term :: terms, number, state =>
      match conn.fetchFilteredSitemapUrls number source.configJson term with
      | .got urls =>
          ⟨number, urls, state⟩ ::
            match conn.termPass env source forceRefresh number term state with
            | .ok (result, state) => if result.ok then listedPasses terms (number + 1) state else []
            | .error _ => []
      | _ => []

section Pass

variable (limits : Limits) (initialCursor : Nat) (pass : ListedPass)

/-- The walk of a pass: whether it was stopped, and where it ended. -/
def passWalk : Except (PyError × Walk) (Bool × Bool × Walk) :=
  walkFeed env.toIngestEnv (conn.runnerArgs env source forceRefresh limits pass.number)
    (conn.fetchPage pass.urls limits.pageSize pass.number) initialCursor pass.state

/-- The urls, with their positions, that a pass tries. -/
def triedIn : List (String × Nat) :=
  conn.attempted pass.urls limits.pageSize pass.number initialCursor
    (reached env.toIngestEnv (conn.runnerArgs env source forceRefresh limits pass.number)
      (conn.fetchPage pass.urls limits.pageSize pass.number) initialCursor pass.state)

/-- The caught-up rule has stopped the pass. -/
def CaughtUpIn : Prop :=
  ∃ older w, conn.passWalk env source forceRefresh limits initialCursor pass =
      .ok (true, older, w) ∧
    caughtUp (conn.runnerArgs env source forceRefresh limits pass.number) w = true

end Pass

/-- A pass tries a prefix of its listing, and goes as far as the limits allow
unless it raises or is stopped as caught up. -/
def StartsAtBeginning (pass : ListedPass) : Prop :=
  ∀ limits initialCursor, readLimits env source.configJson 20 50 = .ok limits →
    resolveSitemapCursor env.parseInt source.configJson pass.urls.length = .ok initialCursor →
    let tried := conn.triedIn env source forceRefresh limits initialCursor pass
    tried <+: pass.urls.zipIdx ∧
      ((∃ s, conn.passWalk env source forceRefresh limits initialCursor pass = .ok s) →
        ¬ conn.CaughtUpIn env source forceRefresh limits initialCursor pass →
        tried.length = min pass.urls.length (limits.pageSize * limits.maxPages))

/-- The stored cursor does not point into a listing of this length behind its beginning. -/
def CursorClear (urlCount : Nat) : Prop :=
  ∀ limits cursor, readLimits env source.configJson 20 50 = .ok limits →
    storedSitemapCursor env.parseInt source.configJson = .ok cursor →
    ¬ (0 < cursor ∧ cursor < urlCount) ∨ limits.pageSize * limits.maxPages = 0

variable {env conn source forceRefresh} {limits : Limits} {initialCursor : Nat}
  {pass : ListedPass}

/-- Without urls to fetch a pass tries none. -/
theorem triedIn_nil (hnone : limits.pageSize * limits.maxPages = 0) :
    conn.triedIn env source forceRefresh limits initialCursor pass = [] := by
  rcases Nat.mul_eq_zero.mp hnone with hsize | hmax
  · refine List.flatMap_eq_nil_iff.mpr fun page _ => ?_
    split
    · rfl
    · rw [hsize, List.take_zero]
  · have hpages : reached env.toIngestEnv (conn.runnerArgs env source forceRefresh limits pass.number)
        (conn.fetchPage pass.urls limits.pageSize pass.number) initialCursor pass.state = 0 := by
      have hargs : (conn.runnerArgs env source forceRefresh limits pass.number).maxPages = 0 := hmax
      rw [reached, feed, hargs, feedFrom]
      rfl
    rw [triedIn, hpages, attempted, List.range_zero, List.flatMap_nil]

/-- Otherwise it tries the urls from its cursor on. -/
theorem triedIn_eq (hsize : 0 < limits.pageSize) :
    conn.triedIn env source forceRefresh limits initialCursor pass =
      (pass.urls.zipIdx.drop initialCursor).take
        (reached env.toIngestEnv (conn.runnerArgs env source forceRefresh limits pass.number)
          (conn.fetchPage pass.urls limits.pageSize pass.number) initialCursor pass.state *
          limits.pageSize) :=
  attempted_eq hsize fun _ hpos hlt =>
    lt_of_lt_feed hsize _ _ _ hpos (Nat.lt_of_lt_of_le hlt reach_le)

/-- A pass that starts behind the beginning of its listing and fetches something
passes urls over. -/
theorem not_prefix (hsize : 0 < limits.pageSize) (hmax : 0 < limits.maxPages)
    (hpos : 0 < initialCursor) (hlt : initialCursor < pass.urls.length) :
    ¬ conn.triedIn env source forceRefresh limits initialCursor pass <+: pass.urls.zipIdx := by
  intro hstart
  rw [triedIn_eq hsize] at hstart
  have hreached : 0 < reached env.toIngestEnv
      (conn.runnerArgs env source forceRefresh limits pass.number)
      (conn.fetchPage pass.urls limits.pageSize pass.number) initialCursor pass.state :=
    reach_pos (feed_ne_nil hsize hmax 0 initialCursor)
  have hwidth := Nat.mul_pos hreached hsize
  generalize reached env.toIngestEnv
    (conn.runnerArgs env source forceRefresh limits pass.number)
    (conn.fetchPage pass.urls limits.pageSize pass.number) initialCursor pass.state *
      limits.pageSize = width at hstart hwidth
  -- the first url that is tried has the position of the cursor, not 0
  obtain ⟨rest, hrest⟩ := hstart
  have hfirst := congrArg (fun l => l[0]?) hrest
  have hlength : 0 < ((pass.urls.zipIdx.drop initialCursor).take width).length := by
    rw [List.length_take, List.length_drop, List.length_zipIdx]
    omega
  simp only [List.getElem?_append_left hlength, List.getElem?_take_of_lt hwidth,
    List.getElem?_drop, List.getElem?_zipIdx] at hfirst
  rw [List.getElem?_eq_getElem (by omega), List.getElem?_eq_getElem (by omega)] at hfirst
  have hposition := congrArg Prod.snd (Option.some.inj hfirst)
  simp at hposition
  omega

/-- From the beginning of its listing, a pass goes as far as the limits allow. -/
theorem length_triedIn (hsize : 0 < limits.pageSize)
    (hdone : ∃ s, conn.passWalk env source forceRefresh limits 0 pass = .ok s)
    (hnot : ¬ conn.CaughtUpIn env source forceRefresh limits 0 pass) :
    (conn.triedIn env source forceRefresh limits 0 pass).length =
      min pass.urls.length (limits.pageSize * limits.maxPages) := by
  obtain ⟨⟨stopped, older, w⟩, hwalk⟩ := hdone
  cases stopped with
  | true => exact absurd ⟨older, w, hwalk, caughtUp_of_stopped rfl hwalk⟩ hnot
  | false =>
      have hall : reached env.toIngestEnv
          (conn.runnerArgs env source forceRefresh limits pass.number)
          (conn.fetchPage pass.urls limits.pageSize pass.number) 0 pass.state =
          (feed (conn.runnerArgs env source forceRefresh limits pass.number)
            (conn.fetchPage pass.urls limits.pageSize pass.number) 0).length := reach_of_walk hwalk
      have hend := @length_feed conn pass.urls limits.pageSize pass.number hsize limits.maxPages 0 0
      have hmost := @length_feedFrom_le Nat (conn.fetchPage pass.urls limits.pageSize pass.number)
        limits.maxPages 0 0
      rw [triedIn_eq hsize, hall, List.drop_zero, List.length_take, List.length_zipIdx]
      change min ((feedFrom _ limits.maxPages 0 0).1.length * limits.pageSize) _ = _
      generalize (feedFrom (conn.fetchPage pass.urls limits.pageSize pass.number) limits.maxPages 0
        0).1.length = pages at hend hmost
      rcases hend with rfl | hend
      · rw [Nat.mul_comm, Nat.min_comm]
      · have := Nat.mul_le_mul_right limits.pageSize hmost
        rw [Nat.mul_comm limits.pageSize]
        omega

/-- A pass starts at the beginning of its listing exactly when the cursor that is
stored for the full sitemap does not point into it, or nothing is to be fetched. -/
theorem startsAtBeginning_iff : conn.StartsAtBeginning env source forceRefresh pass ↔
    CursorClear env source pass.urls.length := by
  constructor
  · intro h limits cursor hlimits hstored
    by_contra hinside
    obtain ⟨hrange, hnone⟩ := not_or.mp hinside
    obtain ⟨hpos, hlt⟩ := not_not.mp hrange
    have hresume : resolveSitemapCursor env.parseInt source.configJson pass.urls.length =
        .ok cursor.toNat := by
      rw [resolveSitemapCursor, hstored]
      simp only [bind, Except.bind, pure, Except.pure]
      rw [if_pos ⟨by omega, hlt⟩]
    refine not_prefix (Nat.pos_of_ne_zero fun hzero => hnone ?_)
      (Nat.pos_of_ne_zero fun hzero => hnone ?_) ?_ ?_ (h limits cursor.toNat hlimits hresume).1
    · rw [hzero, Nat.zero_mul]
    · rw [hzero, Nat.mul_zero]
    · omega
    · omega
  · intro h limits initialCursor hlimits hresume
    by_cases hnone : limits.pageSize * limits.maxPages = 0
    · rw [triedIn_nil hnone, hnone]
      have hempty : ([] : List (String × Nat)) <+: pass.urls.zipIdx := List.nil_prefix
      exact ⟨hempty, fun _ _ => by simp⟩
    · have hsize : 0 < limits.pageSize := Nat.pos_of_ne_zero fun hzero => hnone (by simp [hzero])
      obtain ⟨cursor, hstored, hrange⟩ := bind_ok hresume
      have hclear := (h limits cursor hlimits hstored).resolve_right hnone
      obtain rfl : initialCursor = 0 := by
        split at hrange
        · have := Except.ok.inj hrange
          omega
        · exact (Except.ok.inj hrange).symm
      refine ⟨?_, length_triedIn hsize⟩
      rw [triedIn_eq hsize, List.drop_zero]
      exact List.take_prefix _ _

/-- All passes of a filtered run start at the beginnings of their listings
exactly when the cursor of the full sitemap points into none of them. -/
theorem filtered_terms_start_at_beginning_iff {terms : List String} {state : RunState} :
    (∀ pass ∈ conn.listedPasses env source forceRefresh terms 0 state,
        conn.StartsAtBeginning env source forceRefresh pass) ↔
      ∀ pass ∈ conn.listedPasses env source forceRefresh terms 0 state,
        CursorClear env source pass.urls.length :=
  forall₂_congr fun _ _ => startsAtBeginning_iff

/-- A filtered run that succeeds has made a pass for each of its terms. -/
theorem length_listedPasses {terms : List String} {number fetched created : Nat}
    {state state' : RunState} {result : IngestionResult}
    (hrun : runTerms (conn.termPass env source forceRefresh) terms number fetched created state =
      .ok (result, state')) (hok : result.ok = true) :
    (conn.listedPasses env source forceRefresh terms number state).length = terms.length := by
  induction terms generalizing number fetched created state with
  | nil => rfl
  | cons term terms ih =>
      obtain ⟨⟨result₁, state₁⟩, hpass, hrest⟩ := bind_ok hrun
      dsimp only at hrest
      split at hrest
      · next hok₁ =>
        have htail := ih hrest
        rw [listedPasses, hpass]
        cases hlisting : conn.fetchFilteredSitemapUrls number source.configJson term with
        | got urls =>
            dsimp only
            rw [if_pos hok₁, List.length_cons, List.length_cons, htail]
        | failed =>
            rw [termPass, hlisting] at hpass
            obtain ⟨rfl, _⟩ := Prod.mk.inj (Except.ok.inj hpass)
            cases hok₁
        | blocked statusCode =>
            rw [termPass, hlisting] at hpass
            obtain ⟨rfl, _⟩ := Prod.mk.inj (Except.ok.inj hpass)
            cases hok₁
      · obtain ⟨rfl, _⟩ := Prod.mk.inj (Except.ok.inj hrest)
        cases hok

/-! ## A listing of three urls, and a cursor of the full sitemap -/

def threeListed : SitemapDetailPageConnector :=
  { quietSitemap with fetchFilteredSitemapUrls := fun _ _ _ => .got ["a", "b", "c"] }

/-- An unfiltered run has stored its cursor before the scope was narrowed. -/
def narrowedSource : Source :=
  { id := 1
    name := "bulldogjob"
    connector := some "bulldogjob"
    configJson := ⟨[("sitemap_cursor", .int 2),
      ("fetch_scope", .dict [("mode", .str "filtered")])]⟩
    lastFetchedAt := none }

/-- Two of the three urls that the site lists for the term are passed over. -/
theorem filtered_listing_passed_over :
    ∃ pass, threeListed.listedPasses acmeRunEnv narrowedSource false ["python"] 0
        { session := .opened {} } = [pass] ∧ pass.urls = ["a", "b", "c"] ∧
      threeListed.triedIn acmeRunEnv narrowedSource false ⟨20, 50, 20⟩ 2 pass = [("c", 2)] ∧
      ¬ threeListed.StartsAtBeginning acmeRunEnv narrowedSource false pass := by
  refine ⟨_, rfl, rfl, rfl, fun h => ?_⟩
  obtain ⟨hstart, _⟩ := h ⟨20, 50, 20⟩ 2 rfl rfl
  have hstart : [("c", 2)] <+: [("a", 0), ("b", 1), ("c", 2)] := hstart
  exact absurd hstart (by decide)

end SitemapDetailPageConnector

end RecruFlow.Connectors
