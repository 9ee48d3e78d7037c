import Mathlib.Data.List.Chain
import RecruFlow.Connectors.Base
import RecruFlow.Ingestion.DeadLetters
import RecruFlow.Ingestion.SeenOffers

/-!
# Do runs over a growing feed leave a gap?

New offers appear at the front of a feed. A run stops at offers that the store
has, as if earlier runs had come to everything behind them. A failed page, a
wider range or an offer that duplicates another one make that wrong.
-/

namespace RecruFlow.Connectors

open Db Dlq Ingestion Lib.CatchUp Lib.Pages Lib.Transaction

/-- A run of a connector over a feed, and the database that it starts on. -/
structure FeedRun where
  env : RunEnv
  conn : JobBoardConnector Int
  source : Source
  limits : Limits
  feed : List Dict
  db : Database

namespace FeedRun

variable (run : FeedRun)

def args : RunnerArgs :=
  run.conn.runnerArgs run.env run.source false run.limits 0

def fetchPage : FetchPage Int :=
  run.conn.fetchPage 0 run.source.configJson run.limits.pageSize

/-- The pages up to the page limit, the end of the feed or a page that fails. -/
def pages : List (List Dict) :=
  Ingestion.feed run.args run.fetchPage run.conn.initialCursor

/-- The blocked status of the page that fails, if one does. -/
def failure : Option (Option Nat) :=
  (feedFrom run.fetchPage run.limits.maxPages 0 run.conn.initialCursor).2

def outcome : RunOutcome :=
  run.conn.run run.env run.source false { session := .opened run.db }

def after : Database :=
  match run.outcome with
  | .ok (_, state) => commit state.session
  | .error _ => run.db

/-- An offer within the page limit and the fetch range. -/
def InScope (p : Nat) (raw : Dict) : Prop :=
  run.feed[p]? = some raw ∧ p < run.limits.pageSize * run.limits.maxPages ∧
    dueAt run.args p raw = true

/-- An offer in range that the run comes to. -/
def Takes (p : Nat) (raw : Dict) : Prop :=
  run.feed[p]? = some raw ∧ dueAt run.args p raw = true ∧
    ReadsPage run.env.toIngestEnv run.args run.db run.pages (p / run.limits.pageSize)

/-- A record is stored, or a stored row duplicates it. -/
def Stores (db : Database) (raw : Dict) : Prop :=
  Seen run.env.toIngestEnv run.args db raw

instance (db : Database) (raw : Dict) : Decidable (run.Stores db raw) :=
  inferInstanceAs (Decidable (Seen _ _ _ _))

/-- A run without a fetch scope, whose pages cut the feed; a page after the first
may fail. The feed is sorted, and its records are valid. -/
structure WellFormed : Prop where
  unfiltered : run.conn.supportsFetchScope = true →
    resolveFetchScopeMode (run.source.configJson.get "fetch_scope") = .all
  limits_read : (readLimits run.env run.source.configJson 100 100).bind
    (run.conn.runnerKwargs run.source.configJson) = .ok run.limits
  pageSize_pos : 0 < run.limits.pageSize
  first_page : run.pages ≠ []
  pages_cut : ∀ n ≤ run.pages.length,
    (run.pages.take n).flatten = run.feed.take (n * run.limits.pageSize)
  pages_end : run.failure = none → run.pages.length = run.limits.maxPages ∨
    run.feed.length ≤ run.pages.length * run.limits.pageSize
  newest_first : ∀ i j x y, i < j → run.feed[i]? = some x → run.feed[j]? = some y →
    recentAt run.args j y = true → recentAt run.args i x = true
  valid : ∀ raw ∈ run.feed, ValidRecord run.env.toIngestEnv run.args run.db.sources raw
  /-- The database does not reject the dead letter of a failed page. -/
  deadLetter : ∀ pageIndex blockedStatus db, insertIngestionFailure run.env.postgres
    run.env.startedAt (pageFailureFields run.args pageIndex blockedStatus) db ≠ .rejected

/-- The later run is one over the grown feed, by the same connector for the same
source. Its configuration may differ. -/
structure Before (earlier later : FeedRun) : Prop where
  grown : ∃ new, later.feed = new ++ earlier.feed
  kept : ∀ row ∈ earlier.after.offers, row ∈ later.db.offers
  mapOffer : later.conn.mapOffer = earlier.conn.mapOffer
  sourceId : later.source.id = earlier.source.id
  pydantic : later.env.pydantic = earlier.env.pydantic
  text : later.env.text = earlier.env.text

/-- The runs of a history, in order. -/
structure IsHistory (history : List FeedRun) : Prop where
  wellFormed : ∀ run ∈ history, run.WellFormed
  chain : history.IsChain Before

/-- The last `already_seen_stop_threshold` offers in range of the first pages are
stored when their turn comes. -/
def LooksCaughtUp (pageCount : Nat) : Prop :=
  (memory run.env.toIngestEnv run.args).CaughtUp run.limits.alreadySeenStopThreshold
    (dueFrom run.args 0 (run.feed.take (pageCount * run.limits.pageSize))) run.db

/-- One of the earlier runs has come to the offer, and it was in its range. -/
def TakenBefore (earlier : List FeedRun) (p : Nat) (raw : Dict) : Prop :=
  ∃ r ∈ earlier, ∃ q, q + run.feed.length = p + r.feed.length ∧ r.Takes q raw

/-- Where the run looks caught up, earlier runs have come to all that is in scope
behind. -/
def StopsSoundly (earlier : List FeedRun) : Prop :=
  ∀ pageCount p raw, 0 < pageCount → run.LooksCaughtUp pageCount →
    pageCount * run.limits.pageSize ≤ p → run.InScope p raw → run.TakenBefore earlier p raw

/-- A run that succeeds without a failed page leaves every offer in scope stored. -/
def LeavesNoGap : Prop :=
  ∀ result state, run.outcome = .ok (result, state) → result.ok = true →
    state.fetchFailed = false → ∀ p raw, run.InScope p raw → run.Stores run.after raw

variable {run}

/-! ## One run -/

theorem mem_dueFrom {args : RunnerArgs} {records : List Dict} {raw : Dict} {turn i : Nat}
    (hraw : records[i]? = some raw) (hdue : dueAt args (turn + i) raw = true) :
    raw ∈ dueFrom args turn records := by
  induction records generalizing turn i with
  | nil => cases hraw
  | cons x records ih =>
      rw [dueFrom]
      cases i with
      | zero =>
          obtain rfl : x = raw := Option.some.inj hraw
          rw [Nat.add_zero] at hdue
          rw [if_pos hdue]
          exact List.mem_cons_self
      | succ i =>
          have hturn : turn + (i + 1) = turn + 1 + i := by omega
          rw [hturn] at hdue
          have hrest := ih hraw hdue
          split
          · exact List.mem_cons_of_mem _ hrest
          · exact hrest

/-- A valid record in range is not older than `since`. -/
theorem recentAt_of_due {env : IngestEnv} {args : RunnerArgs} {sources : List Source} {raw : Dict}
    {turn : Nat} (hvalid : ValidRecord env args sources raw) (hsince : args.since.isSome = true)
    (hdue : dueAt args turn raw = true) : recentAt args turn raw = true := by
  obtain ⟨mapped, _, _, hmapped, hdate, _⟩ := hvalid
  obtain ⟨outside, houtside⟩ := hdate turn
  obtain ⟨since, hsome⟩ := Option.isSome_iff_exists.mp hsince
  obtain rfl : outside = false := by
    cases outside with
    | false => rfl
    | true => simp [dueAt, hmapped, houtside] at hdue
  rw [outsideRange, hsome] at houtside
  obtain ⟨before, hbefore, hafter⟩ := bind_ok houtside
  rw [recentAt, hmapped]
  simp only [notBeforeSince, hsome, DateTime.ge, decide_eq_true_eq]
  rw [beforeSince, DateTime.lt] at hbefore
  split at hbefore
  · next haware =>
    rw [if_pos haware]
    have hlt := Except.ok.inj hbefore
    cases before with
    | true => cases hafter
    | false => simpa using hlt
  · cases hbefore

/-- A dead letter that the database does not reject leaves the offers alone. -/
theorem recordFailure_good {postgres : Postgres} {now : Int} {fields : IngestionFields} {s : Session}
    (hgood : s.aborted = false)
    (hdead : insertIngestionFailure postgres now fields s.working ≠ .rejected) :
    (recordFailure postgres now fields s).aborted = false ∧
      (recordFailure postgres now fields s).working.offers = s.working.offers := by
  unfold recordFailure attempt
  rw [if_neg (by rw [hgood]; exact Bool.false_ne_true)]
  cases hinsert : insertIngestionFailure postgres now fields s.working with
  | done db =>
      obtain ⟨key, _, rfl⟩ := insertIngestionFailure_done hinsert
      exact ⟨hgood, rfl⟩
  | unsent => exact ⟨hgood, rfl⟩
  | rejected => exact absurd hinsert hdead

/-- What follows the walk leaves the offers alone, and a failed page shows. -/
theorem afterWalk_good {env : IngestEnv} {args : RunnerArgs} {pagesFetched : Nat}
    {failure : Option (Option Nat)} {stopped : Bool} {w : Walk} (hgood : w.session.aborted = false)
    (hdead : ∀ blockedStatus, insertIngestionFailure env.postgres env.startedAt
      (pageFailureFields args pagesFetched blockedStatus) w.session.working ≠ .rejected) :
    let w' := (afterWalk env args pagesFetched failure stopped w).2
    w'.session.aborted = false ∧ w'.session.working.offers = w.session.working.offers ∧
      (w'.fetchFailed = false → failure = none ∨ stopped = true) := by
  match stopped, failure with
  | true, _ => exact ⟨hgood, rfl, fun _ => .inr rfl⟩
  | false, none => exact ⟨hgood, rfl, fun _ => .inl rfl⟩
  | false, some blockedStatus =>
      dsimp only [afterWalk]
      unfold pageFailure
      dsimp only
      split
      · exact ⟨hgood, rfl, fun h => nomatch h⟩
      · obtain ⟨hgood', hoffers⟩ := recordFailure_good hgood (hdead blockedStatus)
        exact ⟨hgood', hoffers, fun h => nomatch h⟩

/-- Without a lower bound no record counts as recent. -/
theorem recentAt_of_unbounded {args : RunnerArgs} {raw : Dict} {turn : Nat}
    (hsince : args.since = none) : recentAt args turn raw = false := by
  rw [recentAt]
  split
  · rw [notBeforeSince, hsince]
    rfl
  · rfl

theorem outcome_eq (hwf : run.WellFormed) :
    run.outcome = runPaginatedIngestion run.env.toIngestEnv run.args run.fetchPage
      run.conn.initialCursor { session := .opened run.db } := by
  obtain ⟨limits, hread, hkwargs⟩ := bind_ok hwf.limits_read
  rw [outcome, JobBoardConnector.run]
  simp only [hread, hkwargs, lift, Except.mapError, bind, Except.bind]
  split
  · next hsupports =>
    rw [resolveFetchScopeTerms, hwf.unfiltered hsupports]
    rfl
  · rfl

theorem pages_flatten (hwf : run.WellFormed) :
    run.pages.flatten = run.feed.take (run.pages.length * run.limits.pageSize) := by
  have hcut := hwf.pages_cut run.pages.length (Nat.le_refl _)
  rwa [List.take_length] at hcut

theorem pages_valid (hwf : run.WellFormed) : ∀ raw ∈ run.pages.flatten,
    ValidRecord run.env.toIngestEnv run.args run.db.sources raw := by
  intro raw hraw
  rw [pages_flatten hwf] at hraw
  exact hwf.valid raw (List.mem_of_mem_take hraw)

theorem opened_goesOn : GoesOn run.db.sources (RunState.mk (.opened run.db) [] 0 false []).session :=
  ⟨rfl, rfl⟩

/-- The number of pages that a run comes to. -/
def pagesRead (run : FeedRun) : Nat :=
  reached run.env.toIngestEnv run.args run.fetchPage run.conn.initialCursor
    { session := .opened run.db }

theorem lt_pagesRead_iff (hwf : run.WellFormed) {j : Nat} : j < run.pagesRead ↔
    ReadsPage run.env.toIngestEnv run.args run.db run.pages j :=
  lt_reached_iff opened_goesOn (pages_valid hwf)

/-- The records that a run learns. -/
theorem walked_eq (hwf : run.WellFormed) :
    walked run.env.toIngestEnv run.args run.fetchPage run.conn.initialCursor
      { session := .opened run.db } = run.feed.take (run.pagesRead * run.limits.pageSize) :=
  hwf.pages_cut run.pagesRead reached_le

/-- How a run ends, whether or not a page fails. -/
theorem outcome_ok (hwf : run.WellFormed) :
    ∃ result state, run.outcome = .ok (result, state) ∧ state.session.aborted = false ∧
      state.session.working.offers = ((memory run.env.toIngestEnv run.args).learnAll run.db
        (dueFrom run.args 0 (run.feed.take (run.pagesRead * run.limits.pageSize)))).offers ∧
      (state.fetchFailed = false → run.failure = none ∨ (0 < run.pagesRead ∧
        EndsAfter run.env.toIngestEnv run.args run.db (run.pages.take run.pagesRead))) := by
  obtain ⟨stopped, s, hwalk, hgoes, hlearned, _⟩ :=
    walkFeed_valid opened_goesOn (pages_valid hwf)
  rw [walked_eq hwf] at hlearned
  have hends : stopped = true → 0 < run.pagesRead ∧
      EndsAfter run.env.toIngestEnv run.args run.db (run.pages.take run.pagesRead) := by
    rintro rfl
    have hpos : 0 < run.pagesRead := reach_pos hwf.first_page
    have hsome : run.pages.take run.pagesRead ≠ [] := by
      have hlength := List.length_pos_of_ne_nil hwf.first_page
      exact List.ne_nil_of_length_pos (by rw [List.length_take]; exact Nat.lt_min.mpr ⟨hpos, hlength⟩)
    have hrecords : ∀ raw ∈ (run.pages.take run.pagesRead).flatten,
        ValidRecord run.env.toIngestEnv run.args run.db.sources raw := by
      intro raw hraw
      obtain ⟨page, hpage, hmem⟩ := List.mem_flatten.mp hraw
      exact pages_valid hwf raw (List.mem_flatten.mpr ⟨page, List.mem_of_mem_take hpage, hmem⟩)
    exact ⟨hpos, (stopsWalk_iff hsome opened_goesOn hrecords (foldlM_of_walk hwalk)).mp
      (stop_of_walk hwalk)⟩
  obtain ⟨hgood, hoffers, hfailed⟩ := @afterWalk_good run.env.toIngestEnv run.args run.pagesRead
    run.failure stopped s.2 hgoes.good fun status => hwf.deadLetter _ status _
  have hrun : run.outcome = .ok
      ((afterWalk run.env.toIngestEnv run.args run.pagesRead run.failure stopped s.2).1,
        (afterWalk run.env.toIngestEnv run.args run.pagesRead run.failure stopped s.2).2.toRunState) := by
    rw [outcome_eq hwf, runPaginatedIngestion_eq, hwalk]
    rfl
  exact ⟨_, _, hrun, hgood, hoffers.trans (congrArg _ hlearned), fun h => (hfailed h).imp id hends⟩

theorem after_offers (hwf : run.WellFormed) :
    run.after.offers = ((memory run.env.toIngestEnv run.args).learnAll run.db
      (dueFrom run.args 0 (run.feed.take (run.pagesRead * run.limits.pageSize)))).offers := by
  obtain ⟨result, state, hrun, hgood, hoffers, _⟩ := outcome_ok hwf
  rw [after, hrun]
  dsimp only
  rw [commit, hgood, if_neg Bool.false_ne_true, hoffers]

/-- A run loses no offer. -/
theorem after_keeps (hwf : run.WellFormed) : ∀ row ∈ run.db.offers, row ∈ run.after.offers := by
  rw [after_offers hwf]
  exact fun row hrow => learnAll_appends.subset hrow

/-- What a run comes to is stored after it. -/
theorem stores_of_takes (hwf : run.WellFormed) {p : Nat} {raw : Dict} (h : run.Takes p raw) :
    run.Stores run.after raw := by
  obtain ⟨hraw, hdue, hreads⟩ := h
  have hpage : p / run.limits.pageSize < run.pagesRead := (lt_pagesRead_iff hwf).mpr hreads
  have hp : p < run.pagesRead * run.limits.pageSize := by
    rwa [Nat.div_lt_iff_lt_mul hwf.pageSize_pos] at hpage
  have hmem : raw ∈ dueFrom run.args 0 (run.feed.take (run.pagesRead * run.limits.pageSize)) := by
    refine @mem_dueFrom run.args _ raw 0 p ?_ ?_
    · rw [List.getElem?_take_of_lt hp, hraw]
    · rwa [Nat.zero_add]
  have hvalid := hwf.valid raw (List.mem_of_getElem? hraw)
  have hknown := memory_keeps.known_learnAll (s := run.db) (fun _ => seen_addOffer hvalid) hmem
  refine Seen.subset hknown fun row hrow => ?_
  rwa [after_offers hwf]

/-- Behind a page that is all older than `since` nothing is in range. -/
theorem not_due_of_endsOld (hwf : run.WellFormed) {n p : Nat} {raw : Dict}
    (hn : n ≤ run.pages.length) (hold : EndsOld run.args (run.pages.take n))
    (hp : n * run.limits.pageSize ≤ p) (hraw : run.feed[p]? = some raw) :
    dueAt run.args p raw = false := by
  obtain ⟨before, page, hpages, hfirst, holder⟩ := hold
  obtain ⟨hrules, hempty⟩ := Bool.and_eq_true_iff.mp hfirst
  have hsince := (Bool.and_eq_true_iff.mp hrules).2
  obtain ⟨x, xs, rfl⟩ : ∃ x xs, page = x :: xs := by
    cases page with
    | nil => cases hempty
    | cons x xs => exact ⟨x, xs, rfl⟩
  -- the first record of the old page, by its position in the feed
  have hflat : run.feed.take (n * run.limits.pageSize) = before.flatten ++ x :: xs := by
    rw [← hwf.pages_cut n hn, hpages, List.flatten_append, List.flatten_singleton]
  have hget : (run.feed.take (n * run.limits.pageSize))[before.flatten.length]? = some x := by
    rw [hflat, List.getElem?_append_right (Nat.le_refl _), Nat.sub_self]
    rfl
  have hlt : before.flatten.length < n * run.limits.pageSize := by
    have hlength := (List.getElem?_eq_some_iff.mp hget).1
    rw [List.length_take] at hlength
    omega
  rw [List.getElem?_take_of_lt hlt] at hget
  have hxold : recentAt run.args before.flatten.length x = false := by
    rw [olderFrom] at holder
    simpa using (Bool.and_eq_true_iff.mp holder).1
  by_contra hdue
  have hrecent := recentAt_of_due (hwf.valid raw (List.mem_of_getElem? hraw)) hsince
    (Bool.not_eq_false _ ▸ hdue)
  rw [hwf.newest_first _ p x raw (Nat.lt_of_lt_of_le hlt hp) hget hraw hrecent] at hxold
  cases hxold

/-- What a run without a failed page does not come to lies behind a page end at
which the run looks caught up. -/
theorem takes_or_behind (hwf : run.WellFormed) {result : IngestionResult} {state : RunState}
    (hrun : run.outcome = .ok (result, state)) (hfailed : state.fetchFailed = false) {p : Nat}
    {raw : Dict} (hscope : run.InScope p raw) :
    run.Takes p raw ∨ ∃ pageCount, 0 < pageCount ∧ pageCount * run.limits.pageSize ≤ p ∧
      run.LooksCaughtUp pageCount := by
  obtain ⟨hraw, hlimit, hdue⟩ := hscope
  have hsize := hwf.pageSize_pos
  by_cases hreads : ReadsPage run.env.toIngestEnv run.args run.db run.pages
      (p / run.limits.pageSize)
  · exact .inl ⟨hraw, hdue, hreads⟩
  have hends : ∃ n, 0 < n ∧ n ≤ run.pages.length ∧ n ≤ p / run.limits.pageSize ∧
      EndsAfter run.env.toIngestEnv run.args run.db (run.pages.take n) := by
    by_cases hlength : p / run.limits.pageSize < run.pages.length
    · obtain ⟨i, hpos, hi, hends⟩ : ∃ i, 0 < i ∧ i ≤ p / run.limits.pageSize ∧
          EndsAfter run.env.toIngestEnv run.args run.db (run.pages.take i) := by
        by_contra hnone
        exact hreads ⟨hlength, fun i hpos hi hends => hnone ⟨i, hpos, hi, hends⟩⟩
      exact ⟨i, hpos, Nat.le_of_lt (Nat.lt_of_le_of_lt hi hlength), hi, hends⟩
    · obtain ⟨result', state', hrun', _, _, hend⟩ := outcome_ok hwf
      obtain ⟨rfl, rfl⟩ := Prod.mk.inj (Except.ok.inj (hrun.symm.trans hrun'))
      rcases hend hfailed with hnone | ⟨hpos, hends⟩
      · have hp : run.pages.length * run.limits.pageSize ≤ p :=
          (Nat.le_div_iff_mul_le hsize).mp (Nat.le_of_not_lt hlength)
        have hfeed := (List.getElem?_eq_some_iff.mp hraw).1
        rcases hwf.pages_end hnone with hmax | hshort
        · rw [hmax, Nat.mul_comm] at hp
          omega
        · omega
      · have hread : run.pagesRead ≤ run.pages.length := reached_le
        exact ⟨_, hpos, hread, Nat.le_trans hread (Nat.le_of_not_lt hlength), hends⟩
  obtain ⟨n, hpos, hn, hle, hold | ⟨_, hcaught⟩⟩ := hends
  · have hp := (Nat.le_div_iff_mul_le hsize).mp hle
    rw [not_due_of_endsOld hwf hn hold hp hraw] at hdue
    cases hdue
  · refine .inr ⟨n, hpos, (Nat.le_div_iff_mul_le hsize).mp hle, ?_⟩
    rw [hwf.pages_cut n hn] at hcaught
    exact hcaught

/-! ## A history -/

theorem Before.trans {first middle last : FeedRun} (hmiddle : middle.WellFormed)
    (h : Before first middle) (h' : Before middle last) : Before first last where
  grown := by
    obtain ⟨new, hnew⟩ := h.grown
    obtain ⟨newer, hnewer⟩ := h'.grown
    exact ⟨newer ++ new, by rw [hnewer, hnew, List.append_assoc]⟩
  kept row hrow := h'.kept row (after_keeps hmiddle row (h.kept row hrow))
  mapOffer := h'.mapOffer.trans h.mapOffer
  sourceId := h'.sourceId.trans h.sourceId
  pydantic := h'.pydantic.trans h.pydantic
  text := h'.text.trans h.text

theorem IsHistory.pairwise {history : List FeedRun} (h : IsHistory history) :
    history.Pairwise Before := by
  induction history with
  | nil => exact .nil
  | cons run history ih =>
      have hchain := List.isChain_cons.mp h.chain
      have hrest : history.Pairwise Before :=
        ih ⟨fun r hr => h.wellFormed r (List.mem_cons_of_mem _ hr), hchain.2⟩
      refine List.pairwise_cons.mpr ⟨fun later hlater => ?_, hrest⟩
      cases history with
      | nil => cases hlater
      | cons next history =>
          have hnext : Before run next := hchain.1 next rfl
          rcases List.mem_cons.mp hlater with rfl | hmem
          · exact hnext
          · exact hnext.trans (h.wellFormed next (List.mem_cons_of_mem _ List.mem_cons_self))
              ((List.pairwise_cons.mp hrest).1 later hmem)

/-- An offer that an earlier run has come to is stored when a later run starts. -/
theorem Before.stores {earlier : FeedRun} (h : Before earlier run) (hwf : earlier.WellFormed)
    {q p : Nat} {raw x : Dict} (hq : q + run.feed.length = p + earlier.feed.length)
    (htakes : earlier.Takes q x) (hraw : run.feed[p]? = some raw) : run.Stores run.db raw := by
  obtain ⟨new, hgrown⟩ := h.grown
  have hlength : run.feed.length = new.length + earlier.feed.length := by
    rw [hgrown, List.length_append]
  obtain rfl : x = raw := by
    rw [hgrown, List.getElem?_append_right (by omega)] at hraw
    have hposition : p - new.length = q := by omega
    rw [hposition, htakes.1] at hraw
    exact Option.some.inj hraw
  have hstored := Seen.subset (stores_of_takes hwf htakes) h.kept
  have hoffer : offerOf run.env.toIngestEnv run.args x =
      offerOf earlier.env.toIngestEnv earlier.args x := by
    have hmap : run.args.mapOffer = earlier.args.mapOffer := h.mapOffer
    have hid : run.args.sourceId = earlier.args.sourceId := h.sourceId
    have hpydantic : run.env.toIngestEnv.pydantic = earlier.env.toIngestEnv.pydantic := h.pydantic
    rw [offerOf, offerOf, hmap, hid, hpydantic]
  rw [Stores, Seen, hoffer, h.text]
  exact hstored

/-- In a history whose runs look caught up only where earlier runs have come to
all that is behind, no run that succeeds without a failed page leaves a gap. -/
theorem history_leaves_no_gap {history : List FeedRun} (h : IsHistory history)
    (hsound : ∀ earlier run later, history = earlier ++ run :: later → run.StopsSoundly earlier) :
    ∀ run ∈ history, run.LeavesNoGap := by
  intro run hrun result state houtcome _ hfailed p raw hscope
  obtain ⟨earlier, later, rfl⟩ := List.append_of_mem hrun
  have hwf := h.wellFormed run hrun
  rcases takes_or_behind hwf houtcome hfailed hscope with htakes | ⟨n, hpos, hp, hcaught⟩
  · exact stores_of_takes hwf htakes
  · obtain ⟨r, hr, q, hq, htakes⟩ := hsound earlier run later rfl n p raw hpos hcaught hp hscope
    have hbefore : Before r run :=
      (List.pairwise_append.mp h.pairwise).2.2 r hr run List.mem_cons_self
    have hwf' := h.wellFormed r (List.mem_append_left _ hr)
    exact Seen.subset (hbefore.stores hwf' hq htakes hscope.1) (after_keeps hwf)

end FeedRun

/-! ## A feed of two offers -/

def twoOffersSource : Source :=
  { id := 1
    name := "acme"
    connector := none
    configJson := ⟨[("page_size", .int 1), ("max_pages", .int 2),
      ("already_seen_stop_threshold", .int 1)]⟩
    lastFetchedAt := none }

/-- One offer a page; the second page may fail. -/
def twoOffersBoard (secondFails : Bool) : JobBoardConnector Int :=
  { name := "acme"
    initialCursor := 0
    mapOffer := fun _ raw => .ok raw
    supportsFetchScope := false
    applyFetchScopeTerm := fun config _ => config
    runnerKwargs := fun _ limits => pure limits
    fetchPage := fun _ _ _ pageIndex _ =>
      if pageIndex = 0 then .got ([acmeFields "a"], some 1)
      else if secondFails then .failed
      else .got ([acmeFields "b"], none) }

def twoOffersRun (secondFails : Bool) (db : Database) : FeedRun :=
  { env := acmeRunEnv
    conn := twoOffersBoard secondFails
    source := twoOffersSource
    limits := ⟨1, 2, 1⟩
    feed := [acmeFields "a", acmeFields "b"]
    db }

theorem twoOffersRun_wellFormed (secondFails : Bool) (db : Database) :
    (twoOffersRun secondFails db).WellFormed where
  unfiltered hsupports := nomatch hsupports
  limits_read := rfl
  pageSize_pos := Nat.one_pos
  first_page := by cases secondFails <;> exact List.cons_ne_nil _ _
  pages_cut n hn := by
    cases secondFails with
    | true =>
        have hn : n ≤ 1 := hn
        obtain rfl | rfl : n = 0 ∨ n = 1 := by omega
        all_goals rfl
    | false =>
        have hn : n ≤ 2 := hn
        obtain rfl | rfl | rfl : n = 0 ∨ n = 1 ∨ n = 2 := by omega
        all_goals rfl
  pages_end hnone := by
    cases secondFails with
    | true => cases hnone
    | false => exact .inl rfl
  newest_first _ _ _ _ _ _ _ hrecent := by
    rw [FeedRun.recentAt_of_unbounded rfl] at hrecent
    cases hrecent
  valid raw hraw := by
    have ha : Schemas.Offer.modelValidate acmeEnv.pydantic (acmeFields "a") =
        some (acmeOffer "a") := by decide
    have hb : Schemas.Offer.modelValidate acmeEnv.pydantic (acmeFields "b") =
        some (acmeOffer "b") := by decide
    rcases List.mem_pair.mp hraw with rfl | rfl
    · exact acme_validRecord rfl ⟨rfl, rfl⟩ ha rfl
    · exact acme_validRecord rfl ⟨rfl, rfl⟩ hb rfl
  deadLetter _ _ _ := by
    have hkey : ("source:" ++ toString 1).length ≤ 255 := by decide
    exact insertIngestionFailure_taken rfl hkey

theorem twoOffersRun_before (secondFails : Bool) (db : Database) :
    (twoOffersRun secondFails db).Before
      (twoOffersRun false (twoOffersRun secondFails db).after) where
  grown := ⟨[], rfl⟩
  kept _ hrow := hrow
  mapOffer := rfl
  sourceId := rfl
  pydantic := rfl
  text := rfl

theorem twoOffers_isHistory (secondFails : Bool) :
    FeedRun.IsHistory [twoOffersRun secondFails {},
      twoOffersRun false (twoOffersRun secondFails {}).after] where
  wellFormed run hrun := by
    rcases List.mem_pair.mp hrun with rfl | rfl
    · exact twoOffersRun_wellFormed _ _
    · exact twoOffersRun_wellFormed _ _
  chain := List.isChain_pair.mpr (twoOffersRun_before secondFails {})

/-- Two runs without a failed page: the second one stops at "a", and the first
one has come to "b". -/
theorem history_leaves_no_gap_twoOffers :
    (twoOffersRun false {}).LeavesNoGap ∧
      (twoOffersRun false (twoOffersRun false {}).after).LeavesNoGap := by
  have hend {run : FeedRun} {pageCount p : Nat} {raw : Dict}
      (hfeed : run.feed = [acmeFields "a", acmeFields "b"]) (hpos : 0 < pageCount)
      (hp : pageCount * 1 ≤ p) (hraw : run.feed[p]? = some raw) :
      pageCount = 1 ∧ p = 1 ∧ raw = acmeFields "b" := by
    have hlt := (List.getElem?_eq_some_iff.mp hraw).1
    rw [hfeed] at hlt hraw
    have hlt : p < 2 := hlt
    obtain rfl : p = 1 := by omega
    exact ⟨by omega, rfl, (Option.some.inj hraw).symm⟩
  have hsound : ∀ earlier run later,
      [twoOffersRun false {}, twoOffersRun false (twoOffersRun false {}).after] =
        earlier ++ run :: later → run.StopsSoundly earlier := ?_
  · have hall := FeedRun.history_leaves_no_gap (twoOffers_isHistory false) hsound
    exact ⟨hall _ List.mem_cons_self, hall _ (List.mem_cons_of_mem _ List.mem_cons_self)⟩
  intro earlier run later hsplit pageCount p raw hpos hcaught hp hscope
  rcases earlier with _ | ⟨first, _ | ⟨second, earlier⟩⟩
  · obtain ⟨rfl, rfl⟩ := List.cons.inj hsplit
    obtain ⟨rfl, rfl, rfl⟩ := hend rfl hpos hp hscope.1
    have hcount := Memory.le_count_iff.mpr hcaught
    exact absurd hcount (by decide)
  · obtain ⟨rfl, hrest⟩ := List.cons.inj hsplit
    obtain ⟨rfl, rfl⟩ := List.cons.inj hrest
    obtain ⟨rfl, rfl, rfl⟩ := hend rfl hpos hp hscope.1
    refine ⟨_, List.mem_singleton_self _, 1, rfl, rfl, rfl, ?_⟩
    have hread : 1 < (twoOffersRun false {}).pagesRead := by decide
    exact (FeedRun.lt_pagesRead_iff (twoOffersRun_wellFormed false {})).mp hread
  · simp at hsplit

/-- The page with "b" fails in the first run. The second one stops at "a", and
"b" is in scope but not stored. -/
theorem failed_page_leaves_gap :
    FeedRun.IsHistory [twoOffersRun true {}, twoOffersRun false (twoOffersRun true {}).after] ∧
      (twoOffersRun false (twoOffersRun true {}).after).InScope 1 (acmeFields "b") ∧
      ¬ (twoOffersRun false (twoOffersRun true {}).after).LeavesNoGap := by
  have hscope : (twoOffersRun false (twoOffersRun true {}).after).InScope 1 (acmeFields "b") :=
    ⟨rfl, by decide, rfl⟩
  refine ⟨twoOffers_isHistory true, hscope, fun hgap => ?_⟩
  have hstored := hgap _ _ rfl rfl rfl 1 (acmeFields "b") hscope
  exact absurd hstored (by decide)

end RecruFlow.Connectors
