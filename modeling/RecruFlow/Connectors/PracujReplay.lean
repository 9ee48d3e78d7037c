import RecruFlow.Connectors.Pracuj

/-!
# Is every record that was enumerated ingested?

The replay goes through the loop that was written for live feeds, with its page
limit, its caught-up rule and its exceptions. Each of them can end the replay
before the last record.
-/

namespace RecruFlow.Connectors

open Db Dlq Ingestion Lib.Pages

variable {env : IngestEnv} {args : RunnerArgs} {offers : List Dict} {pageSize : Nat} {w₀ : Walk}

/-- The records that are due, from a position of the list on. -/
def dueBehind (args : RunnerArgs) (offers : List Dict) (position : Nat) : List Dict :=
  dueFrom args position (offers.drop position)

/-- Nothing ends the replay before its last due record. -/
structure ReplayComplete (env : IngestEnv) (args : RunnerArgs) (pageSize : Nat)
    (offers : List Dict) (w₀ : Walk) : Prop where
  /-- The page limit lets all due records through. -/
  within_limit : dueBehind args offers (args.maxPages * pageSize) = []
  /-- At a page boundary where the records so far look caught up, no due record is left. -/
  not_caught_up : ∀ k w, 0 < k →
    (offers.take (k * pageSize)).foldlM (step env args) w₀ = .ok w → caughtUp args w = true →
      dueBehind args offers (k * pageSize) = []
  /-- A record that raises has been handed over, and no due record is left. -/
  not_raised : ∀ i raw w e w', offers[i]? = some raw →
    (offers.take i).foldlM (step env args) w₀ = .ok w → step env args w raw = .error (e, w') →
      w'.handed = w.handed ++ [raw] ∧ dueBehind args offers (i + 1) = []

/-! ## The pages of the replay -/

theorem feedFrom_replayPage (pages pageIndex cursor : Nat) :
    let feed := feedFrom (replayPage offers pageSize) pages pageIndex cursor
    feed.2 = none ∧ feed.1.length ≤ pages ∧
      (∀ k ≤ feed.1.length,
        (feed.1.take k).flatten = (offers.drop cursor).take (k * pageSize)) ∧
      (feed.1.length = pages ∨ offers.length ≤ cursor + feed.1.length * pageSize) := by
  induction pages generalizing pageIndex cursor with
  | zero =>
      refine ⟨rfl, Nat.le_refl 0, fun k hk => ?_, .inl rfl⟩
      obtain rfl : k = 0 := Nat.le_zero.mp hk
      simp [feedFrom]
  | succ pages ih =>
      have hpage : replayPage offers pageSize pageIndex cursor =
          .got ((offers.drop cursor).take pageSize,
            if cursor + pageSize < offers.length then some (cursor + pageSize) else none) := rfl
      have hone : ∀ k ≤ 1, ([(offers.drop cursor).take pageSize].take k).flatten =
          (offers.drop cursor).take (k * pageSize) := by
        intro k hk
        cases k with
        | zero => simp
        | succ j =>
            obtain rfl : j = 0 := by omega
            simp
      by_cases hmore : cursor + pageSize < offers.length
      · rw [if_pos hmore] at hpage
        obtain ⟨hfailure, hlength, htake, hend⟩ := ih (pageIndex + 1) (cursor + pageSize)
        simp only [feedFrom, hpage]
        refine ⟨hfailure, Nat.succ_le_succ hlength, fun k hk => ?_, ?_⟩
        · cases k with
          | zero => simp
          | succ j =>
              have hsplit : (j + 1) * pageSize = pageSize + j * pageSize := by
                rw [Nat.succ_mul, Nat.add_comm]
              rw [List.take_succ_cons, List.flatten_cons, htake j (Nat.le_of_succ_le_succ hk),
                hsplit, List.take_add, List.drop_drop]
        · rw [List.length_cons, Nat.succ_mul]
          omega
      · rw [if_neg hmore] at hpage
        simp only [feedFrom, hpage]
        refine ⟨trivial, by simp, hone, .inr ?_⟩
        simp only [List.length_singleton, Nat.one_mul]
        omega

/-! ## The records that are due -/

theorem dueBehind_mono {p q : Nat} (hpq : p ≤ q) (h : dueBehind args offers p = []) :
    dueBehind args offers q = [] := by
  by_cases hq : offers.length ≤ q
  · rw [dueBehind, List.drop_eq_nil_of_le hq, dueFrom]
  · have hsplit : offers.drop p = (offers.drop p).take (q - p) ++ offers.drop q := by
      have hdrop : (offers.drop p).drop (q - p) = offers.drop q := by
        rw [List.drop_drop]
        congr 1
        omega
      rw [← hdrop, List.take_append_drop]
    have hlength : p + ((offers.drop p).take (q - p)).length = q := by
      rw [List.length_take, List.length_drop]
      omega
    rw [dueBehind, hsplit, dueFrom_append, hlength] at h
    exact (List.append_eq_nil_iff.mp h).2

theorem dueBehind_of_due {i : Nat} {raw : Dict} (hraw : offers[i]? = some raw)
    (hdue : dueAt args i raw = true) :
    dueBehind args offers i = raw :: dueBehind args offers (i + 1) := by
  have hi := (List.getElem?_eq_some_iff.mp hraw).1
  rw [dueBehind, List.drop_eq_getElem_cons hi, (List.getElem?_eq_some_iff.mp hraw).2, dueFrom,
    if_pos hdue, dueBehind]

/-- The due records are those of the first records and those behind them. -/
theorem dueFrom_eq_append (p : Nat) :
    dueFrom args 0 offers = dueFrom args 0 (offers.take p) ++ dueBehind args offers p := by
  by_cases hp : offers.length ≤ p
  · rw [dueBehind, List.drop_eq_nil_of_le hp, List.take_of_length_le hp, dueFrom, List.append_nil]
  · have hlength : 0 + (offers.take p).length = p := by
      rw [List.length_take]
      omega
    have happend := @dueFrom_append args 0 (offers.take p) (offers.drop p)
    rw [List.take_append_drop, hlength] at happend
    exact happend

/-! ## The walk of the replay -/

section Walk

variable {state : RunState}

/-- The pages that the replay goes through, or tries to. -/
def replayed (env : IngestEnv) (args : RunnerArgs) (offers : List Dict) (pageSize : Nat)
    (state : RunState) : Nat :=
  reached env args (replayPage offers pageSize) 0 state

theorem take_replayed {k : Nat}
    (hk : k ≤ (feed args (replayPage offers pageSize) 0).length) :
    ((feed args (replayPage offers pageSize) 0).take k).flatten = offers.take (k * pageSize) := by
  have htake := (@feedFrom_replayPage offers pageSize args.maxPages 0 0).2.2.1 k hk
  rwa [List.drop_zero] at htake

theorem walked_replay : walked env args (replayPage offers pageSize) 0 state =
    offers.take (replayed env args offers pageSize state * pageSize) :=
  take_replayed reach_le

theorem replayed_le : replayed env args offers pageSize state ≤ args.maxPages :=
  Nat.le_trans reach_le (@feedFrom_replayPage offers pageSize args.maxPages 0 0).2.1

/-- The replay ends where it looks caught up, or before. -/
theorem replayed_le_of_caughtUp {k : Nat} {w : Walk} (hpos : 0 < k)
    (hfold : (offers.take (k * pageSize)).foldlM (step env args) (.start state) = .ok w)
    (hcaught : caughtUp args w = true) : replayed env args offers pageSize state ≤ k := by
  by_contra hle
  have hk : k < replayed env args offers pageSize state := Nat.lt_of_not_le hle
  obtain ⟨m, hpages, hstop⟩ := not_stop_of_lt_reach hpos hk
  have hrecords := @foldlM_goPage env args (.start state)
    ((feed args (replayPage offers pageSize) 0).take k) false
  rw [hpages, take_replayed (Nat.le_of_lt (Nat.lt_of_lt_of_le hk reach_le)), hfold] at hrecords
  obtain rfl : m.2 = w := Except.ok.inj hrecords
  rw [stopsWalk, hcaught, Bool.or_true] at hstop
  cases hstop

/-- The replay ends because it looks caught up, at the page limit, or at the end of the list. -/
theorem replay_end {w : Walk} (hsorted : args.sortedByRecency = false)
    (h : (offers.take (replayed env args offers pageSize state * pageSize)).foldlM
      (step env args) (.start state) = .ok w) :
    (0 < replayed env args offers pageSize state ∧ caughtUp args w = true) ∨
      replayed env args offers pageSize state = args.maxPages ∨
        offers.length ≤ replayed env args offers pageSize state * pageSize := by
  have hwalk := @walkFeed_records Nat env args (replayPage offers pageSize) 0 state
  rw [walked_replay, h] at hwalk
  cases hfeed : walkFeed env args (replayPage offers pageSize) 0 state with
  | error raised =>
      rw [hfeed] at hwalk
      cases hwalk
  | ok r =>
      obtain ⟨stopped, s⟩ := r
      rw [hfeed] at hwalk
      obtain rfl : s.2 = w := Except.ok.inj hwalk
      cases stopped with
      | false =>
          have hall : replayed env args offers pageSize state =
              (feed args (replayPage offers pageSize) 0).length := reach_of_walk hfeed
          have hend := (@feedFrom_replayPage offers pageSize args.maxPages 0 0).2.2.2
          rw [Nat.zero_add] at hend
          rw [hall]
          exact .inr hend
      | true =>
          refine .inl ⟨reach_pos fun hnil => ?_, caughtUp_of_stopped hsorted hfeed⟩
          rw [walkFeed, hnil] at hfeed
          cases hfeed

theorem eq_append_cons_iff {α : Type} {x : α} {xs ys zs : List α}
    (h : ys = xs ∨ ys = xs ++ [x]) : ys = xs ++ x :: zs ↔ ys = xs ++ [x] ∧ zs = [] := by
  constructor
  · intro heq
    rcases h with h | h
    · have hlength := congrArg List.length (h.symm.trans heq)
      rw [List.length_append, List.length_cons] at hlength
      omega
    · have hcancel : [x] = x :: zs := List.append_cancel_left (h.symm.trans heq)
      exact ⟨h, (List.cons.inj hcancel).2.symm⟩
  · rintro ⟨h, rfl⟩
    exact h

/-- The record that raises was due, and may have been handed over. -/
theorem raised_is_due {i : Nat} {raw : Dict} {w w' : Walk} {e : PyError}
    (hraw : offers[i]? = some raw)
    (htake : (offers.take i).foldlM (step env args) (.start state) = .ok w)
    (hstep : step env args w raw = .error (e, w')) :
    dueAt args i raw = true ∧ (w'.handed = w.handed ∨ w'.handed = w.handed ++ [raw]) := by
  have hturn : w.turn = i := by
    have hi := (List.getElem?_eq_some_iff.mp hraw).1
    have hcount := (foldlM_step_ok htake).1
    rw [List.length_take, Nat.min_eq_left (Nat.le_of_lt hi)] at hcount
    exact hcount.trans (Nat.zero_add i)
  have hdue := ingestRecord_error (step_error hstep)
  rwa [hturn] at hdue

/-- The replay hands over every due record exactly when nothing ends it before
the last of them. -/
theorem handedBy_replayed_iff (hsorted : args.sortedByRecency = false)
    (hhanded : state.handed = []) :
    Walk.handedBy ((offers.take (replayed env args offers pageSize state * pageSize)).foldlM
        (step env args) (.start state)) = dueFrom args 0 offers ↔
      ReplayComplete env args pageSize offers (.start state) := by
  have hle : replayed env args offers pageSize state * pageSize ≤ args.maxPages * pageSize :=
    Nat.mul_le_mul_right pageSize replayed_le
  generalize hn : replayed env args offers pageSize state * pageSize = n at hle ⊢
  have hstart : (Walk.start state).handed = [] := hhanded
  cases hfold : (offers.take n).foldlM (step env args) (.start state) with
  | ok w =>
      have hdone : w.handed = dueFrom args 0 (offers.take n) := by
        rw [(foldlM_step_ok hfold).2, hstart]
        rfl
      have hprop : Walk.handedBy (.ok w : Except (PyError × Walk) Walk) = dueFrom args 0 offers ↔
          dueBehind args offers n = [] := by
        rw [Walk.handedBy, hdone, @dueFrom_eq_append args offers n]
        exact List.self_eq_append_right
      rw [hprop]
      constructor
      · intro hnone
        refine ⟨dueBehind_mono hle hnone, fun k w' hk hw' hcaught => ?_, ?_⟩
        · apply dueBehind_mono _ hnone
          rw [← hn]
          exact Nat.mul_le_mul_right pageSize (replayed_le_of_caughtUp hk hw' hcaught)
        · intro i raw w' e w'' hraw htake hstep
          have hdue := (raised_is_due hraw htake hstep).1
          have hbehind := dueBehind_mono (le_of_raises hfold hraw htake hstep) hnone
          rw [dueBehind_of_due hraw hdue] at hbehind
          cases hbehind
      · intro hcomplete
        rw [← hn] at hfold ⊢
        rcases replay_end hsorted hfold with ⟨hpos, hcaught⟩ | hmax | hend
        · exact hcomplete.not_caught_up _ w hpos hfold hcaught
        · rw [hmax]
          exact hcomplete.within_limit
        · rw [dueBehind, List.drop_eq_nil_of_le hend, dueFrom]
  | error raised =>
      obtain ⟨e, w'⟩ := raised
      obtain ⟨i, raw, w, hget, htake, hstep⟩ := foldlM_error hfold
      have hi : i < n := by
        have := (List.getElem?_eq_some_iff.mp hget).1
        rw [List.length_take] at this
        omega
      rw [List.getElem?_take_of_lt hi] at hget
      rw [List.take_take, Nat.min_eq_left (Nat.le_of_lt hi)] at htake
      obtain ⟨hdue, hhanded'⟩ := raised_is_due hget htake hstep
      have hdone : w.handed = dueFrom args 0 (offers.take i) := by
        rw [(foldlM_step_ok htake).2, hstart]
        rfl
      have hprop : Walk.handedBy (.error (e, w') : Except (PyError × Walk) Walk) =
            dueFrom args 0 offers ↔
          w'.handed = w.handed ++ [raw] ∧ dueBehind args offers (i + 1) = [] := by
        rw [Walk.handedBy, @dueFrom_eq_append args offers i, dueBehind_of_due hget hdue, ← hdone]
        exact eq_append_cons_iff hhanded'
      rw [hprop]
      constructor
      · rintro ⟨hlast, hnone⟩
        refine ⟨dueBehind_mono (by omega) hnone, fun k m hk hm hcaught => ?_, ?_⟩
        · -- the record that raises is behind the pages that look caught up
          have hbefore : k * pageSize ≤ i := le_of_raises hm hget htake hstep
          have hreach : n ≤ k * pageSize := by
            rw [← hn]
            exact Nat.mul_le_mul_right pageSize (replayed_le_of_caughtUp hk hm hcaught)
          omega
        · intro j raw' m e' m' hget' htake' hstep'
          obtain rfl : i = j := Nat.le_antisymm (le_of_raises htake hget' htake' hstep')
            (le_of_raises htake' hget htake hstep)
          obtain rfl : raw = raw' := Option.some.inj (hget.symm.trans hget')
          obtain rfl : w = m := Except.ok.inj (htake.symm.trans htake')
          have hraised := Except.error.inj (hstep.symm.trans hstep')
          rw [← (Prod.mk.inj hraised).2]
          exact ⟨hlast, hnone⟩
      · intro hcomplete
        exact hcomplete.not_raised i raw w e w' hget htake hstep

end Walk

/-! ## The run -/

namespace PracujConnector

variable {env : RunEnv} {conn : PracujConnector} {source : Source} {forceRefresh : Bool}
  {state state' : RunState}

theorem handedBy_bind {α β : Type} {x : Except (PyError × RunState) (α × RunState)}
    {f : α × RunState → Except (PyError × RunState) (β × RunState)}
    (h : ∀ a state, handedBy (f (a, state)) = state.handed) : handedBy (x >>= f) = handedBy x := by
  cases x with
  | error raised => rfl
  | ok r => exact h r.1 r.2

theorem recordBlockedUrls_handed {blocked : List (PyValue × Nat)} :
    handedBy ((conn.recordBlockedUrls env source blocked state).map ((), ·)) = state.handed := by
  induction blocked generalizing state with
  | nil => rfl
  | cons b blocked ih =>
      obtain ⟨url, statusCode⟩ := b
      cases url with
      | str url => exact ih
      | _ => rfl

theorem writeConfig_handed {sourceId : Nat} {configJson : Dict} :
    handedBy ((writeConfig sourceId configJson state).map ((), ·)) = state.handed := by
  rw [writeConfig]
  cases state.session.write (updateConfig sourceId configJson) <;> rfl

/-- Nothing is handed over after the replay. -/
theorem afterReplay_handed {terms : List String} {e : PracujOffers} :
    handedBy ((conn.afterReplay env source terms e state).map ((), ·)) = state.handed := by
  have hblocked := @recordBlockedUrls_handed env conn source state e.blocked
  rw [← hblocked, afterReplay]
  cases conn.recordBlockedUrls env source e.blocked state with
  | error raised => rfl
  | ok state₁ =>
      cases hterms : terms.isEmpty with
      | true =>
          simp only [bind, Except.bind, if_true]
          exact writeConfig_handed
      | false =>
          simp only [bind, Except.bind, Bool.false_eq_true, if_false]
          rfl

/-- The state at the start of the replay of a run. -/
def replayState (env : RunEnv) (conn : PracujConnector) (source : Source) (e : PracujOffers)
    (session : Session) : RunState :=
  conn.recordMidRun env source e { session, fetchFailed := e.listingFailed }

theorem handedBy_runEnumerated {config : PracujConfig} {terms : List String} {e : PracujOffers}
    {session : Session} (hok : e.enumerationOk = true) :
    handedBy (conn.runEnumerated env source forceRefresh config terms e { session }) =
      handedBy (conn.replay env source forceRefresh config e.offers
        (replayState env conn source e session)) := by
  rw [runEnumerated, if_pos hok]
  refine handedBy_bind fun result state => ?_
  have hafter := @afterReplay_handed env conn source state terms e
  rw [← hafter]
  dsimp only
  cases conn.afterReplay env source terms e state <;> rfl

/-- A run whose enumeration has succeeded hands every collected record over
exactly once, but for those outside the fetch range, exactly when nothing ends
its replay before the last due record. -/
theorem run_hands_over_all_iff {config : PracujConfig} {scope : FetchScopeResolution}
    {e : PracujOffers} {session : Session}
    (hconfig : readPracujConfig env source.configJson = .ok config)
    (hscope : resolveFetchScopeTerms source.configJson session = .ok scope)
    (hunblocked : scope.blockedReason = none)
    (henumerate : enumeratePracujOffers conn.site config.limits scope.terms config.categoryFilter
      config.startPage = .ok e)
    (hok : e.enumerationOk = true) :
    handedBy (conn.run env source forceRefresh { session }) =
        dueFrom (conn.runnerArgs env source forceRefresh config) 0 e.offers ↔
      ReplayComplete env.toIngestEnv (conn.runnerArgs env source forceRefresh config)
        config.limits.pageSize e.offers (.start (replayState env conn source e session)) := by
  have hrun : conn.run env source forceRefresh { session } =
      conn.runEnumerated env source forceRefresh config scope.terms e { session } := by
    simp only [run, lift, liftSession, hconfig, hscope, hunblocked, henumerate, Except.mapError,
      bind, Except.bind]
  have hstart : (replayState env conn source e session).handed = [] := by
    unfold replayState recordMidRun
    split <;> rfl
  rw [hrun, handedBy_runEnumerated hok, replay, handedBy_run, walked_replay]
  exact handedBy_replayed_iff rfl hstart

/-! ## A listing whose first posting is already stored -/

def posting (title : String) : Dict :=
  ⟨[("attributes", .dict [("jobTitle", .str title), ("displayEmployerName", .str "acme")])]⟩

/-- `map_offer` of a posting without other attributes. -/
def mapPosting (sourceId : Nat) (raw : Dict) : Except PyError Dict :=
  match raw.getD "attributes" .none with
  | .dict attrs => .ok
      ⟨[("source_id", .int sourceId), ("external_id", .none), ("canonical_url", .none),
        ("title", Dict.getD ⟨attrs⟩ "jobTitle" (.str "")),
        ("company", Dict.getD ⟨attrs⟩ "displayEmployerName" (.str "")), ("location", .none),
        ("remote", .bool false), ("seniority", .none), ("salary_min", .none),
        ("salary_max", .none), ("salary_currency", .str "PLN"), ("contract_type", .none),
        ("posted_at", .none), ("description", .none)]⟩
  | _ => .error .attributeError

/-- Two listing pages with one posting each. -/
def twoPostings : PracujConnector :=
  { mapOffer := mapPosting
    site := fun _ _ =>
      { listingPage := fun
          | 1 => .got [.dict [("offers", .list [.dict [("offerAbsoluteUri", .str "a")]])]]
          | 2 => .got [.dict [("offers", .list [.dict [("offerAbsoluteUri", .str "b")]])]]
          | _ => .got []
        detail := fun _ => fun
          | .str title => .got (posting title)
          | _ => .failed } }

def pracujSource : Source :=
  { id := 1
    name := "Pracuj.pl"
    connector := some "pracuj"
    configJson := ⟨[("page_size", .int 1), ("max_pages", .int 2),
      ("already_seen_stop_threshold", .int 1)]⟩
    lastFetchedAt := none }

/-- The first posting is stored. -/
def storedSession : Session :=
  let row := newOfferRow acmeEnv firstOffer (posting "a")
    "45bea61968abc70597864c25a863e19aa7e03888dca7e43ff6461bb1de0bcef6" {}
  .opened { sources := [pracujSource], offers := [row], nextOfferId := 2 }

theorem run_hands_over_all_iff_twoPostings :
    ∃ config e, readPracujConfig acmeRunEnv pracujSource.configJson = .ok config ∧
      enumeratePracujOffers twoPostings.site config.limits [] config.categoryFilter
        config.startPage = .ok e ∧ e.enumerationOk = true ∧
      (handedBy (twoPostings.run acmeRunEnv pracujSource false { session := storedSession }) =
          dueFrom (twoPostings.runnerArgs acmeRunEnv pracujSource false config) 0 e.offers ↔
        ReplayComplete acmeRunEnv.toIngestEnv
          (twoPostings.runnerArgs acmeRunEnv pracujSource false config) config.limits.pageSize
          e.offers (.start (replayState acmeRunEnv twoPostings pracujSource e storedSession))) :=
  ⟨_, _, rfl, rfl, rfl, @run_hands_over_all_iff acmeRunEnv twoPostings pracujSource false _ ⟨.all, [], none⟩ _
    storedSession rfl rfl rfl rfl rfl⟩

/-- The replay stops behind the stored posting. The other one has been
collected too, and the next run starts behind its listing page. -/
theorem run_drops_collected_posting :
    ∃ config e, readPracujConfig acmeRunEnv pracujSource.configJson = .ok config ∧
      enumeratePracujOffers twoPostings.site config.limits [] config.categoryFilter
        config.startPage = .ok e ∧
      e.enumerationOk = true ∧ e.offers = [posting "a", posting "b"] ∧
      e.nextStartPage = some 3 ∧
      dueFrom (twoPostings.runnerArgs acmeRunEnv pracujSource false config) 0 e.offers =
        [posting "a", posting "b"] ∧
      handedBy (twoPostings.run acmeRunEnv pracujSource false { session := storedSession }) =
        [posting "a"] :=
  ⟨_, _, rfl, rfl, rfl, rfl, rfl, rfl, rfl⟩

end PracujConnector

end RecruFlow.Connectors
