import RecruFlow.Ingestion.Runner
import RecruFlow.Lib.Pages

/-!
# What a run of the pagination loop goes through

The loop is a walk over the pages that its cursors lead to. What it hands to
`ingest_offer` are the records of the walked pages that are due: all of them
but those outside the fetch range.
-/

namespace RecruFlow.Ingestion

open Connectors Db Dlq Lib.Pages

variable (env : IngestEnv) (args : RunnerArgs)

/-- Not outside the fetch range, for a record whose turn comes at `turn`. -/
def dueAt (turn : Nat) (raw : Dict) : Bool :=
  match args.mapOffer args.sourceId raw with
  | .ok mapped => outsideRange args.since args.limit (effectiveDate args turn mapped) ≠ .ok true
  | .error _ => true

def dueFrom : (turn : Nat) → List Dict → List Dict
  | _, [] => []
  | turn, raw :: offers =>
      if dueAt args turn raw then raw :: dueFrom (turn + 1) offers else dueFrom (turn + 1) offers

/-- Not older than `since`, for a record whose turn comes at `turn`. -/
def recentAt (turn : Nat) (raw : Dict) : Bool :=
  match args.mapOffer args.sourceId raw with
  | .ok mapped => notBeforeSince args (effectiveDate args turn mapped) = .ok true
  | .error _ => false

/-- No record of a page is recent. -/
def olderFrom : (turn : Nat) → List Dict → Bool
  | _, [] => true
  | turn, raw :: offers => !recentAt args turn raw && olderFrom (turn + 1) offers

/-- One record, without the flag of its page. -/
def step (w : Walk) (raw : Dict) : Except (PyError × Walk) Walk :=
  (ingestRecord env args w raw).map (·.2)

/-- `page_all_older_than_since` before the records of the page. -/
def olderAtFirst (offers : List Dict) : Bool :=
  args.sortedByRecency && args.since.isSome && !offers.isEmpty

/-- A page, in the form of a walk: the state is that after the page before. -/
def goPage (s : Bool × Walk) (offers : List Dict) : Except (PyError × Walk) (Bool × Walk) :=
  ingestPage env args offers (olderAtFirst args offers) s.2

/-- The caught-up rule. -/
def caughtUp (w : Walk) : Bool :=
  !args.forceRefresh && args.alreadySeenStopThreshold ≤ w.consecutiveAlreadySeen

def stopsWalk (s : Bool × Walk) : Bool :=
  s.1 || caughtUp args s.2

/-- The pages that a run without early stops fetches, and the blocked status of
the failed fetch that ends them, if one does. -/
def feedFrom {Cursor : Type} (fetchPage : FetchPage Cursor) :
    (pages pageIndex : Nat) → Cursor → List (List Dict) × Option (Option Nat)
  | 0, _, _ => ([], none)
  | pages + 1, pageIndex, cursor =>
      match fetchPage pageIndex cursor with
      | .blocked statusCode => ([], some (some statusCode))
      | .failed => ([], some none)
      | .got (offers, none) => ([offers], none)
      | .got (offers, some cursor) =>
          let (rest, failure) := feedFrom fetchPage pages (pageIndex + 1) cursor
          (offers :: rest, failure)

variable {env args} {w w' : Walk} {raw : Dict} {offers : List Dict} {older older' recent : Bool}
  {e : PyError}

/-! ## One record -/

@[simp] theorem count_handed (result : Option (OfferRow × Bool)) :
    (w.count result).handed = w.handed := by
  match result with
  | none => rfl
  | some (_, true) => rfl
  | some (_, false) => rfl

@[simp] theorem count_turn (result : Option (OfferRow × Bool)) :
    (w.count result).turn = w.turn := by
  match result with
  | none => rfl
  | some (_, true) => rfl
  | some (_, false) => rfl

theorem lift_ok {α : Type} {x : Except PyError α} {a : α} (h : w.lift x = .ok a) : x = .ok a :=
  mapError_ok h

theorem lift_error {α : Type} {x : Except PyError α} (h : w.lift x = .error (e, w')) :
    x = .error e ∧ w' = w := by
  cases x with
  | error e' =>
      have hpair := Except.error.inj h
      exact ⟨congrArg Except.error (Prod.mk.inj hpair).1, (Prod.mk.inj hpair).2.symm⟩
  | ok b => cases h

/-- What a turn that goes through does: it goes over the record, or ingests it. -/
inductive RecordTurn (env : IngestEnv) (args : RunnerArgs) (w : Walk) (raw mapped : Dict) :
    Walk → Prop
  | skipped (houtside : outsideRange args.since args.limit (effectiveDate args w.turn mapped) =
      .ok true) : RecordTurn env args w raw mapped { w with turn := w.turn + 1 }
  | ingested {result : Option (OfferRow × Bool)} {s : Session}
      (hinside : outsideRange args.since args.limit (effectiveDate args w.turn mapped) = .ok false)
      (hingest : ingestOffer env mapped raw w.session = .ok (result, s)) :
      RecordTurn env args w raw mapped
        (Walk.count { w with turn := w.turn + 1, handed := w.handed ++ [raw], session := s } result)

theorem ingestRecord_turned (h : ingestRecord env args w raw = .ok (recent, w')) :
    ∃ mapped, args.mapOffer args.sourceId raw = .ok mapped ∧
      notBeforeSince args (effectiveDate args w.turn mapped) = .ok recent ∧
      RecordTurn env args w raw mapped w' := by
  obtain ⟨mapped, hmapped, h⟩ := bind_ok h
  obtain ⟨recent', hrecent, h⟩ := bind_ok h
  obtain ⟨outside, houtside, h⟩ := bind_ok h
  have houtside := lift_ok houtside
  cases outside with
  | true =>
      obtain ⟨rfl, rfl⟩ := Prod.mk.inj (Except.ok.inj h)
      exact ⟨mapped, lift_ok hmapped, lift_ok hrecent, .skipped houtside⟩
  | false =>
      dsimp only at h
      rw [if_neg Bool.false_ne_true] at h
      cases hingest : ingestOffer env mapped raw w.session with
      | error raised =>
          rw [hingest] at h
          cases h
      | ok r =>
          rw [hingest] at h
          obtain ⟨rfl, rfl⟩ := Prod.mk.inj (Except.ok.inj h)
          exact ⟨mapped, lift_ok hmapped, lift_ok hrecent, .ingested houtside hingest⟩

/-- What a turn that goes through does to the bookkeeping. -/
theorem ingestRecord_ok (h : ingestRecord env args w raw = .ok (recent, w')) :
    recent = recentAt args w.turn raw ∧ w'.turn = w.turn + 1 ∧
      w'.handed = w.handed ++ (if dueAt args w.turn raw then [raw] else []) := by
  obtain ⟨mapped, hmapped, hrecent, hturned⟩ := ingestRecord_turned h
  have hrecentAt : recent = recentAt args w.turn raw := by
    simp [recentAt, hmapped, hrecent]
  cases hturned with
  | skipped houtside =>
      have hdue : dueAt args w.turn raw = false := by simp [dueAt, hmapped, houtside]
      rw [hdue]
      exact ⟨hrecentAt, rfl, by simp⟩
  | ingested hinside hingest =>
      have hdue : dueAt args w.turn raw = true := by simp [dueAt, hmapped, hinside]
      rw [hdue, count_turn, count_handed]
      exact ⟨hrecentAt, rfl, rfl⟩

/-- A turn that raises is that of a due record, which may have been handed over. -/
theorem ingestRecord_error (h : ingestRecord env args w raw = .error (e, w')) :
    dueAt args w.turn raw = true ∧ (w'.handed = w.handed ∨ w'.handed = w.handed ++ [raw]) := by
  rcases bind_error h with h | ⟨mapped, hmapped, h⟩
  · obtain ⟨hmapped, hw⟩ := lift_error h
    exact ⟨by simp [dueAt, hmapped], .inl (by rw [hw])⟩
  have hmapped := lift_ok hmapped
  rcases bind_error h with h | ⟨recent', hrecent, h⟩
  · obtain ⟨hrecent, hw⟩ := lift_error h
    refine ⟨?_, .inl (by rw [hw])⟩
    -- a date that `>=` cannot compare to `since`, `<` cannot either
    have houtside : outsideRange args.since args.limit (effectiveDate args w.turn mapped) =
        .error .typeError := by
      unfold notBeforeSince DateTime.ge at hrecent
      cases hsince : args.since with
      | none =>
          rw [hsince] at hrecent
          cases hrecent
      | some since =>
          rw [hsince] at hrecent
          dsimp only at hrecent
          split at hrecent
          · cases hrecent
          · next hne => simp [outsideRange, beforeSince, DateTime.lt, hne, bind, Except.bind]
    simp [dueAt, hmapped, houtside]
  rcases bind_error h with h | ⟨outside, houtside, h⟩
  · obtain ⟨houtside, hw⟩ := lift_error h
    exact ⟨by simp [dueAt, hmapped, houtside], .inl (by rw [hw])⟩
  have houtside := lift_ok houtside
  cases outside with
  | true => cases h
  | false =>
      refine ⟨by simp [dueAt, hmapped, houtside], .inr ?_⟩
      dsimp only at h
      rw [if_neg Bool.false_ne_true] at h
      split at h
      · cases h
      · have hpair := Prod.mk.inj (Except.error.inj h)
        rw [← hpair.2]

theorem step_ok (h : step env args w raw = .ok w') :
    ∃ recent, ingestRecord env args w raw = .ok (recent, w') := by
  unfold step at h
  cases hrecord : ingestRecord env args w raw with
  | error raised =>
      rw [hrecord] at h
      cases h
  | ok r =>
      rw [hrecord] at h
      exact ⟨r.1, by rw [← Except.ok.inj h]⟩

theorem step_turned (h : step env args w raw = .ok w') :
    ∃ mapped, args.mapOffer args.sourceId raw = .ok mapped ∧
      RecordTurn env args w raw mapped w' := by
  obtain ⟨recent, hrecord⟩ := step_ok h
  obtain ⟨mapped, hmapped, -, hturned⟩ := ingestRecord_turned hrecord
  exact ⟨mapped, hmapped, hturned⟩

theorem step_error (h : step env args w raw = .error (e, w')) :
    ingestRecord env args w raw = .error (e, w') := by
  unfold step at h
  cases hrecord : ingestRecord env args w raw with
  | error raised =>
      rw [hrecord] at h
      exact congrArg Except.error (Except.error.inj h)
  | ok r =>
      rw [hrecord] at h
      cases h

/-! ## Lists of records -/

theorem dueFrom_append (turn : Nat) (xs ys : List Dict) :
    dueFrom args turn (xs ++ ys) = dueFrom args turn xs ++ dueFrom args (turn + xs.length) ys := by
  induction xs generalizing turn with
  | nil => simp [dueFrom]
  | cons x xs ih =>
      have hturn : turn + 1 + xs.length = turn + (x :: xs).length := by
        rw [List.length_cons]
        omega
      rw [List.cons_append, dueFrom, dueFrom, ih, hturn]
      split <;> rfl

/-- Going through records hands over those that are due. -/
theorem foldlM_step_ok {records : List Dict}
    (h : records.foldlM (step env args) w = .ok w') :
    w'.turn = w.turn + records.length ∧ w'.handed = w.handed ++ dueFrom args w.turn records := by
  induction records generalizing w with
  | nil =>
      obtain rfl : w = w' := Except.ok.inj h
      exact ⟨rfl, by simp [dueFrom]⟩
  | cons raw records ih =>
      rw [List.foldlM_cons] at h
      obtain ⟨m, hstep, hrest⟩ := bind_ok h
      obtain ⟨recent, hrecord⟩ := step_ok hstep
      obtain ⟨_, hturn, hhanded⟩ := ingestRecord_ok hrecord
      obtain ⟨hturn', hhanded'⟩ := ih hrest
      constructor
      · rw [hturn', hturn, List.length_cons]
        omega
      · rw [hhanded', hhanded, hturn, dueFrom]
        split <;> simp

/-! ## One page -/

theorem ingestPage_eq : ingestPage env args offers older w =
    (offers.foldlM (step env args) w).map fun w' => (older && olderFrom args w.turn offers, w') := by
  induction offers generalizing older w with
  | nil => simp [ingestPage, olderFrom, pure, Except.pure, Except.map]
  | cons raw offers ih =>
      rw [ingestPage, List.foldlM_cons]
      cases hrecord : ingestRecord env args w raw with
      | error raised =>
          have hstep : step env args w raw = .error raised := by simp [step, hrecord, Except.map]
          rw [hstep]
          rfl
      | ok r =>
          obtain ⟨recent, m⟩ := r
          obtain ⟨hrecent, hturn, _⟩ := ingestRecord_ok hrecord
          have hstep : step env args w raw = .ok m := by simp [step, hrecord, Except.map]
          have hflag : (older && !recent && olderFrom args m.turn offers) =
              (older && olderFrom args w.turn (raw :: offers)) := by
            rw [olderFrom, hrecent, hturn, Bool.and_assoc]
          have hrest := @ih m (older && !recent)
          rw [hflag] at hrest
          rw [hstep]
          exact hrest

/-- Going through pages is going through their records. -/
theorem foldlM_goPage {pages : List (List Dict)} {older : Bool} :
    (pages.foldlM (goPage env args) (older, w)).map (·.2) =
      pages.flatten.foldlM (step env args) w := by
  induction pages generalizing older w with
  | nil => rfl
  | cons offers pages ih =>
      have hpage : goPage env args (older, w) offers =
          (offers.foldlM (step env args) w).map
            fun w' => (olderAtFirst args offers && olderFrom args w.turn offers, w') :=
        ingestPage_eq
      rw [List.foldlM_cons, List.flatten_cons, List.foldlM_append, hpage]
      cases offers.foldlM (step env args) w with
      | error raised => rfl
      | ok m => exact ih

/-! ## The loop -/

/-- After the walk: its result, or the failed fetch of the next page. -/
def afterWalk (env : IngestEnv) (args : RunnerArgs) (pagesFetched : Nat)
    (failure : Option (Option Nat)) (stopped : Bool) (w : Walk) : IngestionResult × Walk :=
  match stopped, failure with
  | false, some blockedStatus => pageFailure env args pagesFetched w.turn blockedStatus w
  | _, _ => finished pagesFetched w.turn w

/-- A feed without a failed page ends a run that goes through it. -/
theorem afterWalk_of_got {pagesFetched : Nat} {stopped : Bool} :
    afterWalk env args pagesFetched none stopped w = finished pagesFetched w.turn w := by
  cases stopped <;> rfl

/-- A page that is all older than `since` is one of a feed with that rule on. -/
theorem goPage_ok {s s' : Bool × Walk} (h : goPage env args s offers = .ok s') :
    offers.foldlM (step env args) s.2 = .ok s'.2 ∧
      s'.1 = (olderAtFirst args offers && olderFrom args s.2.turn offers) := by
  rw [goPage, ingestPage_eq] at h
  cases hfold : offers.foldlM (step env args) s.2 with
  | error raised =>
      rw [hfold] at h
      cases h
  | ok m =>
      rw [hfold] at h
      obtain rfl := Except.ok.inj h
      exact ⟨rfl, rfl⟩

/-- Without the rule on old pages, no page is flagged as old. -/
theorem foldlM_goPage_unflagged {pages : List (List Dict)} {s s' : Bool × Walk}
    (hsorted : args.sortedByRecency = false) (hs : s.1 = false)
    (h : pages.foldlM (goPage env args) s = .ok s') : s'.1 = false := by
  apply foldlM_related (R := fun s s' => s.1 = false → s'.1 = false) _ _ _ h hs
  · exact fun _ hs => hs
  · exact fun _ _ _ hfirst hrest hs => hrest (hfirst hs)
  · intro s page m hpage _
    rw [(goPage_ok hpage).2, olderAtFirst, hsorted]
    rfl

/-- The two rules that stop the loop after a page are those of the walk. -/
theorem stopsAfter_eq {s s' : Bool × Walk} (h : goPage env args s offers = .ok s') :
    stopsAfter args offers s'.1 s'.2 = stopsWalk args s' := by
  obtain ⟨_, hflag⟩ := goPage_ok h
  rw [stopsAfter, stopsWalk, caughtUp]
  cases holder : s'.1 with
  | false => simp
  | true =>
      rw [holder, olderAtFirst] at hflag
      have hparts := Bool.and_eq_true_iff.mp hflag.symm
      have hfirst := Bool.and_eq_true_iff.mp hparts.1
      simp [(Bool.and_eq_true_iff.mp hfirst.1).2, hfirst.2]

/-- A feed whose fetches all go through has no failed page. -/
theorem feedFrom_of_got {Cursor : Type} {fetchPage : FetchPage Cursor}
    (hgot : ∀ pageIndex cursor, ∃ page, fetchPage pageIndex cursor = .got page)
    (pages pageIndex : Nat) (cursor : Cursor) :
    (feedFrom fetchPage pages pageIndex cursor).2 = none := by
  induction pages generalizing pageIndex cursor with
  | zero => rfl
  | succ pages ih =>
      obtain ⟨⟨offers, next⟩, hpage⟩ := hgot pageIndex cursor
      cases next with
      | none => simp [feedFrom, hpage]
      | some cursor' => simpa [feedFrom, hpage] using ih (pageIndex + 1) cursor'

theorem length_feedFrom_le {Cursor : Type} {fetchPage : FetchPage Cursor}
    (pages pageIndex : Nat) (cursor : Cursor) :
    (feedFrom fetchPage pages pageIndex cursor).1.length ≤ pages := by
  induction pages generalizing pageIndex cursor with
  | zero => exact Nat.le_refl 0
  | succ pages ih =>
      rw [feedFrom]
      split
      · exact Nat.zero_le _
      · exact Nat.zero_le _
      · exact Nat.succ_le_succ (Nat.zero_le pages)
      · exact Nat.succ_le_succ (ih _ _)

/-- The loop is a walk over the pages that its cursors lead to. -/
theorem paginate_eq {Cursor : Type} (fetchPage : FetchPage Cursor) (pages pageIndex : Nat)
    (cursor : Cursor) (older : Bool) :
    paginate env args fetchPage pages pageIndex cursor w.turn w =
      let feed := feedFrom fetchPage pages pageIndex cursor
      match walk (goPage env args) (stopsWalk args) feed.1 (older, w) with
      | .error raised => .error raised
      | .ok (stopped, s) =>
          .ok (afterWalk env args
            (pageIndex + reach (goPage env args) (stopsWalk args) feed.1 (older, w))
            feed.2 stopped s.2) := by
  induction pages generalizing pageIndex cursor older w with
  | zero => rfl
  | succ pages ih =>
      rw [paginate, feedFrom]
      cases fetchPage pageIndex cursor with
      | blocked statusCode => rfl
      | failed => rfl
      | got page =>
          obtain ⟨offers, next⟩ := page
          have hgo : goPage env args (older, w) offers =
              ingestPage env args offers (olderAtFirst args offers) w := rfl
          change (ingestPage env args offers (olderAtFirst args offers) w >>= _) = _
          cases hpage : ingestPage env args offers (olderAtFirst args offers) w with
          | error raised =>
              rw [hpage] at hgo
              cases next <;> simp [walk, hgo, bind, Except.bind]
          | ok s =>
              rw [hpage] at hgo
              have hturn : w.turn + offers.length = s.2.turn :=
                (foldlM_step_ok (goPage_ok hgo).1).1.symm
              have hstop := stopsAfter_eq hgo
              cases next with
              | none =>
                  simp only [walk, reach, hgo, bind, Except.bind, hturn]
                  cases stopsWalk args s <;> rfl
              | some cursor =>
                  have hrest := @ih s.2 (pageIndex + 1) cursor s.1
                  have hindex (n : Nat) : pageIndex + 1 + n = pageIndex + (n + 1) := by
                    omega
                  simp only [walk, reach, hgo, bind, Except.bind, hturn, hstop]
                  cases stopsWalk args s with
                  | true => rfl
                  | false =>
                      dsimp only at hrest
                      rw [hindex] at hrest
                      exact hrest

/-! ## A run -/

section Run

variable {Cursor : Type} (env : IngestEnv) (args : RunnerArgs) (fetchPage : FetchPage Cursor)
  (initialCursor : Cursor) (state : RunState)

/-- The pages that a run without early stops fetches. -/
def feed : List (List Dict) :=
  (feedFrom fetchPage args.maxPages 0 initialCursor).1

/-- The walk over them. -/
def walkFeed : Except (PyError × Walk) (Bool × Bool × Walk) :=
  walk (goPage env args) (stopsWalk args) (feed args fetchPage initialCursor) (false, .start state)

/-- How many of them the run goes through, or tries to. -/
def reached : Nat :=
  reach (goPage env args) (stopsWalk args) (feed args fetchPage initialCursor)
    (false, .start state)

/-- The records of the pages that the run goes through. -/
def walked : List Dict :=
  ((feed args fetchPage initialCursor).take
    (reached env args fetchPage initialCursor state)).flatten

/-- The failure of the first fetch: the blocked status that it comes with. -/
def firstFailure : Option (Option Nat) :=
  match args.maxPages, fetchPage 0 initialCursor with
  | 0, _ => none
  | _ + 1, .blocked statusCode => some (some statusCode)
  | _ + 1, .failed => some none
  | _ + 1, .got _ => none

variable {env args fetchPage initialCursor state}

theorem runPaginatedIngestion_eq :
    runPaginatedIngestion env args fetchPage initialCursor state =
      match walkFeed env args fetchPage initialCursor state with
      | .error (e, w) => .error (e, w.toRunState)
      | .ok (stopped, s) =>
          let (result, w) := afterWalk env args (reached env args fetchPage initialCursor state)
            (feedFrom fetchPage args.maxPages 0 initialCursor).2 stopped s.2
          .ok (result, w.toRunState) := by
  have hloop := @paginate_eq env args (.start state) Cursor fetchPage args.maxPages 0
    initialCursor false
  have hstart : (Walk.start state).turn = 0 := rfl
  simp only [hstart, Nat.zero_add] at hloop
  rw [runPaginatedIngestion, hloop]
  dsimp only [walkFeed, feed, reached]
  cases walk (goPage env args) (stopsWalk args)
    (feedFrom fetchPage args.maxPages 0 initialCursor).1 (false, .start state) <;> rfl

/-- The walk goes through the walked records, one after another. -/
theorem walkFeed_records : (walkFeed env args fetchPage initialCursor state).map (·.2.2) =
    (walked env args fetchPage initialCursor state).foldlM (step env args) (.start state) := by
  have hpages := @foldlM_goPage env args (.start state)
    ((feed args fetchPage initialCursor).take (reached env args fetchPage initialCursor state)) false
  rw [walked, ← hpages, reached, ← walk_eq_foldlM, walkFeed]
  cases walk (goPage env args) (stopsWalk args) (feed args fetchPage initialCursor)
    (false, .start state) <;> rfl

/-- Without the rule on old pages, what stops a walk is that it is caught up. -/
theorem caughtUp_of_stopped {s : Bool × Walk} (hsorted : args.sortedByRecency = false)
    (h : walkFeed env args fetchPage initialCursor state = .ok (true, s)) :
    caughtUp args s.2 = true := by
  have hstop := stop_of_walk h
  have hflag : s.1 = false := foldlM_goPage_unflagged hsorted rfl (foldlM_of_walk h)
  rwa [stopsWalk, hflag, Bool.false_or] at hstop

/-- A run whose first fetch fails goes through no record. -/
theorem runPaginatedIngestion_of_firstFailure {blockedStatus : Option Nat}
    (h : firstFailure args fetchPage initialCursor = some blockedStatus) :
    runPaginatedIngestion env args fetchPage initialCursor state =
      .ok (⟨false, 0, 0, some ("failed to fetch " ++ args.sourceName ++ " offers"), blockedStatus⟩,
        { state with fetchFailed := true, pagesFetched := 0 }) := by
  unfold firstFailure at h
  unfold runPaginatedIngestion
  split at h
  · cases h
  · next hpages hpage =>
    rw [hpages, paginate, hpage, ← Option.some.inj h]
    rfl
  · next hpages hpage =>
    rw [hpages, paginate, hpage, ← Option.some.inj h]
    rfl
  · cases h

theorem firstFailure_blocked_iff {statusCode : Nat} :
    firstFailure args fetchPage initialCursor = some (some statusCode) ↔
      args.maxPages ≠ 0 ∧ fetchPage 0 initialCursor = .blocked statusCode := by
  unfold firstFailure
  split
  · next hpages => simp [hpages]
  · next hpages hpage => simp [hpages, hpage]
  · next hpages hpage => simp [hpages, hpage]
  · next hpages hpage => simp [hpages, hpage]

theorem feed_of_firstFetched (h : firstFailure args fetchPage initialCursor = none) :
    feed args fetchPage initialCursor = [] →
      (feedFrom fetchPage args.maxPages 0 initialCursor).2 = none := by
  unfold firstFailure at h
  unfold feed
  split at h
  · next hpages =>
    rw [hpages]
    intro _
    rfl
  · cases h
  · cases h
  · next pages page hpages hpage =>
    rw [hpages, feedFrom, hpage]
    split
    all_goals simp_all

/-- A failed fetch of a later page does not fail the run. -/
theorem afterWalk_later {pagesFetched : Nat} {failure : Option (Option Nat)} {stopped : Bool}
    {w : Walk} (h : pagesFetched = 0 → failure = none) :
    (afterWalk env args pagesFetched failure stopped w).1 =
      ⟨true, w.turn, w.totalCreated, none, none⟩ := by
  unfold afterWalk
  split
  · next hfailure =>
    have hpages : pagesFetched ≠ 0 := fun hzero => by cases h hzero
    rw [pageFailure]
    dsimp only
    rw [if_neg hpages]
  · rfl

/-- A run that returns, taken apart. -/
theorem runPaginatedIngestion_ok {result : IngestionResult} {state' : RunState}
    (hrun : runPaginatedIngestion env args fetchPage initialCursor state = .ok (result, state')) :
    ∃ stopped s, walkFeed env args fetchPage initialCursor state = .ok (stopped, s) ∧
      (afterWalk env args (reached env args fetchPage initialCursor state)
        (feedFrom fetchPage args.maxPages 0 initialCursor).2 stopped s.2).1 = result ∧
      (afterWalk env args (reached env args fetchPage initialCursor state)
        (feedFrom fetchPage args.maxPages 0 initialCursor).2 stopped s.2).2.toRunState = state' := by
  rw [runPaginatedIngestion_eq] at hrun
  split at hrun
  · cases hrun
  · next stopped s hwalk =>
    obtain ⟨hresult, hstate⟩ := Prod.mk.inj (Except.ok.inj hrun)
    exact ⟨stopped, s, hwalk, hresult, hstate⟩

@[simp] theorem afterWalk_pagesFetched {n : Nat} {failure : Option (Option Nat)} {stopped : Bool}
    {w : Walk} : (afterWalk env args n failure stopped w).2.pagesFetched = n := by
  unfold afterWalk
  split
  · unfold pageFailure
    dsimp only
    split <;> rfl
  · rfl

theorem failure_of_firstFetched (h : firstFailure args fetchPage initialCursor = none)
    (hreached : reached env args fetchPage initialCursor state = 0) :
    (feedFrom fetchPage args.maxPages 0 initialCursor).2 = none := by
  apply feed_of_firstFetched h
  by_contra hfeed
  have hpos := @reach_pos _ _ _ (goPage env args) (stopsWalk args) _ (false, .start state) hfeed
  unfold reached at hreached
  omega

/-- A run that goes through its first page, or has none to go through, does not fail. -/
theorem runPaginatedIngestion_of_firstFetched {result : IngestionResult} {state' : RunState}
    (h : firstFailure args fetchPage initialCursor = none)
    (hrun : runPaginatedIngestion env args fetchPage initialCursor state = .ok (result, state')) :
    result.ok = true ∧ result.errorMessage = none ∧ result.blockedStatus = none := by
  obtain ⟨stopped, s, _, hresult, _⟩ := runPaginatedIngestion_ok hrun
  rw [afterWalk_later (failure_of_firstFetched h)] at hresult
  rw [← hresult]
  exact ⟨rfl, rfl, rfl⟩

/-- The blocked status of a run is that of its first fetch. -/
theorem runPaginatedIngestion_blockedStatus {result : IngestionResult} {state' : RunState}
    (hrun : runPaginatedIngestion env args fetchPage initialCursor state = .ok (result, state')) :
    result.blockedStatus = (firstFailure args fetchPage initialCursor).join := by
  cases hfirst : firstFailure args fetchPage initialCursor with
  | none => exact (runPaginatedIngestion_of_firstFetched hfirst hrun).2.2
  | some blockedStatus =>
      rw [runPaginatedIngestion_of_firstFailure hfirst] at hrun
      rw [← (Prod.mk.inj (Except.ok.inj hrun)).1]
      rfl

/-- A run that returns reports no block exactly when its first fetch meets none. -/
theorem runPaginatedIngestion_unblocked_iff {result : IngestionResult} {state' : RunState}
    (hrun : runPaginatedIngestion env args fetchPage initialCursor state = .ok (result, state')) :
    result.blockedStatus = none ↔
      ¬ ∃ statusCode, firstFailure args fetchPage initialCursor = some (some statusCode) := by
  rw [runPaginatedIngestion_blockedStatus hrun]
  cases firstFailure args fetchPage initialCursor with
  | none => simp
  | some blockedStatus => cases blockedStatus <;> simp

@[simp] theorem afterWalk_handed {pageIndex : Nat} {failure : Option (Option Nat)}
    {stopped : Bool} {w : Walk} :
    (afterWalk env args pageIndex failure stopped w).2.handed = w.handed := by
  unfold afterWalk
  split
  · unfold pageFailure
    dsimp only
    split <;> rfl
  · rfl

/-- What a run has handed to `ingest_offer`, however it ends. -/
def handedBy {α : Type} : Except (PyError × RunState) (α × RunState) → List Dict
  | .ok (_, state) => state.handed
  | .error (_, state) => state.handed

def Walk.handedBy : Except (PyError × Walk) Walk → List Dict
  | .ok w => w.handed
  | .error (_, w) => w.handed

theorem handedBy_run : handedBy (runPaginatedIngestion env args fetchPage initialCursor state) =
    Walk.handedBy ((walked env args fetchPage initialCursor state).foldlM (step env args)
      (.start state)) := by
  rw [runPaginatedIngestion_eq, ← walkFeed_records]
  cases walkFeed env args fetchPage initialCursor state with
  | error raised => rfl
  | ok r => exact afterWalk_handed

end Run

end RecruFlow.Ingestion
