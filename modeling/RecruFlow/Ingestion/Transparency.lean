import RecruFlow.Ingestion.RunCounts
import RecruFlow.Ingestion.RunsAlike

/-!
# Records that the loop goes over

A record out of the fetch range is skipped, and an invalid one goes to the
failures. Two runs are compared whose pages differ by such records only: one of
them has them in its pages, the other has not.
-/

namespace RecruFlow.Ingestion

open Connectors Db Dlq Lib.Lockstep Lib.Outcome Lib.Pages Lib.Transaction Schemas

/-! ## Records with insertions -/

/-- A record, marked when it is an inserted one. -/
structure Marked where
  inserted : Bool
  record : Dict

/-- The records with the insertions. -/
def withInserted (marked : List Marked) : List Dict :=
  marked.map (·.record)

/-- The records without them. -/
def original (marked : List Marked) : List Dict :=
  (marked.filter fun m => !m.inserted).map (·.record)

/-- The inserted records are out of the range or invalid, and the others come
at the instants at which they come without them. -/
structure Insertions (env : IngestEnv) (args : RunnerArgs) (now : Nat → DateTime)
    (marked : List Marked) (turn turn' : Nat) : Prop where
  insertable : ∀ i m, marked[i]? = some m → m.inserted = true →
    Insertable env (args.withClock now) (turn' + i) m.record
  clock : ∀ i m, marked[i]? = some m → m.inserted = false →
    now (turn' + i) = args.now (turn + (original (marked.take i)).length)

/-- Every inserted record that the run comes to is gone over, in the state in which
the run without the insertions is there. -/
def InsertionsRecorded (env : IngestEnv) (args : RunnerArgs) (now : Nat → DateTime) :
    List Marked → (turn' : Nat) → Walk → Prop
  | [], _, _ => True
  | m :: marked, turn', w =>
      if m.inserted then
        GoneOver env (args.withClock now) turn' m.record w.session ∧
          InsertionsRecorded env args now marked (turn' + 1) w
      else ∀ w₁, step env args w m.record = .ok w₁ →
        InsertionsRecorded env args now marked (turn' + 1) w₁

section Insertions

variable {env : IngestEnv} {args : RunnerArgs} {now : Nat → DateTime} {w w' w₁ w₁' : Walk}
  {m : Marked} {marked xs ys : List Marked} {turn turn' : Nat}

theorem original_append : original (xs ++ ys) = original xs ++ original ys := by
  rw [original, List.filter_append, List.map_append, original, original]

theorem original_inserted (hm : m.inserted = true) : original (m :: marked) = original marked := by
  rw [original, List.filter_cons, hm]
  rfl

theorem original_kept (hm : m.inserted = false) :
    original (m :: marked) = m.record :: original marked := by
  rw [original, List.filter_cons, hm]
  rfl

theorem Insertions.append_left (h : Insertions env args now (xs ++ ys) turn turn') :
    Insertions env args now xs turn turn' where
  insertable i m hm hinserted := by
    have hlt : i < xs.length := (List.getElem?_eq_some_iff.mp hm).1
    exact h.insertable i m (by rw [List.getElem?_append_left hlt, hm]) hinserted
  clock i m hm hkept := by
    have hlt : i < xs.length := (List.getElem?_eq_some_iff.mp hm).1
    have hclock := h.clock i m (by rw [List.getElem?_append_left hlt, hm]) hkept
    rw [List.take_append_of_le_length (Nat.le_of_lt hlt)] at hclock
    exact hclock

theorem Insertions.append_right (h : Insertions env args now (xs ++ ys) turn turn') :
    Insertions env args now ys (turn + (original xs).length) (turn' + xs.length) where
  insertable i m hm hinserted := by
    have hat : (xs ++ ys)[xs.length + i]? = some m := by
      rw [List.getElem?_append_right (Nat.le_add_right _ _), Nat.add_sub_cancel_left, hm]
    have hinsertable := h.insertable (xs.length + i) m hat hinserted
    rwa [← Nat.add_assoc] at hinsertable
  clock i m hm hkept := by
    have hat : (xs ++ ys)[xs.length + i]? = some m := by
      rw [List.getElem?_append_right (Nat.le_add_right _ _), Nat.add_sub_cancel_left, hm]
    have hclock := h.clock (xs.length + i) m hat hkept
    rw [List.take_length_add_append, original_append, List.length_append] at hclock
    rw [Nat.add_assoc, hclock, Nat.add_assoc]

theorem Insertions.take_flatten {pages : List (List Marked)}
    (h : Insertions env args now pages.flatten turn turn') (n : Nat) :
    Insertions env args now (pages.take n).flatten turn turn' := by
  rw [← List.take_append_drop n pages, List.flatten_append] at h
  exact h.append_left

theorem Insertions.tail_inserted (h : Insertions env args now (m :: marked) turn turn')
    (hm : m.inserted = true) : Insertions env args now marked turn (turn' + 1) := by
  have htail := @Insertions.append_right env args now [m] marked turn turn' h
  rwa [original_inserted hm] at htail

theorem Insertions.tail_kept (h : Insertions env args now (m :: marked) turn turn')
    (hm : m.inserted = false) : Insertions env args now marked (turn + 1) (turn' + 1) := by
  have htail := @Insertions.append_right env args now [m] marked turn turn' h
  rwa [original_kept hm] at htail

/-- A record that is not inserted comes out alike. -/
theorem Insertions.step_kept_alike (hblind : BlindToFailures env.postgres)
    (h : Insertions env args now (m :: marked) w.turn w'.turn) (hm : m.inserted = false)
    (hw : WalksAlike w w') : Alike WalksAlike WalkRaisedAlike (step env args w m.record)
      (step env (args.withClock now) w' m.record) :=
  step_alike hblind hw (h.clock 0 m rfl hm)

/-- The records come out alike, as long as the inserted ones are gone over. -/
theorem foldlM_alike (hblind : BlindToFailures env.postgres)
    (h : Insertions env args now marked w.turn w'.turn) (hw : WalksAlike w w')
    (hrecorded : InsertionsRecorded env args now marked w'.turn w) :
    Alike WalksAlike WalkRaisedAlike ((original marked).foldlM (step env args) w)
      ((withInserted marked).foldlM (step env (args.withClock now)) w') := by
  induction marked generalizing w w' with
  | nil => exact .ok hw
  | cons m marked ih =>
      rw [InsertionsRecorded] at hrecorded
      rw [withInserted, List.map_cons, List.foldlM_cons]
      cases hm : m.inserted with
      | true =>
          rw [if_pos hm] at hrecorded
          obtain ⟨w₁, hstep, hw₁⟩ := step_goneOver hblind hw hrecorded.1
          have htail := h.tail_inserted hm
          rw [← step_turn hstep] at htail
          rw [original_inserted hm, hstep]
          apply ih htail hw₁
          rw [step_turn hstep]
          exact hrecorded.2
      | false =>
          rw [hm, if_neg Bool.false_ne_true] at hrecorded
          have hstep := h.step_kept_alike hblind hm hw
          rw [original_kept hm, List.foldlM_cons]
          generalize hx : step env args w m.record = x at hstep
          generalize hx' : step env (args.withClock now) w' m.record = x' at hstep
          cases hstep with
          | error he => exact .error he
          | @ok w₁ w₁' hw₁ =>
              have htail := h.tail_kept hm
              rw [← step_turn hx, ← step_turn hx'] at htail
              apply ih htail hw₁
              rw [step_turn hx']
              exact hrecorded w₁ hx

theorem foldlM_step_good {records : List Dict}
    (h : records.foldlM (step env args) w = .ok w₁) (hgood : w₁.session.aborted = false) :
    w.session.aborted = false := by
  apply foldlM_related (R := fun w w₁ : Walk =>
    w₁.session.aborted = false → w.session.aborted = false) _ _ _ h hgood
  · exact fun _ h => h
  · exact fun _ _ _ hfirst hrest hgood => hfirst (hrest hgood)
  · exact fun _ _ _ hstep => step_good hstep

/-- A run that gets through the records in a good transaction has gone over the inserted
ones. -/
theorem insertionsRecorded_of_good (hblind : BlindToFailures env.postgres)
    (h : Insertions env args now marked w.turn w'.turn) (hw : WalksAlike w w')
    (hlong : (withInserted marked).foldlM (step env (args.withClock now)) w' = .ok w₁')
    (hgood : w₁'.session.aborted = false) : InsertionsRecorded env args now marked w'.turn w := by
  induction marked generalizing w w' with
  | nil => trivial
  | cons m marked ih =>
      rw [withInserted, List.map_cons, List.foldlM_cons] at hlong
      obtain ⟨m', hstep', hrest⟩ := bind_ok hlong
      have hturn := step_turn hstep'
      rw [InsertionsRecorded]
      cases hm : m.inserted with
      | true =>
          have hover := goneOver_of_good hblind hw (h.insertable 0 m rfl hm) hstep'
            (foldlM_step_good hrest hgood)
          obtain ⟨w₁, hstep, hw₁⟩ := step_goneOver hblind hw hover
          obtain rfl := Except.ok.inj (hstep.symm.trans hstep')
          have htail := h.tail_inserted hm
          rw [← hturn] at htail
          rw [if_pos rfl, ← hturn]
          exact ⟨hover, ih htail hw₁ hrest⟩
      | false =>
          rw [if_neg Bool.false_ne_true, ← hturn]
          intro w₁ hstep
          have halike := h.step_kept_alike hblind hm hw
          rw [hstep, hstep'] at halike
          have htail := h.tail_kept hm
          rw [← hturn, ← step_turn hstep] at htail
          cases halike with
          | ok hw₁ => exact ih htail hw₁ hrest

theorem insertionsRecorded_append :
    InsertionsRecorded env args now (xs ++ ys) turn' w ↔
      InsertionsRecorded env args now xs turn' w ∧
        ∀ w₁, (original xs).foldlM (step env args) w = .ok w₁ →
          InsertionsRecorded env args now ys (turn' + xs.length) w₁ := by
  induction xs generalizing turn' w with
  | nil =>
      constructor
      · intro h
        refine ⟨trivial, fun w₁ hw₁ => ?_⟩
        obtain rfl : w = w₁ := Except.ok.inj hw₁
        exact h
      · exact fun h => h.2 w rfl
  | cons m xs ih =>
      have hlength : turn' + (m :: xs).length = turn' + 1 + xs.length := by
        rw [List.length_cons]
        omega
      rw [List.cons_append, InsertionsRecorded, InsertionsRecorded, hlength]
      cases hm : m.inserted with
      | true =>
          rw [if_pos rfl, if_pos rfl, original_inserted hm, ih, and_assoc]
      | false =>
          rw [if_neg Bool.false_ne_true, if_neg Bool.false_ne_true, original_kept hm]
          simp only [ih, List.foldlM_cons]
          constructor
          · intro h
            refine ⟨fun w₁ hstep => (h w₁ hstep).1, fun w₂ hfold => ?_⟩
            obtain ⟨w₁, hstep, hrest⟩ := bind_ok hfold
            exact (h w₁ hstep).2 w₂ hrest
          · intro h w₁ hstep
            refine ⟨h.1 w₁ hstep, fun w₂ hrest => h.2 w₂ ?_⟩
            rw [hstep]
            exact hrest

end Insertions

/-! ## Pages with insertions -/

section Pages

variable {Cursor : Type}

/-- One form of the pages, with or without the insertions. -/
def fetchMarked (form : List Marked → List Dict)
    (fetchPage : Nat → Cursor → Fetched (List Marked × Option Cursor)) : FetchPage Cursor :=
  fun pageIndex cursor =>
    match fetchPage pageIndex cursor with
    | .blocked statusCode => .blocked statusCode
    | .failed => .failed
    | .got (offers, next) => .got (form offers, next)

/-- The marked pages that a run without early stops fetches. -/
def markedFeed (fetchPage : Nat → Cursor → Fetched (List Marked × Option Cursor)) :
    (pages pageIndex : Nat) → Cursor → List (List Marked)
  | 0, _, _ => []
  | pages + 1, pageIndex, cursor =>
      match fetchPage pageIndex cursor with
      | .blocked _ => []
      | .failed => []
      | .got (offers, none) => [offers]
      | .got (offers, some cursor) => offers :: markedFeed fetchPage pages (pageIndex + 1) cursor

variable {env : IngestEnv} {args : RunnerArgs} {now : Nat → DateTime}
  {form form' : List Marked → List Dict}
  {fetchPage : Nat → Cursor → Fetched (List Marked × Option Cursor)} {initialCursor : Cursor}
  {state : RunState} {pages : List (List Marked)} {page : List Marked} {i : Nat}

theorem feedFrom_fetchMarked (form form' : List Marked → List Dict) (n pageIndex : Nat)
    (cursor : Cursor) :
    (feedFrom (fetchMarked form fetchPage) n pageIndex cursor).1 =
        (markedFeed fetchPage n pageIndex cursor).map form ∧
      (feedFrom (fetchMarked form fetchPage) n pageIndex cursor).2 =
        (feedFrom (fetchMarked form' fetchPage) n pageIndex cursor).2 := by
  induction n generalizing pageIndex cursor with
  | zero => exact ⟨rfl, rfl⟩
  | succ n ih =>
      unfold feedFrom fetchMarked markedFeed
      cases fetchPage pageIndex cursor with
      | blocked statusCode => exact ⟨rfl, rfl⟩
      | failed => exact ⟨rfl, rfl⟩
      | got fetched =>
          obtain ⟨offers, next⟩ := fetched
          cases next with
          | none => exact ⟨rfl, rfl⟩
          | some cursor =>
              obtain ⟨hpages, hfailure⟩ := ih (pageIndex + 1) cursor
              exact ⟨congrArg (form offers :: ·) hpages, hfailure⟩

/-- Without the rule on old pages, a page is gone through record by record. -/
theorem goPage_unsorted (hsorted : args.sortedByRecency = false) (s : Bool × Walk)
    (offers : List Dict) : goPage env args s offers =
      (offers.foldlM (step env args) s.2).map fun w => (false, w) := by
  rw [goPage, ingestPage_eq]
  simp only [olderAtFirst, hsorted, Bool.false_and]

theorem flatten_take_append (h : pages[i]? = some page) : pages.flatten =
    (pages.take i).flatten ++ (page ++ (pages.drop (i + 1)).flatten) := by
  obtain ⟨hlt, hpage⟩ := List.getElem?_eq_some_iff.mp h
  rw [← List.flatten_cons, ← hpage, List.getElem_cons_drop, ← List.flatten_append,
    List.take_append_drop]

theorem original_flatten : original pages.flatten = (pages.map original).flatten := by
  induction pages with
  | nil => rfl
  | cons page pages ih =>
      rw [List.flatten_cons, original_append, ih, List.map_cons, List.flatten_cons]

theorem withInserted_flatten : withInserted pages.flatten = (pages.map withInserted).flatten := by
  rw [withInserted, List.map_flatten]
  rfl

/-- The runs after `i` pages. -/
structure PagesAlike (pages : List (List Marked)) (i : Nat) (s s' : Bool × Walk) : Prop where
  unflagged : s.1 = false
  unflagged' : s'.1 = false
  walks : WalksAlike s.2 s'.2
  turn : s.2.turn = (original (pages.take i).flatten).length
  turn' : s'.2.turn = (pages.take i).flatten.length

theorem PagesAlike.stopsWalk_eq {s s' : Bool × Walk} (h : PagesAlike pages i s s') :
    stopsWalk (args.withClock now) s' = stopsWalk args s := by
  rw [stopsWalk, stopsWalk, caughtUp, caughtUp, h.unflagged, h.unflagged',
    h.walks.consecutiveAlreadySeen]
  rfl

/-- The next page comes out alike. -/
theorem goPage_alike (hblind : BlindToFailures env.postgres)
    (hsorted : args.sortedByRecency = false) {n : Nat} {s s' : Bool × Walk} {older : Bool} {w : Walk}
    (h : Insertions env args now pages.flatten 0 0)
    (hrecorded : InsertionsRecorded env args now (pages.take n).flatten 0 w)
    (hpage : pages[i]? = some page) (hi : i < n)
    (hfold : ((pages.map original).take i).foldlM (goPage env args) (older, w) = .ok s)
    (hs : PagesAlike pages i s s') :
    Alike (PagesAlike pages (i + 1)) WalkRaisedAlike (goPage env args s (original page))
      (goPage env (args.withClock now) s' (withInserted page)) := by
  have htake : pages.take (i + 1) = pages.take i ++ [page] := by
    rw [List.take_add_one, hpage]
    rfl
  have hins : Insertions env args now page s.2.turn s'.2.turn := by
    rw [flatten_take_append hpage] at h
    have hright := h.append_right.append_left
    rw [Nat.zero_add, Nat.zero_add] at hright
    rw [hs.turn, hs.turn']
    exact hright
  have hrec : InsertionsRecorded env args now page s'.2.turn s.2 := by
    have htaken : (pages.take n)[i]? = some page := by
      rw [List.getElem?_take_of_lt hi, hpage]
    rw [flatten_take_append htaken, List.take_take, Nat.min_eq_left (Nat.le_of_lt hi)] at hrecorded
    have hrecords : (original (pages.take i).flatten).foldlM (step env args) w = .ok s.2 := by
      rw [original_flatten, List.map_take, ← foldlM_goPage, hfold]
      rfl
    have hright := (insertionsRecorded_append.mp hrecorded).2 s.2 hrecords
    rw [Nat.zero_add, ← hs.turn'] at hright
    exact (insertionsRecorded_append.mp hright).1
  rw [goPage_unsorted hsorted, goPage_unsorted (show (args.withClock now).sortedByRecency = false
    from hsorted)]
  apply (foldlM_alike hblind hins hs.walks hrec).returned.map
  intro w₁ w₁' hreturned
  obtain ⟨hwalks, hrun, hrun'⟩ := hreturned
  refine ⟨rfl, rfl, hwalks, ?_, ?_⟩
  · rw [(foldlM_step_ok hrun).1, hs.turn, htake, List.flatten_append, original_append,
      List.length_append]
    simp
  · rw [(foldlM_step_ok hrun').1, hs.turn', htake, List.flatten_append, List.length_append]
    simp [withInserted]

/-- How many records are inserted. -/
def insertedCount (marked : List Marked) : Nat :=
  marked.countP Marked.inserted

theorem length_original (marked : List Marked) :
    (original marked).length + insertedCount marked = marked.length := by
  induction marked with
  | nil => rfl
  | cons m marked ih =>
      rw [insertedCount] at ih ⊢
      cases hm : m.inserted with
      | true =>
          rw [original_inserted hm, List.countP_cons_of_pos hm, List.length_cons]
          omega
      | false =>
          rw [original_kept hm, List.countP_cons_of_neg (by rw [hm]; exact Bool.false_ne_true),
            List.length_cons, List.length_cons]
          omega

/-- The run with the insertions ends as the one without them does, but for the records that
it has fetched. -/
def Transparent (inserted : Nat)
    (without with' : Except (PyError × RunState) (IngestionResult × RunState)) : Prop :=
  Alike (fun r r' => r'.1 = { r.1 with fetched := r.1.fetched + inserted } ∧
      r'.2.pagesFetched = r.2.pagesFetched ∧ SameButFailures r.2.session r'.2.session)
    (fun e e' => e'.1 = e.1 ∧ SameButFailures e.2.session e'.2.session) without with'

theorem afterWalk_alike (hblind : BlindToFailures env.postgres) {n : Nat} {s s' : Bool × Walk}
    {failure : Option (Option Nat)} {stopped : Bool} (hs : PagesAlike pages n s s') :
    let r := afterWalk env args n failure stopped s.2
    let r' := afterWalk env (args.withClock now) n failure stopped s'.2
    r'.1 = { r.1 with fetched := r.1.fetched + insertedCount (pages.take n).flatten } ∧
      r'.2.pagesFetched = r.2.pagesFetched ∧ SameButFailures r.2.session r'.2.session := by
  have hturn : s'.2.turn = s.2.turn + insertedCount (pages.take n).flatten := by
    rw [hs.turn, hs.turn', length_original]
  have hfinished : (finished n s'.2.turn s'.2).1 =
      { (finished n s.2.turn s.2).1 with
        fetched := (finished n s.2.turn s.2).1.fetched +
          insertedCount (pages.take n).flatten } := by
    simp only [finished, hturn, hs.walks.totalCreated]
  match stopped, failure with
  | true, _ => exact ⟨hfinished, rfl, hs.walks.session⟩
  | false, none => exact ⟨hfinished, rfl, hs.walks.session⟩
  | false, some blockedStatus =>
      dsimp only [afterWalk, pageFailure]
      split
      · next hzero =>
        rw [hzero]
        exact ⟨rfl, rfl, hs.walks.session⟩
      · exact ⟨hfinished, rfl, recordFailure_alike hblind hs.walks.session⟩

theorem walkFeed_alike (hblind : BlindToFailures env.postgres)
    (hsorted : args.sortedByRecency = false)
    (hpages : markedFeed fetchPage args.maxPages 0 initialCursor = pages)
    (h : Insertions env args now pages.flatten 0 0)
    (hrecorded : InsertionsRecorded env args now
      (pages.take (reached env args (fetchMarked original fetchPage) initialCursor state)).flatten 0
      (.start state)) :
    reached env (args.withClock now) (fetchMarked withInserted fetchPage) initialCursor state =
        reached env args (fetchMarked original fetchPage) initialCursor state ∧
      Alike (fun r r' => r'.1 = r.1 ∧ PagesAlike pages
          (reached env args (fetchMarked original fetchPage) initialCursor state) r.2 r'.2)
        WalkRaisedAlike
        (walkFeed env args (fetchMarked original fetchPage) initialCursor state)
        (walkFeed env (args.withClock now) (fetchMarked withInserted fetchPage) initialCursor
          state) := by
  have hfeed (form : List Marked → List Dict) :
      feed args (fetchMarked form fetchPage) initialCursor = pages.map form := by
    rw [← hpages]
    exact (feedFrom_fetchMarked form form args.maxPages 0 initialCursor).1
  have hfeed' : feed (args.withClock now) (fetchMarked withInserted fetchPage) initialCursor =
      pages.map withInserted := hfeed withInserted
  unfold reached walkFeed at *
  rw [hfeed', hfeed] at *
  exact walk_alike (fun i s s' hs => hs.stopsWalk_eq)
    (fun i page s s' hpage hi hfold hs =>
      goPage_alike hblind hsorted h hrecorded hpage hi hfold hs)
    ⟨rfl, rfl, ⟨.refl _, rfl, rfl⟩, rfl, rfl⟩

/-- Where the inserted records that a run comes to are gone over, the run is transparent to
them. -/
theorem transparent_of_recorded (hblind : BlindToFailures env.postgres)
    (hsorted : args.sortedByRecency = false)
    (hpages : markedFeed fetchPage args.maxPages 0 initialCursor = pages)
    (h : Insertions env args now pages.flatten 0 0)
    (hrecorded : InsertionsRecorded env args now
      (pages.take (reached env args (fetchMarked original fetchPage) initialCursor state)).flatten 0
      (.start state)) :
    Transparent
      (insertedCount
        (pages.take (reached env args (fetchMarked original fetchPage) initialCursor state)).flatten)
      (runPaginatedIngestion env args (fetchMarked original fetchPage) initialCursor state)
      (runPaginatedIngestion env (args.withClock now) (fetchMarked withInserted fetchPage)
        initialCursor state) := by
  obtain ⟨hreached, halike⟩ := walkFeed_alike hblind hsorted hpages h hrecorded
  have hfailure : (feedFrom (fetchMarked withInserted fetchPage) (args.withClock now).maxPages 0
      initialCursor).2 =
        (feedFrom (fetchMarked original fetchPage) args.maxPages 0 initialCursor).2 :=
    (feedFrom_fetchMarked withInserted original args.maxPages 0 initialCursor).2
  rw [runPaginatedIngestion_eq, runPaginatedIngestion_eq, hreached, hfailure]
  generalize walkFeed env args (fetchMarked original fetchPage) initialCursor state = x at halike
  generalize walkFeed env (args.withClock now) (fetchMarked withInserted fetchPage) initialCursor
    state = x' at halike
  cases halike with
  | error he => exact .error ⟨he.1, he.2.session⟩
  | @ok r r' hr =>
      obtain ⟨stopped, s⟩ := r
      obtain ⟨stopped', s'⟩ := r'
      obtain ⟨rfl, hs⟩ := hr
      exact .ok (afterWalk_alike hblind hs)

/-- A transaction that is good after the run was good after its walk. -/
theorem afterWalk_good_before {n : Nat} {failure : Option (Option Nat)} {stopped : Bool} {w : Walk}
    (hgood : (afterWalk env args n failure stopped w).2.session.aborted = false) :
    w.session.aborted = false := by
  unfold afterWalk at hgood
  split at hgood
  · unfold pageFailure at hgood
    dsimp only at hgood
    split at hgood
    · exact hgood
    · by_contra hnot
      have haborted : w.session.aborted = true := Bool.eq_true_of_not_eq_false hnot
      simp [recordFailure, attempt, haborted] at hgood
  · exact hgood

/-- A run that is transparent to the inserted records, and has a good transaction without
them, has gone over them. -/
theorem recorded_of_transparent (hblind : BlindToFailures env.postgres)
    (hpages : markedFeed fetchPage args.maxPages 0 initialCursor = pages)
    (h : Insertions env args now pages.flatten 0 0) {inserted : Nat} {result : IngestionResult}
    {state' : RunState}
    (hrun : runPaginatedIngestion env args (fetchMarked original fetchPage) initialCursor state =
      .ok (result, state'))
    (hgood : state'.session.aborted = false)
    (htransparent : Transparent inserted
      (runPaginatedIngestion env args (fetchMarked original fetchPage) initialCursor state)
      (runPaginatedIngestion env (args.withClock now) (fetchMarked withInserted fetchPage)
        initialCursor state)) :
    InsertionsRecorded env args now
      (pages.take (reached env args (fetchMarked original fetchPage) initialCursor state)).flatten 0
      (.start state) := by
  rw [hrun] at htransparent
  obtain ⟨⟨result', state''⟩, hrun', _, hfetched, hsession⟩ := htransparent.of_ok
  obtain ⟨stopped, s, hwalk, _, hstate⟩ := runPaginatedIngestion_ok hrun
  obtain ⟨stopped', s', hwalk', _, hstate'⟩ := runPaginatedIngestion_ok hrun'
  dsimp only at hfetched hsession
  have hreached : reached env (args.withClock now) (fetchMarked withInserted fetchPage)
      initialCursor state = reached env args (fetchMarked original fetchPage) initialCursor state := by
    rw [← hstate, ← hstate'] at hfetched
    simpa using hfetched
  have hgood' : s'.2.session.aborted = false := by
    apply afterWalk_good_before
    rw [← hsession.aborted_eq, ← hstate'] at hgood
    exact hgood
  have hfeed : feed (args.withClock now) (fetchMarked withInserted fetchPage) initialCursor =
      pages.map withInserted := by
    rw [← hpages]
    exact (feedFrom_fetchMarked withInserted withInserted args.maxPages 0 initialCursor).1
  have hlong := @walkFeed_records Cursor env (args.withClock now)
    (fetchMarked withInserted fetchPage) initialCursor state
  rw [hwalk', walked, hreached, hfeed, ← List.map_take, ← withInserted_flatten] at hlong
  exact insertionsRecorded_of_good hblind (h.take_flatten _) ⟨.refl _, rfl, rfl⟩ hlong.symm hgood'

end Pages

/-- A run that is not told to trust its feed for the order is transparent to records out of
the range and to invalid ones, wherever they are inserted, when those that it comes to are
gone over; with a good transaction, only then. -/
theorem insertions_transparent_iff {Cursor : Type} {env : IngestEnv} {args : RunnerArgs}
    {now : Nat → DateTime} {fetchPage : Nat → Cursor → Fetched (List Marked × Option Cursor)}
    {initialCursor : Cursor} {state : RunState} {pages : List (List Marked)}
    (hblind : BlindToFailures env.postgres) (hsorted : args.sortedByRecency = false)
    (hpages : markedFeed fetchPage args.maxPages 0 initialCursor = pages)
    (h : Insertions env args now pages.flatten 0 0) :
    let without := runPaginatedIngestion env args (fetchMarked original fetchPage) initialCursor state
    let with' := runPaginatedIngestion env (args.withClock now) (fetchMarked withInserted fetchPage)
      initialCursor state
    let come := (pages.take
      (reached env args (fetchMarked original fetchPage) initialCursor state)).flatten
    (InsertionsRecorded env args now come 0 (.start state) →
        Transparent (insertedCount come) without with') ∧
      ∀ result state', without = .ok (result, state') →
        Counts env args (fetchMarked original fetchPage) initialCursor state result state' ∧
        (state'.session.aborted = false → (Transparent (insertedCount come) without with' ↔
          InsertionsRecorded env args now come 0 (.start state))) := by
  refine ⟨transparent_of_recorded hblind hsorted hpages h, fun result state' hrun => ?_⟩
  refine ⟨runPaginatedIngestion_counts hrun, fun hgood => ?_⟩
  constructor
  · exact recorded_of_transparent hblind hpages h hrun hgood
  · exact transparent_of_recorded hblind hsorted hpages h

/-! ## An invalid record between two valid ones -/

/-- A run that does not trust its feed for the order. -/
def unsortedArgs : RunnerArgs :=
  { undatedArgs with sortedByRecency := false }

/-- One page, with an invalid record between two valid ones. -/
def invalidBetween (invalid : Dict) : List Marked :=
  [⟨false, acmeFields "a"⟩, ⟨true, invalid⟩, ⟨false, acmeFields "b"⟩]

def invalidBetweenPage (invalid : Dict) : Nat → Nat → Fetched (List Marked × Option Nat) :=
  fun _ _ => .got (invalidBetween invalid, none)

theorem acmeEnv_blind : BlindToFailures acmeEnv.postgres :=
  ⟨fun _ _ _ => rfl, fun _ _ _ => rfl⟩

theorem invalidBetween_insertions {invalid : Dict}
    (hinvalid : Offer.modelValidate acmeEnv.pydantic invalid = none) :
    Insertions acmeEnv unsortedArgs unsortedArgs.now (invalidBetween invalid) 0 0 where
  insertable := by
    intro i m hm hinserted
    obtain rfl : m = ⟨true, invalid⟩ := by
      rcases i with _ | _ | _ | i
      · simp only [invalidBetween, List.getElem?_cons_zero, Option.some.injEq] at hm
        subst hm
        cases hinserted
      · simpa [invalidBetween] using hm.symm
      · simp only [invalidBetween, List.getElem?_cons_succ, List.getElem?_cons_zero,
          Option.some.injEq] at hm
        subst hm
        cases hinserted
      · simp [invalidBetween] at hm
    exact ⟨invalid, rfl, .inr hinvalid⟩
  clock _ _ _ _ := rfl

/-- The failure of a record without a url is recorded under its title. -/
theorem malformed_recordable (s : Session) : Recordable acmeEnv malformedFields s := by
  have hkey : "validation:1:a:acme".length ≤ 255 := by decide
  refine ⟨"validation:1:a:acme", .int 1, by decide +kernel, rfl, fun sourceId _ => .inr ?_⟩
  exact insertIngestionFailure_taken rfl hkey

theorem insertions_transparent_malformed :
    Transparent 1
      (runPaginatedIngestion acmeEnv unsortedArgs
        (fetchMarked original (invalidBetweenPage malformedFields)) 0 acmeRunState)
      (runPaginatedIngestion acmeEnv (unsortedArgs.withClock unsortedArgs.now)
        (fetchMarked withInserted (invalidBetweenPage malformedFields)) 0 acmeRunState) := by
  have hinvalid : Offer.modelValidate acmeEnv.pydantic malformedFields = none := by decide
  refine (@insertions_transparent_iff Nat acmeEnv unsortedArgs unsortedArgs.now
    (invalidBetweenPage malformedFields) 0 acmeRunState [invalidBetween malformedFields]
    acmeEnv_blind rfl rfl (invalidBetween_insertions hinvalid)).1 ?_
  change InsertionsRecorded acmeEnv unsortedArgs unsortedArgs.now (invalidBetween malformedFields) 0
    (.start acmeRunState)
  intro w₁ _
  exact ⟨⟨malformedFields, rfl, .inr ⟨rfl, hinvalid, malformed_recordable _⟩⟩, fun _ _ => trivial⟩

/-- An invalid record whose url is no text. -/
def numericUrlFields : Dict :=
  (acmeFields "c").set "canonical_url" (.int 5)

/-- Its failure has no key, and the run ends with an exception. -/
theorem numeric_url_ends_run :
    Insertions acmeEnv unsortedArgs unsortedArgs.now (invalidBetween numericUrlFields) 0 0 ∧
      (∃ result state', runPaginatedIngestion acmeEnv unsortedArgs
          (fetchMarked original (invalidBetweenPage numericUrlFields)) 0 acmeRunState =
            .ok (result, state') ∧ result.created = 2 ∧ state'.session.aborted = false) ∧
      (∃ state', runPaginatedIngestion acmeEnv (unsortedArgs.withClock unsortedArgs.now)
          (fetchMarked withInserted (invalidBetweenPage numericUrlFields)) 0 acmeRunState =
            .error (.attributeError, state')) ∧
      ¬ Transparent 1
        (runPaginatedIngestion acmeEnv unsortedArgs
          (fetchMarked original (invalidBetweenPage numericUrlFields)) 0 acmeRunState)
        (runPaginatedIngestion acmeEnv (unsortedArgs.withClock unsortedArgs.now)
          (fetchMarked withInserted (invalidBetweenPage numericUrlFields)) 0 acmeRunState) := by
  have hinvalid : Offer.modelValidate acmeEnv.pydantic numericUrlFields = none := by decide
  have hwithout : ∃ result state', runPaginatedIngestion acmeEnv unsortedArgs
      (fetchMarked original (invalidBetweenPage numericUrlFields)) 0 acmeRunState =
        .ok (result, state') ∧ result.created = 2 ∧ state'.session.aborted = false :=
    ⟨_, _, rfl, rfl, rfl⟩
  have hwith : ∃ state', runPaginatedIngestion acmeEnv (unsortedArgs.withClock unsortedArgs.now)
      (fetchMarked withInserted (invalidBetweenPage numericUrlFields)) 0 acmeRunState =
        .error (.attributeError, state') :=
    ⟨_, rfl⟩
  refine ⟨invalidBetween_insertions hinvalid, hwithout, hwith, fun htransparent => ?_⟩
  obtain ⟨result, state', hrun, _⟩ := hwithout
  obtain ⟨state'', hraises⟩ := hwith
  rw [hrun, hraises] at htransparent
  cases htransparent

end RecruFlow.Ingestion
