import RecruFlow.Ingestion.RunInvariant

/-!
# Where a sitemap run starts and ends

A run tries the urls from its cursor on, page by page, and the next run goes on
where it ended. In an unfiltered run that makes the runs read the sitemap in a
circle.
-/

namespace RecruFlow.Connectors

open Db Dlq Ingestion Lib.Outcome Lib.Pages Lib.Transaction

/-- The cursor that a page is fetched with; `none` past the last page. -/
def cursorAt {Cursor : Type} (fetchPage : FetchPage Cursor) (initialCursor : Cursor) :
    Nat → Option Cursor
  | 0 => some initialCursor
  | page + 1 =>
      match cursorAt fetchPage initialCursor page with
      | none => none
      | some cursor =>
          match fetchPage page cursor with
          | .got (_, next) => next
          | _ => none

namespace SitemapDetailPageConnector

variable (conn : SitemapDetailPageConnector) (urls : List String) (pageSize pass : Nat)

/-- The urls, with their positions, that the first pages of a run try. -/
def attempted (initialCursor pages : Nat) : List (String × Nat) :=
  (List.range pages).flatMap fun page =>
    match cursorAt (conn.fetchPage urls pageSize pass) initialCursor page with
    | none => []
    | some cursor => (urls.zipIdx.drop cursor).take pageSize

variable {conn urls pageSize pass} {initialCursor pages : Nat}

theorem fetchPage_got (page cursor : Nat) :
    ∃ offers, conn.fetchPage urls pageSize pass page cursor = .got offers := by
  unfold fetchPage
  dsimp only
  split
  · exact ⟨_, rfl⟩
  · exact ⟨_, rfl⟩

/-- A page leads on to the next one as long as there are urls behind it. -/
theorem fetchPage_next (hsize : 0 < pageSize) (page cursor : Nat) : ∃ offers,
    conn.fetchPage urls pageSize pass page cursor =
      .got (offers, nextCursor urls.length pageSize cursor) := by
  unfold fetchPage
  dsimp only
  split
  · next hempty =>
    have hlength : ((urls.drop cursor).take pageSize).length = 0 := by
      rw [List.isEmpty_iff.mp hempty]
      rfl
    rw [List.length_take, List.length_drop] at hlength
    have hend : nextCursor urls.length pageSize cursor = none := by
      rw [nextCursor, if_neg (by omega)]
    rw [hend]
    exact ⟨_, rfl⟩
  · exact ⟨_, rfl⟩

theorem cursorAt_fetchPage (hsize : 0 < pageSize) {page : Nat}
    (hpage : 0 < page → initialCursor + page * pageSize < urls.length) :
    cursorAt (conn.fetchPage urls pageSize pass) initialCursor page =
      some (initialCursor + page * pageSize) := by
  induction page with
  | zero => rw [Nat.zero_mul, Nat.add_zero, cursorAt]
  | succ page ih =>
      have hnext := hpage (Nat.succ_pos page)
      rw [Nat.succ_mul] at hnext
      obtain ⟨offers, hfetch⟩ := @fetchPage_next conn urls pageSize pass hsize page
        (initialCursor + page * pageSize)
      rw [cursorAt, ih (fun _ => by omega)]
      simp only [hfetch]
      rw [nextCursor, if_pos (by omega), Nat.succ_mul, Nat.add_assoc]

/-- A run fetches a page only if there are urls from its cursor on. -/
theorem lt_of_lt_feed (hsize : 0 < pageSize) (pages pageIndex initialCursor : Nat) {page : Nat}
    (hpos : 0 < page)
    (hpage : page < (feedFrom (conn.fetchPage urls pageSize pass) pages pageIndex
      initialCursor).1.length) : initialCursor + page * pageSize < urls.length := by
  induction pages generalizing pageIndex initialCursor page with
  | zero => exact absurd hpage (Nat.not_lt_zero page)
  | succ pages ih =>
      obtain ⟨offers, hfetch⟩ := @fetchPage_next conn urls pageSize pass hsize pageIndex initialCursor
      by_cases hmore : initialCursor + pageSize < urls.length
      · rw [nextCursor, if_pos hmore] at hfetch
        simp only [feedFrom, hfetch, List.length_cons] at hpage
        obtain ⟨before, rfl⟩ : ∃ before, page = before + 1 := ⟨page - 1, by omega⟩
        rw [Nat.succ_mul]
        cases before with
        | zero => omega
        | succ before =>
            have := @ih (pageIndex + 1) (initialCursor + pageSize) (before + 1)
              (Nat.succ_pos before) (by omega)
            omega
      · rw [nextCursor, if_neg hmore] at hfetch
        simp only [feedFrom, hfetch, List.length_singleton] at hpage
        omega

/-- A run that is not stopped fetches all its pages, or gets to the end of the urls. -/
theorem length_feed (hsize : 0 < pageSize) (pages pageIndex initialCursor : Nat) :
    (feedFrom (conn.fetchPage urls pageSize pass) pages pageIndex initialCursor).1.length = pages ∨
      urls.length ≤ initialCursor + (feedFrom (conn.fetchPage urls pageSize pass) pages pageIndex
        initialCursor).1.length * pageSize := by
  induction pages generalizing pageIndex initialCursor with
  | zero => exact .inl rfl
  | succ pages ih =>
      obtain ⟨offers, hfetch⟩ := @fetchPage_next conn urls pageSize pass hsize pageIndex initialCursor
      by_cases hmore : initialCursor + pageSize < urls.length
      · rw [nextCursor, if_pos hmore] at hfetch
        simp only [feedFrom, hfetch, List.length_cons, Nat.succ_mul]
        rcases ih (pageIndex + 1) (initialCursor + pageSize) with hall | hend
        · exact .inl (congrArg (· + 1) hall)
        · right
          omega
      · rw [nextCursor, if_neg hmore] at hfetch
        simp only [feedFrom, hfetch, List.length_singleton]
        right
        omega

/-- What a run tries is one stretch of the urls. -/
theorem attempted_eq (hsize : 0 < pageSize)
    (hpages : ∀ page, 0 < page → page < pages → initialCursor + page * pageSize < urls.length) :
    conn.attempted urls pageSize pass initialCursor pages =
      (urls.zipIdx.drop initialCursor).take (pages * pageSize) := by
  induction pages with
  | zero => rw [Nat.zero_mul, List.take_zero, attempted, List.range_zero, List.flatMap_nil]
  | succ pages ih =>
      have hbefore := ih fun page hpos hlt => hpages page hpos (by omega)
      have hcursor := @cursorAt_fetchPage conn urls pageSize pass initialCursor hsize pages
        fun hpos => hpages pages hpos (by omega)
      rw [attempted, List.range_succ, List.flatMap_append, List.flatMap_singleton]
      rw [attempted] at hbefore
      rw [hbefore, hcursor, Nat.succ_mul, List.take_add, List.drop_drop]

/-- `last_cursor` is where the next page would start. -/
theorem lastCursor_eq (hpages : 0 < pages)
    (hlast : initialCursor + (pages - 1) * pageSize < urls.length) (hsize : 0 < pageSize) :
    lastCursor urls pageSize initialCursor pages =
      if initialCursor + pages * pageSize < urls.length then
        some (initialCursor + pages * pageSize) else none := by
  obtain ⟨before, rfl⟩ : ∃ before, pages = before + 1 := ⟨pages - 1, by omega⟩
  rw [Nat.add_sub_cancel] at hlast
  have hchunk : ((urls.drop (initialCursor + before * pageSize)).take pageSize).isEmpty = false := by
    rw [List.isEmpty_eq_false_iff, ← List.length_pos_iff, List.length_take, List.length_drop]
    omega
  have hsum : initialCursor + before * pageSize + pageSize =
      initialCursor + (before + 1) * pageSize := by
    rw [Nat.succ_mul, Nat.add_assoc]
  rw [lastCursor, hchunk, if_neg Bool.false_ne_true, nextCursor, hsum]

theorem feed_ne_nil (hsize : 0 < pageSize) (hpages : 0 < pages) (pageIndex initialCursor : Nat) :
    (feedFrom (conn.fetchPage urls pageSize pass) pages pageIndex initialCursor).1 ≠ [] := by
  obtain ⟨offers, hfetch⟩ := @fetchPage_next conn urls pageSize pass hsize pageIndex initialCursor
  obtain ⟨before, rfl⟩ : ∃ before, pages = before + 1 := ⟨pages - 1, by omega⟩
  rw [feedFrom, hfetch]
  cases nextCursor urls.length pageSize initialCursor with
  | none => exact List.cons_ne_nil _ _
  | some cursor => exact List.cons_ne_nil _ _

variable {env : RunEnv} {source : Source} {forceRefresh : Bool} {limits : Limits}
  {state state' : RunState} {result : IngestionResult}

/-- The loop of a pass succeeds, after one page or more, none of which is past the urls. -/
theorem runLoop_ok (hsize : 0 < limits.pageSize) (hmax : 0 < limits.maxPages)
    (hrun : conn.runLoop env source forceRefresh limits urls initialCursor pass state =
      .ok (result, state')) :
    result.ok = true ∧ 0 < state'.pagesFetched ∧ ∀ page, 0 < page → page < state'.pagesFetched →
      initialCursor + page * limits.pageSize < urls.length := by
  unfold runLoop at hrun
  rw [runPaginatedIngestion_eq] at hrun
  split at hrun
  · cases hrun
  · next stopped s _ =>
    rw [feedFrom_of_got fetchPage_got, afterWalk_of_got] at hrun
    obtain ⟨rfl, rfl⟩ := Prod.mk.inj (Except.ok.inj hrun)
    refine ⟨rfl, reach_pos (feed_ne_nil hsize hmax 0 initialCursor), fun page hpos hlt => ?_⟩
    exact lt_of_lt_feed hsize _ _ _ hpos (Nat.lt_of_lt_of_le hlt reach_le)

end SitemapDetailPageConnector

end RecruFlow.Connectors
