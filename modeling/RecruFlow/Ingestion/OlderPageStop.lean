import RecruFlow.Ingestion.SeenOffers

/-!
# The stop after a page of old offers

A page whose offers are all older than `since` ends a run that trusts its feed to
be newest first. Offers without a date count as of now, and they may stand on the
pages after it.
-/

namespace RecruFlow.Ingestion

open Connectors Db Schemas Lib.Pages

variable (env : IngestEnv) (args : RunnerArgs)

/-- The same arguments, with the feed trusted to be sorted or not. -/
def RunnerArgs.sorted (sortedByRecency : Bool) : RunnerArgs :=
  { args with sortedByRecency }

/-- The date that a mapped record has. -/
def dateOf (raw : Dict) : Option DateTime :=
  match args.mapOffer args.sourceId raw with
  | .ok mapped => args.parseDatetime (mapped.getD "posted_at" .none)
  | .error _ => none

/-- Every dated record is at least as new as the dated ones after it. -/
def NewestFirst (records : List Dict) : Prop :=
  (records.filterMap (dateOf args)).Pairwise fun a b => a.ge b = .ok true

/-- In the fetch range, for a record whose turn comes at `turn`. -/
def inRangeAt (turn : Nat) (raw : Dict) : Bool :=
  match args.mapOffer args.sourceId raw with
  | .ok mapped => outsideRange args.since args.limit (effectiveDate args turn mapped) = .ok false
  | .error _ => false

/-- The first record that the loop does not skip, and its turn. -/
def firstDue : (turn : Nat) → List Dict → Option (Nat × Dict)
  | _, [] => none
  | turn, raw :: records =>
      if dueAt args turn raw then some (turn, raw) else firstDue (turn + 1) records

/-- The loop gets from its start through these pages. -/
def GetsThrough (pages : List (List Dict)) (w w' : Walk) : Prop :=
  pages.flatten.foldlM (step env args) w = .ok w'

/-- No page that is all older than `since` is followed by an undated record in the range, or,
where that page has no dated record itself, by any record in the range, unless the loop raises
before it. -/
def NothingAfterOldPage (pages : List (List Dict)) (w : Walk) : Prop :=
  ∀ before page after w₀ w', pages = before ++ page :: after →
    GetsThrough env args before w w₀ → GetsThrough env args [page] w₀ w' →
      args.since.isSome → page ≠ [] → olderFrom args w₀.turn page = true →
        ∀ turn raw, firstDue args w'.turn after.flatten = some (turn, raw) →
          dateOf args raw = none ∨ page.filterMap (dateOf args) = [] →
            inRangeAt args turn raw = false

variable {env args} {raw : Dict} {records : List Dict} {w w' : Walk} {turn : Nat}
  {pages : List (List Dict)}

/-! ## What the records after a page are handed over -/

theorem inRangeAt_iff : inRangeAt args turn raw = true ↔
    ∃ mapped, args.mapOffer args.sourceId raw = .ok mapped ∧
      outsideRange args.since args.limit (effectiveDate args turn mapped) = .ok false := by
  unfold inRangeAt
  cases args.mapOffer args.sourceId raw <;> simp

theorem dueAt_eq_false_iff : dueAt args turn raw = false ↔
    ∃ mapped, args.mapOffer args.sourceId raw = .ok mapped ∧
      outsideRange args.since args.limit (effectiveDate args turn mapped) = .ok true := by
  unfold dueAt
  cases args.mapOffer args.sourceId raw <;> simp

/-- A record that is not due is gone over. -/
theorem step_of_not_due (h : dueAt args w.turn raw = false) :
    step env args w raw = .ok { w with turn := w.turn + 1 } := by
  obtain ⟨mapped, hmapped, houtside⟩ := dueAt_eq_false_iff.mp h
  exact step_outside hmapped houtside

/-- A record in the range is handed over, whatever becomes of it. -/
theorem step_of_inRange (h : inRangeAt args w.turn raw = true) :
    Walk.handedBy (step env args w raw) = w.handed ++ [raw] := by
  obtain ⟨mapped, hmapped, houtside⟩ := inRangeAt_iff.mp h
  rw [step_inside hmapped houtside]
  cases ingestOffer env mapped raw w.session with
  | ok r => simp [Walk.handedBy]
  | error raised => simp [Walk.handedBy]

/-- A record that is due and not in the range raises before it is handed over. -/
theorem step_of_due (hdue : dueAt args w.turn raw = true)
    (h : inRangeAt args w.turn raw = false) : ∃ e, step env args w raw = .error (e, w) := by
  cases hmapped : args.mapOffer args.sourceId raw with
  | error e =>
    exact ⟨e, by simp [step, ingestRecord, Walk.lift, hmapped, Except.mapError, bind, Except.bind,
      Except.map]⟩
  | ok mapped =>
    cases houtside : outsideRange args.since args.limit (effectiveDate args w.turn mapped) with
    | ok outside =>
      cases outside with
      | true => simp [dueAt_eq_false_iff.mpr ⟨mapped, hmapped, houtside⟩] at hdue
      | false => simp [inRangeAt_iff.mpr ⟨mapped, hmapped, houtside⟩] at h
    | error e =>
      cases hrecent : notBeforeSince args (effectiveDate args w.turn mapped) with
      | error e' =>
        exact ⟨e', by simp [step, ingestRecord, Walk.lift, hmapped, hrecent, Except.mapError, bind,
          Except.bind, Except.map]⟩
      | ok recent =>
        exact ⟨e, by simp [step, ingestRecord, Walk.lift, hmapped, hrecent, houtside,
          Except.mapError, bind, Except.bind, Except.map]⟩

/-- What is handed over stays so. -/
theorem handed_stays : w.handed <+: Walk.handedBy (records.foldlM (step env args) w) := by
  induction records generalizing w with
  | nil => exact List.prefix_rfl
  | cons raw records ih =>
    rw [List.foldlM_cons]
    cases hstep : step env args w raw with
    | error raised =>
      obtain ⟨e, w'⟩ := raised
      rcases (ingestRecord_error (step_error hstep)).2 with hsame | hmore
      · exact hsame ▸ List.prefix_rfl
      · change w.handed <+: w'.handed
        rw [hmore]
        exact List.prefix_append _ _
    | ok w' =>
      obtain ⟨recent, hrecord⟩ := step_ok hstep
      have hturn : w.handed <+: w'.handed := by
        rw [(ingestRecord_ok hrecord).2.2]
        exact List.prefix_append _ _
      exact hturn.trans ih

/-- Nothing is handed over exactly when the first record that is due raises before it is. -/
theorem handedBy_foldlM_eq_iff :
    Walk.handedBy (records.foldlM (step env args) w) = w.handed ↔
      ∀ turn raw, firstDue args w.turn records = some (turn, raw) →
        inRangeAt args turn raw = false := by
  induction records generalizing w with
  | nil => simp [firstDue, Walk.handedBy, pure, Except.pure]
  | cons raw records ih =>
    rw [List.foldlM_cons, firstDue]
    cases hdue : dueAt args w.turn raw with
    | false =>
      rw [step_of_not_due hdue]
      exact ih
    | true =>
      cases hrange : inRangeAt args w.turn raw with
      | false =>
        obtain ⟨e, hstep⟩ := @step_of_due env args raw w hdue hrange
        simp [hstep, hrange, Walk.handedBy, bind, Except.bind]
      | true =>
        have hhanded := @step_of_inRange env args raw w hrange
        have hmore : w.handed ++ [raw] <+:
            Walk.handedBy
              (step env args w raw >>= fun w' => records.foldlM (step env args) w') := by
          rw [← hhanded]
          cases step env args w raw with
          | error raised => exact List.prefix_rfl
          | ok w' => exact handed_stays
        refine iff_of_false ?_ ?_
        · intro hsame
          have hlength := hmore.length_le
          rw [hsame, List.length_append, List.length_singleton] at hlength
          omega
        · intro hnone
          have := hnone w.turn raw (by simp)
          rw [hrange] at this
          cases this

/-! ## Dated records -/

theorem effectiveDate_of_dateOf {mapped : Dict} {date : DateTime}
    (hmapped : args.mapOffer args.sourceId raw = .ok mapped)
    (hdate : dateOf args raw = some date) : effectiveDate args turn mapped = date := by
  unfold dateOf at hdate
  rw [hmapped] at hdate
  dsimp only at hdate
  rw [effectiveDate, hdate]
  rfl

/-- The dated records of an old page that goes through are older than `since`. -/
theorem dated_of_olderFrom {since : DateTime} (hsince : args.since = some since)
    (hfold : records.foldlM (step env args) w = .ok w')
    (holder : olderFrom args w.turn records = true) :
    ∀ date ∈ records.filterMap (dateOf args), date.ge since = .ok false := by
  induction records generalizing w with
  | nil => simp
  | cons raw records ih =>
    rw [List.foldlM_cons] at hfold
    obtain ⟨m, hstep, hrest⟩ := bind_ok hfold
    obtain ⟨recent, hrecord⟩ := step_ok hstep
    obtain ⟨-, hturn, -⟩ := ingestRecord_ok hrecord
    rw [olderFrom, Bool.and_eq_true, ← hturn] at holder
    have hlater := ih hrest holder.2
    intro date hdate
    obtain ⟨dated, hmem, hdated⟩ := List.mem_filterMap.mp hdate
    rcases List.mem_cons.mp hmem with rfl | hmem
    · obtain ⟨mapped, hmapped, hrecent, -⟩ := ingestRecord_turned hrecord
      have heffective : effectiveDate args w.turn mapped = date :=
        effectiveDate_of_dateOf hmapped hdated
      have hrecentAt : recentAt args w.turn dated = recent := by
        simp [recentAt, hmapped, hrecent]
      have hfalse : recent = false := by
        rw [← hrecentAt]
        simpa using holder.1
      rw [notBeforeSince, hsince, heffective, hfalse] at hrecent
      exact hrecent
    · exact hlater date (List.mem_filterMap.mpr ⟨dated, hmem, hdated⟩)

/-- In a feed that is newest first, what follows an old date is out of the range. -/
theorem not_inRange_of_older {since date later : DateTime} (hsince : args.since = some since)
    (hold : date.ge since = .ok false) (hnewest : date.ge later = .ok true)
    (hdate : dateOf args raw = some later) : inRangeAt args turn raw = false := by
  by_contra hrange
  obtain ⟨mapped, hmapped, houtside⟩ := inRangeAt_iff.mp (by simpa using hrange)
  have heffective : effectiveDate args turn mapped = later := effectiveDate_of_dateOf hmapped hdate
  have hless : later.lt since = .ok true := by
    obtain ⟨haware, hmicros⟩ := DateTime.ge_eq_ok_iff.mp hold
    obtain ⟨haware', hmicros'⟩ := DateTime.ge_eq_ok_iff.mp hnewest
    refine DateTime.lt_eq_ok_iff.mpr ⟨haware'.symm.trans haware, ?_⟩
    simp only [decide_eq_true_eq, decide_eq_false_iff_not] at hmicros hmicros' ⊢
    omega
  have hbefore : beforeSince args.since later = .ok true := by rw [hsince, ← hless]; rfl
  rw [heffective, outsideRange, hbefore] at houtside
  cases houtside

theorem firstDue_mem {first : Nat × Dict} (h : firstDue args turn records = some first) :
    first.2 ∈ records := by
  induction records generalizing turn with
  | nil => cases h
  | cons raw records ih =>
    rw [firstDue] at h
    split at h
    · rw [← Option.some.inj h]
      exact List.mem_cons_self
    · exact List.mem_cons_of_mem _ (ih h)

/-- In such a feed, what the condition says of undated records holds of all. -/
theorem firstDue_not_inRange {after : List (List Dict)} {page : List Dict} {w₀ w' : Walk}
    (hnewest : NewestFirst args (page ++ after.flatten)) (hsince : args.since.isSome)
    (hpage : GetsThrough env args [page] w₀ w') (holder : olderFrom args w₀.turn page = true)
    (hundated : ∀ turn raw, firstDue args w'.turn after.flatten = some (turn, raw) →
      dateOf args raw = none ∨ page.filterMap (dateOf args) = [] →
        inRangeAt args turn raw = false) :
    ∀ turn raw, firstDue args w'.turn after.flatten = some (turn, raw) →
      inRangeAt args turn raw = false := by
  intro turn raw hfirst
  obtain ⟨since, hsince⟩ := Option.isSome_iff_exists.mp hsince
  cases hdate : dateOf args raw with
  | none => exact hundated turn raw hfirst (.inl hdate)
  | some later =>
    cases hdates : page.filterMap (dateOf args) with
    | nil => exact hundated turn raw hfirst (.inr hdates)
    | cons date dates =>
      have hmem : date ∈ page.filterMap (dateOf args) := by simp [hdates]
      have hfold : page.foldlM (step env args) w₀ = .ok w' := by
        rw [GetsThrough, List.flatten_singleton] at hpage
        exact hpage
      have hlater : later ∈ after.flatten.filterMap (dateOf args) :=
        List.mem_filterMap.mpr ⟨raw, firstDue_mem hfirst, hdate⟩
      rw [NewestFirst, List.filterMap_append] at hnewest
      have hpair := (List.pairwise_append.mp hnewest).2.2 date hmem later hlater
      exact not_inRange_of_older hsince (dated_of_olderFrom hsince hfold holder date hmem) hpair
        hdate

/-! ## Where the walk may stop -/

/-- The records after a page hand nothing over. -/
def Quiet (args : RunnerArgs) (w : Walk) (records : List Dict) : Prop :=
  ∀ turn raw, firstDue args w.turn records = some (turn, raw) → inRangeAt args turn raw = false

/-- Nothing is handed over after a page that is all older than `since`. -/
def StopSafe (env : IngestEnv) (args : RunnerArgs) (pages : List (List Dict)) (w : Walk) : Prop :=
  ∀ before page after w₀ w', pages = before ++ page :: after →
    GetsThrough env args before w w₀ → GetsThrough env args [page] w₀ w' →
      args.since.isSome → page ≠ [] → olderFrom args w₀.turn page = true →
        Quiet args w' after.flatten

theorem Quiet.of_append {later : List Dict} (hquiet : Quiet args w (records ++ later))
    (hfold : records.foldlM (step env args) w = .ok w') : Quiet args w' later := by
  have hall : Walk.handedBy ((records ++ later).foldlM (step env args) w) = w.handed :=
    handedBy_foldlM_eq_iff.mpr hquiet
  rw [foldlM_append_of_ok hfold] at hall
  have hbefore : w.handed <+: w'.handed := by
    have := @handed_stays env args records w
    rwa [hfold] at this
  have hafter : w'.handed <+: w.handed := by
    rw [← hall]
    exact handed_stays
  have hsame : w.handed = w'.handed := hbefore.eq_of_length_le hafter.length_le
  exact (@handedBy_foldlM_eq_iff env args later w').mp (hall.trans hsame)

theorem StopSafe.of_quiet (hquiet : Quiet args w pages.flatten) : StopSafe env args pages w := by
  rintro before page after w₀ w' rfl hbefore hpage - - -
  rw [List.flatten_append, List.flatten_cons] at hquiet
  rw [GetsThrough, List.flatten_singleton] at hpage
  exact (hquiet.of_append hbefore).of_append hpage

theorem stopSafe_cons_iff {page : List Dict} :
    StopSafe env args (page :: pages) w ↔
      (∀ w', GetsThrough env args [page] w w' → args.since.isSome → page ≠ [] →
        olderFrom args w.turn page = true → Quiet args w' pages.flatten) ∧
        ∀ w', GetsThrough env args [page] w w' → StopSafe env args pages w' := by
  constructor
  · intro hsafe
    refine ⟨fun w' hpage => hsafe [] page pages w w' rfl rfl hpage, ?_⟩
    rintro w₁ hpage before old after w₀ w' rfl hbefore
    refine hsafe (page :: before) old after w₀ w' rfl ?_
    rw [GetsThrough, List.flatten_singleton] at hpage
    rw [GetsThrough, List.flatten_cons, foldlM_append_of_ok hpage]
    exact hbefore
  · rintro ⟨hfirst, hlater⟩ before old after w₀ w' hpages hbefore
    cases before with
    | nil =>
      obtain ⟨rfl, rfl⟩ := List.cons.inj hpages
      obtain rfl : w = w₀ := Except.ok.inj hbefore
      exact hfirst w'
    | cons first before =>
      obtain ⟨rfl, rfl⟩ := List.cons.inj hpages
      rw [GetsThrough, List.flatten_cons] at hbefore
      obtain ⟨m, hpage, hrest⟩ := foldlM_prefix hbefore
      have hpage : GetsThrough env args [page] w m := by
        rw [GetsThrough, List.flatten_singleton]
        exact hpage
      exact hlater m hpage before old after w₀ w' rfl hrest

/-! ## The two walks -/

/-- Whether the feed is trusted makes no difference to what is old. -/
theorem olderFrom_sorted {sortedByRecency : Bool} :
    olderFrom (args.sorted sortedByRecency) turn records = olderFrom args turn records := by
  induction records generalizing turn with
  | nil => rfl
  | cons raw records ih =>
    rw [olderFrom, olderFrom, ih]
    rfl

theorem goPage_error {s : Bool × Walk} {page : List Dict} {raised : PyError × Walk}
    (h : goPage env args s page = .error raised) :
    page.foldlM (step env args) s.2 = .error raised := by
  rw [goPage, ingestPage_eq] at h
  cases hfold : page.foldlM (step env args) s.2 with
  | error raised' =>
    rw [hfold] at h
    exact congrArg Except.error (Except.error.inj h)
  | ok w' =>
    rw [hfold] at h
    cases h

/-- Without the rule on old pages, a forced walk ends early only where it raises. -/
theorem unsorted_walk (hforce : args.forceRefresh = true) {older : Bool} :
    (pages.take (reach (goPage env (args.sorted false)) (stopsWalk (args.sorted false)) pages
        (older, w))).flatten.foldlM (step env args) w =
      pages.flatten.foldlM (step env args) w := by
  induction pages generalizing older w with
  | nil => rfl
  | cons page pages ih =>
    rw [reach]
    cases hgo : goPage env (args.sorted false) (older, w) page with
    | error raised =>
      have hfold : page.foldlM (step env args) w = .error raised := goPage_error hgo
      dsimp only
      rw [List.take_succ_cons, List.flatten_cons, List.flatten_cons, List.foldlM_append,
        List.foldlM_append, hfold]
      rfl
    | ok s =>
      obtain ⟨hfold, hflag⟩ := goPage_ok hgo
      have hstop : stopsWalk (args.sorted false) s = false := by
        rw [stopsWalk, hflag, caughtUp]
        simp [olderAtFirst, RunnerArgs.sorted, hforce]
      have hfold : page.foldlM (step env args) w = .ok s.2 := hfold
      dsimp only
      rw [hstop, if_neg Bool.false_ne_true, List.take_succ_cons, List.flatten_cons,
        List.flatten_cons, foldlM_append_of_ok hfold, foldlM_append_of_ok hfold]
      exact ih

/-- With the rule, a forced walk hands the same records over exactly when nothing is handed
over after an old page. -/
theorem sorted_walk_iff (hforce : args.forceRefresh = true) {older : Bool} :
    Walk.handedBy ((pages.take (reach (goPage env (args.sorted true)) (stopsWalk (args.sorted true))
        pages (older, w))).flatten.foldlM (step env args) w) =
      Walk.handedBy (pages.flatten.foldlM (step env args) w) ↔ StopSafe env args pages w := by
  induction pages generalizing older w with
  | nil =>
    refine iff_of_true rfl ?_
    rintro before page after w₀ w' hpages
    cases before <;> cases hpages
  | cons page pages ih =>
    rw [reach, stopSafe_cons_iff]
    cases hgo : goPage env (args.sorted true) (older, w) page with
    | error raised =>
      have hfold : page.foldlM (step env args) w = .error raised := goPage_error hgo
      have hnever : ∀ w', ¬ GetsThrough env args [page] w w' := by
        intro w' hpage
        rw [GetsThrough, List.flatten_singleton, hfold] at hpage
        cases hpage
      dsimp only
      rw [List.take_succ_cons, List.flatten_cons, List.flatten_cons, List.foldlM_append,
        List.foldlM_append, hfold]
      exact iff_of_true rfl
        ⟨fun w' hpage => absurd hpage (hnever w'), fun w' hpage => absurd hpage (hnever w')⟩
    | ok s =>
      obtain ⟨hfold, hflag⟩ := goPage_ok hgo
      have hfold : page.foldlM (step env args) w = .ok s.2 := hfold
      have hthrough : ∀ w', GetsThrough env args [page] w w' ↔ s.2 = w' := by
        intro w'
        rw [GetsThrough, List.flatten_singleton, hfold]
        exact ⟨Except.ok.inj, congrArg Except.ok⟩
      have hstop : stopsWalk (args.sorted true) s = true ↔
          args.since.isSome = true ∧ page ≠ [] ∧ olderFrom args w.turn page = true := by
        rw [stopsWalk, hflag, caughtUp, olderFrom_sorted]
        simp [olderAtFirst, RunnerArgs.sorted, hforce, and_assoc]
      simp only [hthrough, forall_eq']
      rw [List.flatten_cons, foldlM_append_of_ok hfold]
      cases hcase : stopsWalk (args.sorted true) s with
      | true =>
        obtain ⟨hsince, hne, holder⟩ := hstop.mp hcase
        rw [if_pos rfl, List.take_succ_cons, List.take_zero, List.flatten_singleton, hfold]
        have hquiet := @handedBy_foldlM_eq_iff env args pages.flatten s.2
        rw [eq_comm, Walk.handedBy, hquiet]
        constructor
        · intro h
          exact ⟨fun _ _ _ => h, StopSafe.of_quiet h⟩
        · intro h
          exact h.1 hsince hne holder
      | false =>
        have hgoes :
            ¬ (args.since.isSome = true ∧ page ≠ [] ∧ olderFrom args w.turn page = true) := by
          rw [← hstop, hcase]
          exact Bool.false_ne_true
        rw [if_neg Bool.false_ne_true, List.take_succ_cons, List.flatten_cons,
          foldlM_append_of_ok hfold, ih]
        constructor
        · intro h
          exact ⟨fun hsince hne holder => absurd ⟨hsince, hne, holder⟩ hgoes, h⟩
        · intro h
          exact h.2

theorem nothingAfterOldPage_iff (hnewest : NewestFirst args pages.flatten) :
    NothingAfterOldPage env args pages w ↔ StopSafe env args pages w := by
  constructor
  · rintro h before page after w₀ w' rfl hbefore hpage hsince hne holder
    have hrest : NewestFirst args (page ++ after.flatten) := by
      rw [NewestFirst, List.flatten_append, List.flatten_cons, List.filterMap_append] at hnewest
      exact (List.pairwise_append.mp hnewest).2.1
    exact firstDue_not_inRange hrest hsince hpage holder
      (h before page after w₀ w' rfl hbefore hpage hsince hne holder)
  · intro h before page after w₀ w' hpages hbefore hpage hsince hne holder turn raw hfirst _
    exact h before page after w₀ w' hpages hbefore hpage hsince hne holder turn raw hfirst

section Run

variable {Cursor : Type} {fetchPage : FetchPage Cursor} {initialCursor : Cursor} {state : RunState}

/-- A forced run that trusts a feed with its dated offers newest first hands over what one that
does not trust it does, exactly when no old page has an undated record in the range after it. -/
theorem sorted_hands_same_iff (hforce : args.forceRefresh = true)
    (hnewest : NewestFirst args (feed args fetchPage initialCursor).flatten) :
    handedBy (runPaginatedIngestion env (args.sorted true) fetchPage initialCursor state) =
      handedBy (runPaginatedIngestion env (args.sorted false) fetchPage initialCursor state) ↔
    NothingAfterOldPage env args (feed args fetchPage initialCursor) (.start state) := by
  rw [handedBy_run, handedBy_run, nothingAfterOldPage_iff hnewest]
  have hunsorted :=
    @unsorted_walk env args (.start state) (feed args fetchPage initialCursor) hforce false
  have hsorted :=
    @sorted_walk_iff env args (.start state) (feed args fetchPage initialCursor) hforce false
  rw [← hunsorted] at hsorted
  exact hsorted

end Run

/-! ## An undated record after an old page -/

def oldFields : Dict :=
  (acmeFields "a").set "posted_at" (.datetime ⟨1767225600000000, true⟩)

/-- A forced run in July 2026 over what was posted since June. -/
def sinceJuneArgs : RunnerArgs where
  sourceId := 1
  sourceName := "acme"
  mapOffer := fun _ raw => .ok raw
  parseDatetime := fun v => (Pydantic.orNone acmeEnv.pydantic.datetime v).join
  now := fun _ => ⟨1784073600000000, true⟩
  maxPages := 5
  alreadySeenStopThreshold := 20
  forceRefresh := true
  since := some ⟨1780272000000000, true⟩
  limit := none

/-- A page with an offer of January, and one with an offer that has no date. -/
def oldThenUndated : FetchPage Nat
  | _, 0 => .got ([oldFields], some 1)
  | _, _ => .got ([acmeFields "b"], none)

def sinceJuneState : RunState :=
  { session := .opened acmeSourceDb }

theorem undated_after_old_page_lost :
    NewestFirst sinceJuneArgs (feed sinceJuneArgs oldThenUndated 0).flatten ∧
      handedBy (runPaginatedIngestion acmeEnv (sinceJuneArgs.sorted true) oldThenUndated 0
        sinceJuneState) = [] ∧
      handedBy (runPaginatedIngestion acmeEnv (sinceJuneArgs.sorted false) oldThenUndated 0
        sinceJuneState) = [acmeFields "b"] := by
  refine ⟨List.pairwise_singleton _ _, rfl, rfl⟩

theorem not_nothingAfterOldPage_undated :
    ¬ NothingAfterOldPage acmeEnv sinceJuneArgs (feed sinceJuneArgs oldThenUndated 0)
      (.start sinceJuneState) := by
  have hnewest : NewestFirst sinceJuneArgs (feed sinceJuneArgs oldThenUndated 0).flatten :=
    List.pairwise_singleton _ _
  rw [← @sorted_hands_same_iff acmeEnv sinceJuneArgs Nat oldThenUndated 0 sinceJuneState rfl
    hnewest]
  exact (List.cons_ne_nil (acmeFields "b") []).symm

end RecruFlow.Ingestion
