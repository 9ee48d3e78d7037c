import RecruFlow.Ingestion.Runner
import RecruFlow.Scoring.Batch

/-!
# A fetch range from the API

The API takes bounds with a time zone or without one, and the range tests compare
them to dates that have one or not. A test raises exactly when only one of the two
has a time zone.
-/

namespace RecruFlow.Scheduler

open Db Ingestion Schemas Scoring

/-- A request that pydantic has accepted: the mode `all` clears the bounds, and the
bounds of a range have been compared. -/
inductive FetchRangeUpdateRequest where
  | all
  | range (since : DateTime) (limit : Option DateTime)
      (ordered : ∀ bound ∈ limit, bound.lt since = .ok false)

namespace FetchRangeUpdateRequest

def since : FetchRangeUpdateRequest → Option DateTime
  | .all => none
  | .range since _ _ => some since

def limit : FetchRangeUpdateRequest → Option DateTime
  | .all => none
  | .range _ limit _ => limit

/-- `since` is required, and it must not be after `until`; two bounds that cannot be
compared raise a `TypeError`, which is no `ValidationError`. -/
def validateRange (since limit : Option DateTime) : Except PyError (Option FetchRangeUpdateRequest) :=
  match since, limit with
  | none, _ => .ok none
  | some since, none => .ok (some (.range since none (by simp)))
  | some since, some limit =>
      if hordered : limit.lt since = .ok false then
        .ok (some (.range since (some limit) (by simpa using hordered)))
      else (limit.lt since).map fun _ => none

/-- `FetchRangeUpdateRequest.model_validate(body)`; `none` is a `ValidationError`. -/
def modelValidate (datetime : PyValue → Option DateTime) (body : Dict) :
    Except PyError (Option FetchRangeUpdateRequest) :=
  let instant (name : String) : Option (Option DateTime) :=
    Pydantic.field body name none (Pydantic.orNone datetime)
  match instant "since", instant "until" with
  | some since, some limit =>
      if body.get "mode" = some (.str "all") then .ok (some .all)
      else if body.get "mode" = some (.str "range") then validateRange since limit
      else .ok none
  | _, _ => .ok none

/-- `request.model_dump(mode="json")` -/
def modelDump (isoformat : DateTime → String) (request : FetchRangeUpdateRequest) : Dict :=
  let instant (d : Option DateTime) : PyValue := (d.map fun d => .str (isoformat d)).getD .none
  let mode := match request with
    | .all => "all"
    | .range _ _ _ => "range"
  ⟨[("mode", .str mode), ("since", instant request.since), ("until", instant request.limit)]⟩

/-- The bounds are parsed as what was dumped. -/
structure ReadBack (parseDatetime : PyValue → Option DateTime) (isoformat : DateTime → String)
    (request : FetchRangeUpdateRequest) : Prop where
  none : parseDatetime .none = Option.none
  since : ∀ d ∈ request.since, parseDatetime (.str (isoformat d)) = some d
  limit : ∀ d ∈ request.limit, parseDatetime (.str (isoformat d)) = some d

/-- A date has a time zone if the bounds have one, and only then. -/
def SameZone (request : FetchRangeUpdateRequest) (date : DateTime) : Prop :=
  ∀ since ∈ request.since, date.aware = since.aware

end FetchRangeUpdateRequest

open FetchRangeUpdateRequest

/-- The comparisons of one turn of the runner: whether the record is not before
`since`, and whether it is outside the range. -/
def rangeDecision (args : RunnerArgs) (turn : Nat) (mapped : Dict) : Except PyError (Bool × Bool) := do
  let date := effectiveDate args turn mapped
  let recent ← notBeforeSince args date
  let outside ← outsideRange args.since args.limit date
  pure (recent, outside)

/-- The date that `_in_fetch_range` compares. -/
def rowDate (env : BatchEnv) (row : OfferRow) : DateTime :=
  row.offer.postedAt.getD ⟨env.now row.id, true⟩

variable {request : FetchRangeUpdateRequest} {parseDatetime : PyValue → Option DateTime}
  {isoformat : DateTime → String} {args : RunnerArgs}

/-! ## Comparisons -/

theorem lt_ok_iff {a b : DateTime} : (∃ r, a.lt b = .ok r) ↔ a.aware = b.aware := by
  simp [DateTime.lt_eq_ok_iff]

theorem ge_ok_iff {a b : DateTime} : (∃ r, a.ge b = .ok r) ↔ a.aware = b.aware := by
  simp [DateTime.ge_eq_ok_iff]

theorem limit_aware {since : DateTime} (hsince : since ∈ request.since) :
    ∀ limit ∈ request.limit, limit.aware = since.aware := by
  intro limit hlimit
  cases request with
  | all => cases hsince
  | range since' limit' ordered =>
      obtain rfl : since' = since := Option.some.inj hsince
      exact lt_ok_iff.mp ⟨false, ordered limit hlimit⟩

theorem limit_none (h : request.since = none) : request.limit = none := by
  cases request with
  | all => rfl
  | range => cases h

/-- The tests of a date against the two bounds of a request. -/
theorem outsideRange_ok_iff {date : DateTime} :
    (∃ outside, outsideRange request.since request.limit date = .ok outside) ↔
      request.SameZone date := by
  cases hsince : request.since with
  | none => simp [SameZone, hsince, limit_none hsince, outsideRange, beforeSince, afterUntil, bind,
      Except.bind]
  | some since =>
      have hzones := limit_aware (Option.mem_def.mpr hsince)
      have hbefore := @lt_ok_iff date since
      simp only [SameZone, hsince, Option.mem_def, Option.some.injEq, forall_eq']
      rw [← hbefore]
      constructor
      · rintro ⟨outside, houtside⟩
        obtain ⟨before, hlt, -⟩ := bind_ok houtside
        exact ⟨before, hlt⟩
      · rintro ⟨before, hlt⟩
        have haware : date.aware = since.aware := hbefore.mp ⟨before, hlt⟩
        have hlt : beforeSince (some since) date = .ok before := hlt
        rw [outsideRange, hlt]
        cases before with
        | true => exact ⟨true, rfl⟩
        | false =>
            cases hlimit : request.limit with
            | none => exact ⟨false, rfl⟩
            | some limit =>
                exact lt_ok_iff.mpr ((hzones limit (Option.mem_def.mpr hlimit)).trans haware.symm)

theorem rangeDecision_ok_iff {turn : Nat} {mapped : Dict} (hsince : args.since = request.since)
    (hlimit : args.limit = request.limit) :
    (∃ decision, rangeDecision args turn mapped = .ok decision) ↔
      request.SameZone (effectiveDate args turn mapped) := by
  rw [← outsideRange_ok_iff, rangeDecision, hsince, hlimit]
  constructor
  · rintro ⟨decision, h⟩
    obtain ⟨recent, -, h⟩ := bind_ok h
    obtain ⟨outside, houtside, -⟩ := bind_ok h
    exact ⟨outside, houtside⟩
  · rintro ⟨outside, houtside⟩
    have hzone := outsideRange_ok_iff.mp ⟨outside, houtside⟩
    obtain ⟨recent, hrecent⟩ :
        ∃ recent, notBeforeSince args (effectiveDate args turn mapped) = .ok recent := by
      rw [notBeforeSince, hsince]
      cases hrange : request.since with
      | none => exact ⟨false, rfl⟩
      | some since => exact ge_ok_iff.mpr (hzone since (Option.mem_def.mpr hrange))
    exact ⟨(recent, outside), by rw [hrecent, houtside]; rfl⟩

/-- A test that raises ends the run. -/
theorem ingestRecord_of_rangeDecision_error {env : IngestEnv} {w : Walk} {raw mapped : Dict}
    {e : PyError} (hmapped : args.mapOffer args.sourceId raw = .ok mapped)
    (h : rangeDecision args w.turn mapped = .error e) :
    ingestRecord env args w raw = .error (e, w) := by
  rcases bind_error h with hrecent | ⟨recent, hrecent, h⟩
  · simp [ingestRecord, Walk.lift, Except.mapError, hmapped, hrecent, bind, Except.bind]
  · rcases bind_error h with houtside | ⟨outside, -, h⟩
    · simp [ingestRecord, Walk.lift, Except.mapError, hmapped, hrecent, houtside, bind, Except.bind]
    · cases h

/-! ## What the API has stored -/

/-- The stored range is read back as the request. -/
theorem resolveFetchRange_modelDump (hread : request.ReadBack parseDatetime isoformat) :
    resolveFetchRange parseDatetime (some (.dict (request.modelDump isoformat).items)) =
      (request.since, request.limit) := by
  cases request with
  | all => rfl
  | range since limit ordered =>
      have hsince := hread.since since rfl
      have hlimit := hread.limit
      cases limit with
      | none =>
          change (parseDatetime (.str (isoformat since)), parseDatetime .none) = _
          rw [hsince, hread.none]
          rfl
      | some limit =>
          change (parseDatetime (.str (isoformat since)), parseDatetime (.str (isoformat limit))) = _
          rw [hsince, hlimit limit rfl]
          rfl

theorem inFetchRange_ok_iff {env : BatchEnv} {row : OfferRow} {configJson : Dict}
    (hrange : resolveFetchRange env.parseDatetime (configJson.get "fetch_range") =
      (request.since, request.limit)) :
    (∃ keep, inFetchRange env row configJson = .ok keep) ↔ request.SameZone (rowDate env row) := by
  rw [← outsideRange_ok_iff, inFetchRange, hrange]
  dsimp only
  split
  · next hnone => simp [hnone.1, hnone.2, outsideRange, beforeSince, afterUntil, bind, Except.bind,
      pure, Except.pure]
  · constructor
    · rintro ⟨keep, h⟩
      obtain ⟨outside, houtside, -⟩ := bind_ok h
      exact ⟨outside, houtside⟩
    · rintro ⟨outside, houtside⟩
      exact ⟨!outside, by rw [rowDate] at houtside; rw [houtside]; rfl⟩

/-- A batch selects offers exactly when none of its range tests raises. -/
theorem selectScoringCandidates_ok_iff {env : BatchEnv} {db : Database} {profileId : Nat} :
    (∃ selection, selectScoringCandidates env db profileId = .ok selection) ↔
      ∀ p ∈ candidateScan env db profileId, ∃ keep, inFetchRange env p.1 p.2.configJson = .ok keep := by
  have hrows (ps : List (OfferRow × Source)) : (∃ kept, inRangeRows env ps = .ok kept) ↔
      ∀ p ∈ ps, ∃ keep, inFetchRange env p.1 p.2.configJson = .ok keep := by
    induction ps with
    | nil => simp [inRangeRows]
    | cons p ps ih =>
        rw [List.forall_mem_cons, ← ih, inRangeRows]
        constructor
        · rintro ⟨kept, h⟩
          obtain ⟨keep, hkeep, h⟩ := bind_ok h
          obtain ⟨rest, hrest, -⟩ := bind_ok h
          exact ⟨⟨keep, hkeep⟩, rest, hrest⟩
        · rintro ⟨⟨keep, hkeep⟩, rest, hrest⟩
          exact ⟨if keep then p :: rest else rest, by rw [hkeep, hrest]; rfl⟩
  rw [← hrows, selectScoringCandidates]
  constructor
  · rintro ⟨selection, h⟩
    obtain ⟨kept, hkept, -⟩ := bind_ok h
    exact ⟨kept, hkept⟩
  · rintro ⟨kept, hkept⟩
    exact ⟨_, by rw [hkept]; rfl⟩

/-- For a range that the API has stored, the runner decides on a record, and a batch on
a row, exactly when the date that they compare has a time zone if and only if the
bounds have one. -/
theorem range_decisions_ok_iff {env : BatchEnv} {configJson : Dict}
    (hread : request.ReadBack env.parseDatetime isoformat)
    (hstored : configJson.get "fetch_range" = some (.dict (request.modelDump isoformat).items))
    (hargs : (args.since, args.limit) =
      resolveFetchRange env.parseDatetime (configJson.get "fetch_range")) :
    (∀ turn mapped, (∃ decision, rangeDecision args turn mapped = .ok decision) ↔
        request.SameZone (effectiveDate args turn mapped)) ∧
      ∀ row, (∃ keep, inFetchRange env row configJson = .ok keep) ↔
        request.SameZone (rowDate env row) := by
  have hrange := resolveFetchRange_modelDump hread
  rw [← hstored] at hrange
  obtain ⟨hsince, hlimit⟩ := Prod.mk.inj (hargs.trans hrange)
  exact ⟨fun turn mapped => rangeDecision_ok_iff hsince hlimit, fun row => inFetchRange_ok_iff hrange⟩

/-! ## A date without a time zone -/

def boardDates : List (String × DateTime) :=
  [
    ("2026-07-01T00:00:00Z", ⟨1782864000000000, true⟩),
    ("2026-07-01T00:00:00", ⟨1782864000000000, false⟩),
    ("2026-07-13T07:05:10Z", ⟨1783926310000000, true⟩),
    ("2026-07-13T07:05:10", ⟨1783926310000000, false⟩)
  ]

def parseBoardDate : PyValue → Option DateTime
  | .str text => boardDates.lookup text
  | _ => none

def boardIsoformat (d : DateTime) : String :=
  ((boardDates.find? (·.2 = d)).map (·.1)).getD ""

def fromJuly (aware : Bool) : FetchRangeUpdateRequest :=
  .range ⟨1782864000000000, aware⟩ none (by simp)

/-- A run over a range from the API. -/
def boardArgs (request : FetchRangeUpdateRequest) : RunnerArgs where
  sourceId := 1
  sourceName := "remoteok"
  mapOffer := fun _ raw => .ok raw
  parseDatetime := parseBoardDate
  now := fun _ => ⟨1784073600000000, true⟩
  maxPages := 5
  alreadySeenStopThreshold := 20
  forceRefresh := false
  since := request.since
  limit := request.limit

def postedFields (title postedAt : String) : Dict :=
  (acmeFields title).set "posted_at" (.str postedAt)

def boardBatchEnv : BatchEnv where
  parseDatetime := parseBoardDate
  now := fun _ => 1784073600000000
  connectors := ["remoteok", "remotive"]
  limit := 10
  scoreOffer := fun _ _ => .ok (.error "")
  startedAt := 0

def boardSource (id : Nat) (connector : String) (request : FetchRangeUpdateRequest) : Source where
  id := id
  name := connector
  connector := some connector
  configJson := ⟨[("fetch_range", .dict (request.modelDump boardIsoformat).items)]⟩
  lastFetchedAt := none

/-- An offer of each of two sources, the first of which has bounds without a time zone. -/
def boardDb : Database :=
  { sources := [boardSource 1 "remoteok" (fromJuly false), boardSource 2 "remotive" .all]
    offers :=
      [{ id := 1, dedupHash := "a", offer := firstOffer, rawPayload := ⟨[]⟩, createdAt := 0 },
        { id := 2
          dedupHash := "b"
          offer := { firstOffer with sourceId := 2, valid := by decide }
          rawPayload := ⟨[]⟩
          createdAt := 0 }] }

theorem fromJuly_readBack (aware : Bool) : (fromJuly aware).ReadBack parseBoardDate boardIsoformat where
  none := rfl
  since d hd := by
    obtain rfl := Option.some.inj hd
    cases aware <;> rfl
  limit d hd := by cases hd

theorem range_decisions_ok_iff_july :
    ∃ decision, rangeDecision (boardArgs (fromJuly true)) 0
      (postedFields "b" "2026-07-13T07:05:10Z") = .ok decision := by
  have hstored : (boardSource 1 "remoteok" (fromJuly true)).configJson.get "fetch_range" =
      some (.dict ((fromJuly true).modelDump boardIsoformat).items) := rfl
  have hread : (fromJuly true).ReadBack boardBatchEnv.parseDatetime boardIsoformat :=
    fromJuly_readBack true
  have hzone : (fromJuly true).SameZone (effectiveDate (boardArgs (fromJuly true)) 0
      (postedFields "b" "2026-07-13T07:05:10Z")) := by
    intro since hsince
    obtain rfl := Option.some.inj hsince
    rfl
  exact ((@range_decisions_ok_iff _ _ (boardArgs (fromJuly true)) _ _ hread hstored rfl).1 0 _).mpr hzone

/-- The API accepts the range; a record of its first page without a time zone ends
the run before the next one is handed over. And it accepts the bound without a time
zone that stops a batch, for the offers of every source. -/
theorem zones_abort :
    modelValidate parseBoardDate
        ⟨[("mode", .str "range"), ("since", .str "2026-07-01T00:00:00Z")]⟩ =
      .ok (some (fromJuly true)) ∧
    runPaginatedIngestion acmeEnv (boardArgs (fromJuly true))
        (fun _ (_ : Unit) => .got ([postedFields "a" "2026-07-13T07:05:10",
          postedFields "b" "2026-07-13T07:05:10Z"], none)) () { session := .opened {} } =
      .error (.typeError, { session := .opened {} }) ∧
    modelValidate parseBoardDate
        ⟨[("mode", .str "range"), ("since", .str "2026-07-01T00:00:00")]⟩ =
      .ok (some (fromJuly false)) ∧
    selectScoringCandidates boardBatchEnv boardDb 1 = .error .typeError := by
  refine ⟨?_, ?_, ?_, ?_⟩ <;> rfl

end RecruFlow.Scheduler
