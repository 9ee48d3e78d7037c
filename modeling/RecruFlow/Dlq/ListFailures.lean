import RecruFlow.Db.Models
import RecruFlow.Lib.Paging

/-!
# Listing the dead letter rows

`GET /failures/{process}` orders the rows by `occurred_at` alone, which ties
where one transaction recorded several failures. How a query orders ties is a
parameter, and each page is a query of its own.
-/

namespace RecruFlow.Dlq

open Db Lib.Paging

/-- A row of one of the two tables. -/
inductive FailureRow where
  | ingestion (row : IngestionFailure)
  | scoring (row : ScoringFailure)
  deriving DecidableEq

def FailureRow.deadLetter : FailureRow → DeadLetter
  | .ingestion row => row.toDeadLetter
  | .scoring row => row.toDeadLetter

def statusValue : FailureStatus → String
  | .«open» => "open"
  | .resolved => "resolved"
  | .abandoned => "abandoned"

/-- `getattr(model_cls, column)`, of the columns that are filtered by. -/
def FailureRow.column : FailureRow → String → Option PyValue
  | .ingestion row, "source_id" => some (.int row.sourceId)
  | .scoring row, "offer_id" => some (.int row.offerId)
  | .scoring row, "profile_id" => some (.int row.profileId)
  | row, "failure_type" => some (.str row.deadLetter.failureType)
  | row, "status" => some (.str (statusValue row.deadLetter.status))
  | _, _ => none

/-- The rows that `list_failures` selects. -/
def selectFailures (filters : List (String × PyValue)) (rows : List FailureRow) :
    List FailureRow :=
  rows.filter fun row => filters.all fun filter =>
    filter.2 = .none || row.column filter.1 = some filter.2

/-- `arrange` is what the database makes of `ORDER BY occurred_at DESC`. -/
def listFailures (arrange : List FailureRow → List FailureRow) (rows : List FailureRow)
    (limit offset : Nat) (filters : List (String × PyValue)) : List FailureRow × Nat :=
  let selected := selectFailures filters rows
  (((arrange selected).drop offset).take limit, selected.length)

/-- The query parameters; the status `all` is `none`. -/
structure FailureQuery where
  failureType : Option String := none
  source : Option String := none
  offerId : Option Int := none
  profileId : Option Int := none
  status : Option FailureStatus := some .open

structure DeadLetterQueueSpec where
  table : Database → List FailureRow
  filterableParams : List String
  buildFilters : Database → FailureQuery → List (String × PyValue)

def noMatchingSourceId : Int := -1

def buildIngestionFilters (db : Database) (query : FailureQuery) : List (String × PyValue) :=
  match query.source with
  | none => []
  | some connector =>
      match db.sources.find? (·.connector = some connector) with
      | none => [("source_id", .int noMatchingSourceId)]
      | some source => [("source_id", .int source.id)]

def buildScoringFilters (_ : Database) (query : FailureQuery) : List (String × PyValue) :=
  (query.offerId.map fun n => ("offer_id", PyValue.int n)).toList ++
    (query.profileId.map fun n => ("profile_id", PyValue.int n)).toList

def ingestionSpec : DeadLetterQueueSpec where
  table db := db.ingestionFailures.map .ingestion
  filterableParams := ["source", "failure_type", "status"]
  buildFilters := buildIngestionFilters

def scoringSpec : DeadLetterQueueSpec where
  table db := db.scoringFailures.map .scoring
  filterableParams := ["offer_id", "profile_id", "failure_type", "status"]
  buildFilters := buildScoringFilters

def deadLetterRegistry : String → Option DeadLetterQueueSpec
  | "ingestion" => some ingestionSpec
  | "scoring" => some scoringSpec
  | _ => none

inductive ListFailuresError where
  /-- 404: `unknown failure process` -/
  | unknownProcess (process : String)
  /-- 400: `unsupported filter(s) for process` -/
  | unsupportedFilters (process : String) (names : List String)
  deriving DecidableEq

/-- The names of the process parameters that were provided, sorted. -/
def providedParams (query : FailureQuery) : List String :=
  (query.offerId.map fun _ => "offer_id").toList ++
    (query.profileId.map fun _ => "profile_id").toList ++
    (query.source.map fun _ => "source").toList

def listFailuresRoute (arrange : List FailureRow → List FailureRow) (db : Database)
    (process : String) (query : FailureQuery) (limit offset : Nat) :
    Except ListFailuresError (List FailureRow × Nat) :=
  match deadLetterRegistry process with
  | none => .error (.unknownProcess process)
  | some spec =>
      let unsupported := (providedParams query).filter (· ∉ spec.filterableParams)
      if unsupported.isEmpty then
        let filters := spec.buildFilters db query ++
          (query.failureType.map fun v => ("failure_type", PyValue.str v)).toList ++
          (query.status.map fun s => ("status", PyValue.str (statusValue s))).toList
        .ok (listFailures arrange (spec.table db) limit offset filters)
      else .error (.unsupportedFilters process unsupported)

/-- The later failure comes first. -/
def NewestFirst (a b : FailureRow) : Prop :=
  b.deadLetter.occurredAt ≤ a.deadLetter.occurredAt

instance : DecidableRel NewestFirst := fun a b =>
  inferInstanceAs (Decidable (b.deadLetter.occurredAt ≤ a.deadLetter.occurredAt))

instance : IsTrans FailureRow NewestFirst := ⟨fun _ _ _ hab hbc => le_trans hbc hab⟩

instance : Std.Total NewestFirst := ⟨fun _ b => le_total b.deadLetter.occurredAt _⟩

/-- What a request asks of the rows of a process. -/
def satisfiesParams (db : Database) (query : FailureQuery) : FailureRow → Bool
  | .ingestion row => query.source.all fun connector =>
      (db.sources.find? (·.connector = some connector)).any (row.sourceId = ·.id)
  | .scoring row => query.offerId.all ((row.offerId : Int) = ·) &&
      query.profileId.all ((row.profileId : Int) = ·)

def satisfies (db : Database) (query : FailureQuery) (row : FailureRow) : Bool :=
  satisfiesParams db query row && query.failureType.all (row.deadLetter.failureType = ·) &&
    query.status.all (row.deadLetter.status = ·)

def matching (db : Database) (spec : DeadLetterQueueSpec) (query : FailureQuery) :
    List FailureRow :=
  (spec.table db).filter (satisfies db query)

/-- The constraints of the two tables. -/
structure StoredFailures (db : Database) : Prop where
  ingestion_keys : (db.ingestionFailures.map (·.dedupKey)).Nodup
  scoring_keys : (db.scoringFailures.map (·.dedupKey)).Nodup
  source_id : ∀ row ∈ db.ingestionFailures, ∃ source ∈ db.sources, row.sourceId = source.id

variable {db : Database} {process : String} {spec : DeadLetterQueueSpec} {query : FailureQuery}
  {limit offset : Nat} {arrange : List FailureRow → List FailureRow}

theorem spec_cases (h : deadLetterRegistry process = some spec) :
    spec = ingestionSpec ∨ spec = scoringSpec := by
  unfold deadLetterRegistry at h
  split at h
  · exact .inl (Option.some.inj h).symm
  · exact .inr (Option.some.inj h).symm
  · exact absurd h (by simp)

theorem statusValue_injective : Function.Injective statusValue := by
  intro s s' h
  cases s <;> cases s' <;> first | rfl | exact absurd h (by decide)

/-- One filter of `list_failures`. -/
def passes (row : FailureRow) (filter : String × PyValue) : Bool :=
  filter.2 = .none || row.column filter.1 = some filter.2

theorem passes_failureType {row : FailureRow} {v : String} :
    passes row ("failure_type", .str v) = decide (row.deadLetter.failureType = v) := by
  cases row <;> simp [passes, FailureRow.column]

theorem passes_status {row : FailureRow} {s : FailureStatus} :
    passes row ("status", .str (statusValue s)) = decide (row.deadLetter.status = s) := by
  cases row <;> simp [passes, FailureRow.column, statusValue_injective.eq_iff]

/-- The filters that `list_failures_route` adds to those of the process. -/
theorem all_passes_append {row : FailureRow} {filters : List (String × PyValue)} :
    (filters ++ (query.failureType.map fun v => ("failure_type", PyValue.str v)).toList ++
      (query.status.map fun s => ("status", PyValue.str (statusValue s))).toList).all (passes row) =
    (filters.all (passes row) && query.failureType.all (row.deadLetter.failureType = ·) &&
      query.status.all (row.deadLetter.status = ·)) := by
  rw [List.all_append, List.all_append]
  cases query.failureType <;> cases query.status <;>
    simp [passes_failureType, passes_status]

theorem all_passes_ingestion (h : StoredFailures db) {row : IngestionFailure}
    (hrow : row ∈ db.ingestionFailures) :
    (buildIngestionFilters db query).all (passes (.ingestion row)) =
      satisfiesParams db query (.ingestion row) := by
  unfold buildIngestionFilters satisfiesParams
  cases query.source with
  | none => rfl
  | some connector =>
    obtain ⟨source, -, hsource⟩ := h.source_id row hrow
    simp only [Option.all_some]
    cases db.sources.find? (·.connector = some connector) with
    | none =>
      have hne : row.sourceId ≠ noMatchingSourceId := by
        rw [hsource, noMatchingSourceId]
        omega
      simp [passes, FailureRow.column, hne]
    | some source => simp [passes, FailureRow.column]

theorem all_passes_scoring {row : ScoringFailure} :
    (buildScoringFilters db query).all (passes (.scoring row)) =
      satisfiesParams db query (.scoring row) := by
  unfold buildScoringFilters satisfiesParams
  cases query.offerId <;> cases query.profileId <;>
    simp [passes, FailureRow.column]

/-- The filters of a request select the rows that satisfy it. -/
theorem selectFailures_eq (h : StoredFailures db) (hprocess : deadLetterRegistry process = some spec) :
    selectFailures (spec.buildFilters db query ++
      (query.failureType.map fun v => ("failure_type", PyValue.str v)).toList ++
      (query.status.map fun s => ("status", PyValue.str (statusValue s))).toList)
        (spec.table db) = matching db spec query := by
  refine List.filter_congr fun row hrow => ?_
  change List.all _ (passes row) = _
  rw [all_passes_append, satisfies]
  rcases spec_cases hprocess with rfl | rfl
  · obtain ⟨failure, hfailure, rfl⟩ := List.mem_map.mp hrow
    exact congrArg (· && _ && _) (all_passes_ingestion h hfailure)
  · obtain ⟨failure, -, rfl⟩ := List.mem_map.mp hrow
    exact congrArg (· && _ && _) all_passes_scoring

theorem matching_nodup (h : StoredFailures db) (hprocess : deadLetterRegistry process = some spec) :
    (matching db spec query).Nodup := by
  refine List.Nodup.filter _ ?_
  rcases spec_cases hprocess with rfl | rfl
  · refine (h.ingestion_keys.of_map).map fun row row' heq => ?_
    exact FailureRow.ingestion.inj heq
  · refine (h.scoring_keys.of_map).map fun row row' heq => ?_
    exact FailureRow.scoring.inj heq

theorem listFailuresRoute_eq (h : StoredFailures db)
    (hprocess : deadLetterRegistry process = some spec)
    (hparams : ∀ name ∈ providedParams query, name ∈ spec.filterableParams) :
    listFailuresRoute arrange db process query limit offset =
      .ok (((arrange (matching db spec query)).drop offset).take limit,
        (matching db spec query).length) := by
  have hnone : (providedParams query).filter (· ∉ spec.filterableParams) = [] := by
    refine List.filter_eq_nil_iff.mpr fun name hname => ?_
    simpa using hparams name hname
  simp only [listFailuresRoute, hprocess, hnone, List.isEmpty_nil, if_true, listFailures,
    selectFailures_eq h hprocess]

/-- However each query orders ties, the pages of a request hold every matching
row once and give their number. -/
def PagedOnce (db : Database) (process : String) (spec : DeadLetterQueueSpec)
    (query : FailureQuery) (limit : Nat) : Prop :=
  ∀ arrange : Nat → List FailureRow → List FailureRow,
    (∀ k rows, Permitted NewestFirst rows (arrange k rows)) →
    ∃ items : Nat → List FailureRow,
      (∀ k, listFailuresRoute (arrange k) db process query limit (k * limit) =
        .ok (items k, (matching db spec query).length)) ∧
      ∀ n, (matching db spec query).length ≤ n * limit →
        ((List.range n).flatMap items).Perm (matching db spec query)

/-- The pages hold every row once exactly if no page ends between rows that
failed at one instant. -/
theorem listFailures_pagedOnce_iff (h : StoredFailures db)
    (hprocess : deadLetterRegistry process = some spec)
    (hparams : ∀ name ∈ providedParams query, name ∈ spec.filterableParams)
    (hlimit : 0 < limit) :
    PagedOnce db process spec query limit ↔
      ¬ Splits NewestFirst limit (matching db spec query) := by
  have hnodup : (matching db spec query).Nodup := matching_nodup h hprocess
  constructor
  · intro hpaged
    have hn : (matching db spec query).length ≤ (matching db spec query).length * limit :=
      Nat.le_mul_of_pos_right _ hlimit
    refine (pages_perm_iff hlimit hnodup hn).mp fun outs houts => ?_
    have harrange : ∀ k rows, Permitted NewestFirst rows
        (if rows = matching db spec query then outs k else rows.insertionSort NewestFirst) := by
      intro k rows
      split
      · next heq => exact heq ▸ houts k
      · exact permitted_insertionSort
    obtain ⟨items, hitems, hperm⟩ := hpaged _ harrange
    have hpage : ∀ k, items k = page limit (outs k) k := by
      intro k
      have hroute := hitems k
      rw [listFailuresRoute_eq h hprocess hparams, if_pos rfl] at hroute
      exact (congrArg Prod.fst (Except.ok.inj hroute)).symm
    have hall := hperm _ hn
    rwa [show items = fun k => page limit (outs k) k from funext hpage] at hall
  · intro hno arrange harrange
    exact ⟨fun k => page limit (arrange k (matching db spec query)) k,
      fun k => listFailuresRoute_eq h hprocess hparams,
      fun n hn => pages_perm_of_not_splits hno (fun k => harrange k _) hn⟩

def pracujSource : Source := ⟨1, "Pracuj.pl", some "pracuj", ⟨[]⟩, none⟩

/-- A failure of a detail page, recorded at the given time. -/
def blockedDetail (key : String) (occurredAt : Int) : IngestionFailure where
  dedupKey := key
  failureType := "detail_fetch_blocked"
  errorMessage := "HTTP 403"
  rawPayload := none
  status := .open
  occurredAt := occurredAt
  resolvedAt := none
  sourceId := 1
  schedulerRunId := none
  page := none
  url := none
  blockedStatus := some 403
  retryCount := 0

/-- Two details that one run found blocked, and one of a run before it. -/
def blockedRun : Database :=
  { sources := [pracujSource]
    ingestionFailures := [blockedDetail "a" 60, blockedDetail "b" 60, blockedDetail "c" 0] }

theorem stored_blockedRun : StoredFailures blockedRun where
  ingestion_keys := by decide
  scoring_keys := by decide
  source_id row hrow := by
    refine ⟨pracujSource, List.mem_singleton_self _, ?_⟩
    simp only [blockedRun, List.mem_cons, List.not_mem_nil, or_false] at hrow
    rcases hrow with rfl | rfl | rfl <;> rfl

def blockedRows : List FailureRow :=
  blockedRun.ingestionFailures.map .ingestion

theorem matching_blockedRun : matching blockedRun ingestionSpec {} = blockedRows := by
  decide +kernel

theorem listFailures_pagedOnce_two : PagedOnce blockedRun "ingestion" ingestionSpec {} 2 := by
  refine (listFailures_pagedOnce_iff stored_blockedRun rfl (by decide) (by decide)).mpr fun h => ?_
  obtain ⟨t, ht, k, hahead, hupTo⟩ := h
  rw [matching_blockedRun] at ht hahead hupTo
  have hgroups : ∀ t ∈ blockedRows,
      ahead NewestFirst blockedRows t = 0 ∧ upTo NewestFirst blockedRows t = 2 ∨
      ahead NewestFirst blockedRows t = 2 ∧ upTo NewestFirst blockedRows t = 3 := by
    decide +kernel
  have hgroup := hgroups t ht
  omega

/-- The database orders the tied rows one way for the first page, and the other
way for the others. -/
def arrangedAnew (k : Nat) (rows : List FailureRow) : List FailureRow :=
  (if k = 0 then rows else rows.reverse).insertionSort NewestFirst

theorem permitted_arrangedAnew (k : Nat) (rows : List FailureRow) :
    Permitted NewestFirst rows (arrangedAnew k rows) := by
  refine ⟨(List.perm_insertionSort _ _).trans ?_, List.pairwise_insertionSort _ _⟩
  split
  · exact List.Perm.refl rows
  · exact List.reverse_perm rows

/-- With one row a page, the first row of the run is listed on the second page
too, and the other row of the run on none. -/
theorem listFailures_page_twice : ¬ PagedOnce blockedRun "ingestion" ingestionSpec {} 1 := by
  intro h
  obtain ⟨items, hitems, hperm⟩ := h arrangedAnew permitted_arrangedAnew
  have hfirst : listFailuresRoute (arrangedAnew 0) blockedRun "ingestion" {} 1 (0 * 1) =
      .ok ([.ingestion (blockedDetail "a" 60)], 3) := by
    decide +kernel
  have hsecond : listFailuresRoute (arrangedAnew 1) blockedRun "ingestion" {} 1 (1 * 1) =
      .ok ([.ingestion (blockedDetail "a" 60)], 3) := by
    decide +kernel
  rw [hitems 0] at hfirst
  rw [hitems 1] at hsecond
  have hpages := hperm 3 (by rw [matching_blockedRun]; decide)
  have hnodup := hpages.nodup_iff.mpr (@matching_nodup _ "ingestion" _ _ stored_blockedRun rfl)
  simp [List.range_succ, (Prod.mk.inj (Except.ok.inj hfirst)).1,
    (Prod.mk.inj (Except.ok.inj hsecond)).1] at hnodup

end RecruFlow.Dlq
