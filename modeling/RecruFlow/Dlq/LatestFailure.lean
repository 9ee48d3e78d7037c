import RecruFlow.Dlq.RetryBatch
import Mathlib.Data.List.Induction

/-!
# What a dead letter says of its latest failure

Each recorded failure overwrites the columns that its caller passes, and a retry writes
some of the others. A column that a caller leaves out still has what was last given for it.
-/

namespace RecruFlow.Dlq

open Connectors Db Ingestion

/-- What is done to the dead letters, one thing after another. -/
inductive DeadLetterEvent where
  | record (now : Int) (fields : IngestionFields)
  /-- What a retry writes of its row, a resolution among them. -/
  | write (t : Tracked)

def DeadLetterEvent.apply (db : Database) : DeadLetterEvent → Database
  | record now fields => recordIngestionFailure now fields db
  | write t => t.storeIn db

/-- The database after a sequence of events. -/
def afterEvents (start : Database) (events : List DeadLetterEvent) : Database :=
  events.foldl DeadLetterEvent.apply start

/-- The failures that were recorded under a key. -/
def failuresUnder (key : String) (events : List DeadLetterEvent) : List IngestionFields :=
  events.filterMap fun
    | .record _ fields => if fields.dedupKey = key then some fields else none
    | .write _ => none

/-- The row has what its failure was reported with. -/
structure Describes (fields : IngestionFields) (row : IngestionFailure) : Prop where
  failureType : row.failureType = fields.failureType.value
  errorMessage : row.errorMessage = fields.errorMessage
  page : row.page = fields.page.join
  schedulerRunId : row.schedulerRunId = fields.schedulerRunId.join
  url : row.url = fields.url.join
  blockedStatus : row.blockedStatus = fields.blockedStatus.join

/-- There is a row under the key, and it describes the failure. -/
def Described (key : String) (fields : IngestionFields) (db : Database) : Prop :=
  (∃ row ∈ db.ingestionFailures, row.dedupKey = key) ∧
    ∀ row ∈ db.ingestionFailures, row.dedupKey = key → Describes fields row

/-- What the last of the failures that gave something for a column gave for it. -/
def lastGiven {α : Type} (column : IngestionFields → Option (Option α))
    (failures : List IngestionFields) : Option α :=
  failures.foldl (fun given fields => (column fields).getD given) none

/-- Nothing was last given for the columns that a failure leaves out. -/
structure NothingStale (earlier : List IngestionFields) (fields : IngestionFields) : Prop where
  page : fields.page = none → lastGiven (·.page) earlier = none
  schedulerRunId : fields.schedulerRunId = none → lastGiven (·.schedulerRunId) earlier = none
  url : fields.url = none → lastGiven (·.url) earlier = none
  blockedStatus : fields.blockedStatus = none → lastGiven (·.blockedStatus) earlier = none

section Columns

variable {α : Type} {column : IngestionFields → Option (Option α)}
  {failures : List IngestionFields} {fields : IngestionFields}

theorem lastGiven_concat : lastGiven column (failures ++ [fields]) =
    (column fields).getD (lastGiven column failures) := by
  rw [lastGiven, List.foldl_append]
  rfl

/-- What is given is what is last given, unless it is left out and something was given before. -/
theorem getD_eq_join_iff {given : Option (Option α)} {before : Option α} :
    given.getD before = given.join ↔ (given = none → before = none) := by
  cases given with
  | none => exact ⟨fun h _ => h, fun h => h rfl⟩
  | some a => exact iff_of_true rfl nofun

end Columns

/-- The rows under the key carry what was last given for them. -/
structure Carries (failures : List IngestionFields) (row : IngestionFailure) : Prop where
  page : row.page = lastGiven (·.page) failures
  schedulerRunId : row.schedulerRunId = lastGiven (·.schedulerRunId) failures
  url : row.url = lastGiven (·.url) failures
  blockedStatus : row.blockedStatus = lastGiven (·.blockedStatus) failures

/-- All of them do, and there is one once a failure was recorded. -/
structure Carried (key : String) (failures : List IngestionFields) (db : Database) : Prop where
  recorded : failures ≠ [] → ∃ row ∈ db.ingestionFailures, row.dedupKey = key
  carries : ∀ row ∈ db.ingestionFailures, row.dedupKey = key → Carries failures row

section Events

variable {key : String} {failures earlier : List IngestionFields} {fields : IngestionFields}
  {now : Int} {t : Tracked} {row : IngestionFailure} {db start : Database}
  {event : DeadLetterEvent} {events before : List DeadLetterEvent}

theorem carries_update (h : Carries failures row) :
    Carries (failures ++ [fields]) (fields.update now row) where
  page := by rw [lastGiven_concat, ← h.page]; rfl
  schedulerRunId := by rw [lastGiven_concat, ← h.schedulerRunId]; rfl
  url := by rw [lastGiven_concat, ← h.url]; rfl
  blockedStatus := by rw [lastGiven_concat, ← h.blockedStatus]; rfl

theorem carries_new : Carries [fields] (fields.new now) where
  page := by cases h : fields.page <;> simp [IngestionFields.new, lastGiven, h]
  schedulerRunId := by cases h : fields.schedulerRunId <;> simp [IngestionFields.new, lastGiven, h]
  url := by cases h : fields.url <;> simp [IngestionFields.new, lastGiven, h]
  blockedStatus := by cases h : fields.blockedStatus <;> simp [IngestionFields.new, lastGiven, h]

theorem record_carried (hkey : fields.dedupKey = key) (h : Carried key failures db) :
    Carried key (failures ++ [fields]) (recordIngestionFailure now fields db) where
  recorded _ := by
    obtain ⟨row, hrow, hrowKey, _⟩ := recordIngestionFailure_open now fields db
    exact ⟨row, hrow, hrowKey.trans hkey⟩
  carries row hrow hrowKey := by
    have hsame : row.dedupKey = (fields.new now).dedupKey := hrowKey.trans hkey.symm
    rcases upsert_mem_key hrow hsame with ⟨old, hold, holdKey, rfl⟩ | ⟨hnone, rfl⟩
    · exact carries_update (h.carries old hold (holdKey.trans hkey))
    · have hfirst : failures = [] := by
        by_contra hnonempty
        obtain ⟨old, hold, holdKey⟩ := h.recorded hnonempty
        exact hnone old hold (holdKey.trans hkey.symm)
      rw [hfirst]
      exact carries_new

theorem record_other_carried (hkey : fields.dedupKey ≠ key) (h : Carried key failures db) :
    Carried key failures (recordIngestionFailure now fields db) where
  recorded hnonempty := by
    obtain ⟨row, hrow, hrowKey⟩ := h.recorded hnonempty
    exact ⟨row, upsert_other hrow (hrowKey.trans_ne hkey.symm), hrowKey⟩
  carries row hrow hrowKey := by
    rcases upsert_mem_cases hrow with hold | rfl | ⟨old, _, holdKey, rfl⟩
    · exact h.carries row hold hrowKey
    · exact absurd hrowKey hkey
    · exact absurd (holdKey.symm.trans hrowKey) hkey

/-- A retry writes none of the columns that a failure describes, but for its message. -/
theorem write_carried (h : Carried key failures db) : Carried key failures (t.storeIn db) where
  recorded hnonempty := by
    obtain ⟨row, hrow, hrowKey⟩ := h.recorded hnonempty
    refine ⟨_, List.mem_map_of_mem hrow, ?_⟩
    split
    · exact hrowKey
    · exact hrowKey
  carries row hrow hrowKey := by
    obtain ⟨old, hold, rfl⟩ := List.mem_map.mp hrow
    split at hrowKey
    · next hsame =>
      rw [if_pos hsame]
      have holdCarries := h.carries old hold hrowKey
      exact ⟨holdCarries.page, holdCarries.schedulerRunId, holdCarries.url,
        holdCarries.blockedStatus⟩
    · next hsame =>
      rw [if_neg hsame]
      exact h.carries old hold hrowKey

theorem failuresUnder_append : failuresUnder key (before ++ events) =
    failuresUnder key before ++ failuresUnder key events :=
  List.filterMap_append

theorem failuresUnder_write : failuresUnder key [.write t] = [] := rfl

theorem failuresUnder_record :
    failuresUnder key [.record now fields] = if fields.dedupKey = key then [fields] else [] := by
  by_cases hkey : fields.dedupKey = key <;> simp [failuresUnder, hkey]

theorem event_carried (h : Carried key failures db) :
    Carried key (failures ++ failuresUnder key [event]) (event.apply db) := by
  cases event with
  | write t =>
      rw [failuresUnder_write, List.append_nil]
      exact write_carried h
  | record now fields =>
      rw [failuresUnder_record]
      split
      · next hkey => exact record_carried hkey h
      · next hkey =>
        rw [List.append_nil]
        exact record_other_carried hkey h

/-- After every run, the rows under a key carry what was last given under it. -/
theorem afterEvents_carried (hstart : ∀ row ∈ start.ingestionFailures, row.dedupKey ≠ key) :
    Carried key (failuresUnder key events) (afterEvents start events) := by
  induction events using List.reverseRecOn with
  | nil => exact ⟨fun h => absurd rfl h, fun row hrow hkey => absurd hkey (hstart row hrow)⟩
  | append_singleton events event ih =>
      rw [failuresUnder_append, afterEvents, List.foldl_append]
      exact event_carried ih

/-- After every failure under the key, its row describes it. -/
def DescribesLatest (key : String) (start : Database) (events : List DeadLetterEvent) : Prop :=
  ∀ before now fields, before ++ [.record now fields] <+: events → fields.dedupKey = key →
    Described key fields (afterEvents start (before ++ [.record now fields]))

/-- No failure under the key leaves out a column for which something was last given. -/
def LeavesNothingStale (key : String) (events : List DeadLetterEvent) : Prop :=
  ∀ before now fields, before ++ [.record now fields] <+: events → fields.dedupKey = key →
    NothingStale (failuresUnder key before) fields

/-- Whatever a tick picks was blocked when it failed last. -/
def PicksBlocked (key : String) (start : Database) (events : List DeadLetterEvent) : Prop :=
  ∀ before cutoff, before <+: events →
    ∀ row ∈ eligibleRows cutoff (afterEvents start before), row.dedupKey = key →
      ∃ fields, (failuresUnder key before).getLast? = some fields ∧
        fields.blockedStatus.join.isSome = true

theorem afterEvents_record : afterEvents start (before ++ [.record now fields]) =
    recordIngestionFailure now fields (afterEvents start before) := by
  rw [afterEvents, List.foldl_append]
  rfl

theorem recorded_overwritten
    (hrow : row ∈ (recordIngestionFailure now fields db).ingestionFailures)
    (hkey : row.dedupKey = fields.dedupKey) :
    row.failureType = fields.failureType.value ∧ row.errorMessage = fields.errorMessage := by
  have hsame : row.dedupKey = (fields.new now).dedupKey := hkey
  rcases upsert_mem_key hrow hsame with ⟨old, _, _, rfl⟩ | ⟨_, rfl⟩
  · exact ⟨rfl, rfl⟩
  · exact ⟨rfl, rfl⟩

/-- A row that was just recorded describes its failure exactly when nothing is stale. -/
theorem describes_iff (hkey : fields.dedupKey = key) (h : Carried key earlier db)
    (hrow : row ∈ (recordIngestionFailure now fields db).ingestionFailures)
    (hrowKey : row.dedupKey = key) : Describes fields row ↔ NothingStale earlier fields := by
  have hcarries := (@record_carried key earlier fields now db hkey h).carries row hrow hrowKey
  obtain ⟨hpage, hschedulerRunId, hurl, hblockedStatus⟩ := hcarries
  rw [lastGiven_concat] at hpage hschedulerRunId hurl hblockedStatus
  constructor
  · rintro ⟨_, _, hpage', hschedulerRunId', hurl', hblockedStatus'⟩
    exact ⟨getD_eq_join_iff.mp (hpage.symm.trans hpage'),
      getD_eq_join_iff.mp (hschedulerRunId.symm.trans hschedulerRunId'),
      getD_eq_join_iff.mp (hurl.symm.trans hurl'),
      getD_eq_join_iff.mp (hblockedStatus.symm.trans hblockedStatus')⟩
  · rintro ⟨hpage', hschedulerRunId', hurl', hblockedStatus'⟩
    obtain ⟨htype, hmessage⟩ := recorded_overwritten hrow (hrowKey.trans hkey.symm)
    exact ⟨htype, hmessage, hpage.trans (getD_eq_join_iff.mpr hpage'),
      hschedulerRunId.trans (getD_eq_join_iff.mpr hschedulerRunId'),
      hurl.trans (getD_eq_join_iff.mpr hurl'),
      hblockedStatus.trans (getD_eq_join_iff.mpr hblockedStatus')⟩

theorem described_iff (hkey : fields.dedupKey = key) (h : Carried key earlier db) :
    Described key fields (recordIngestionFailure now fields db) ↔ NothingStale earlier fields := by
  have hafter := @record_carried key earlier fields now db hkey h
  obtain ⟨row, hrow, hrowKey⟩ := hafter.recorded (by simp)
  constructor
  · rintro ⟨_, hdescribes⟩
    exact (describes_iff hkey h hrow hrowKey).mp (hdescribes row hrow hrowKey)
  · exact fun hstale => ⟨⟨row, hrow, hrowKey⟩, fun row hrow hrowKey =>
      (describes_iff hkey h hrow hrowKey).mpr hstale⟩

/-- As long as nothing is stale, what was last given for a block is that of the last failure. -/
theorem lastGiven_blocked (hquiet : LeavesNothingStale key events) (hbefore : before <+: events)
    (hblocked : (lastGiven (·.blockedStatus) (failuresUnder key before)).isSome = true) :
    ∃ fields, (failuresUnder key before).getLast? = some fields ∧
      fields.blockedStatus.join.isSome = true := by
  induction before using List.reverseRecOn with
  | nil => cases hblocked
  | append_singleton before event ih =>
      have hshorter : before <+: events := (List.prefix_append before [event]).trans hbefore
      rw [failuresUnder_append] at hblocked ⊢
      cases event with
      | write t =>
          rw [failuresUnder_write, List.append_nil] at hblocked ⊢
          exact ih hshorter hblocked
      | record now fields =>
          rw [failuresUnder_record] at hblocked ⊢
          split at hblocked
          · next hkey =>
            rw [if_pos hkey, List.getLast?_concat]
            rw [lastGiven_concat] at hblocked
            have hstale := (hquiet before now fields hbefore hkey).blockedStatus
            rw [getD_eq_join_iff.mpr hstale] at hblocked
            exact ⟨fields, rfl, hblocked⟩
          · next hkey =>
            rw [if_neg hkey, List.append_nil]
            rw [List.append_nil] at hblocked
            exact ih hshorter hblocked

theorem picksBlocked_of_nothingStale
    (hstart : ∀ row ∈ start.ingestionFailures, row.dedupKey ≠ key)
    (hquiet : LeavesNothingStale key events) : PicksBlocked key start events := by
  intro before cutoff hbefore row hrow hkey
  obtain ⟨hmem, hpicked⟩ := List.mem_filter.mp hrow
  simp only [Bool.and_eq_true] at hpicked
  have hcarries := (@afterEvents_carried key start before hstart).carries row hmem hkey
  apply lastGiven_blocked hquiet hbefore
  rw [← hcarries.blockedStatus]
  exact hpicked.1.2

/-- In every run the rows describe their latest failures exactly when no failure leaves out
what an earlier one gave; then a tick picks only what was blocked last. -/
theorem describesLatest_iff (hstart : ∀ row ∈ start.ingestionFailures, row.dedupKey ≠ key) :
    (DescribesLatest key start events ↔ LeavesNothingStale key events) ∧
      (LeavesNothingStale key events → PicksBlocked key start events) := by
  refine ⟨?_, picksBlocked_of_nothingStale hstart⟩
  refine forall₃_congr fun before now fields => forall₂_congr fun _ hkey => ?_
  rw [afterEvents_record]
  exact described_iff hkey (afterEvents_carried hstart)

end Events

/-! ## A blocked page, and a later run that fails on something else -/

def remotiveArgs : RunnerArgs where
  sourceId := 1
  sourceName := "remotive"
  mapOffer := fun _ raw => .ok raw
  parseDatetime := fun _ => none
  now := fun _ => ⟨0, true⟩
  maxPages := 5
  alreadySeenStopThreshold := 20
  forceRefresh := false
  since := none
  limit := none

/-- The second page of the listing is blocked. -/
def blockedPageFields : IngestionFields := pageFailureFields remotiveArgs 1 (some 403)

/-- The first page of a manual run cannot be fetched, for another reason than a block. -/
def failedRunFields : IngestionFields :=
  runFetchFields manualCaller
    { id := 1
      name := "remotive"
      connector := some "remotive"
      configJson := ⟨[]⟩
      lastFetchedAt := none }
    (failedResult "failed to fetch remotive offers" none)

def blockedThenFailed : List DeadLetterEvent :=
  [
    .record 0 blockedPageFields,
    .write ((Tracked.ofStored (blockedPageFields.new 0)).markResolved 5),
    .record 9 failedRunFields
  ]

/-- The row of the failed run still has the page and the block, and a tick picks it. -/
theorem failed_run_still_blocked :
    ¬ DescribesLatest "source:1" {} blockedThenFailed ∧
      ¬ PicksBlocked "source:1" {} blockedThenFailed := by
  have hafter : ∃ row, (afterEvents {} blockedThenFailed).ingestionFailures = [row] ∧
      row.dedupKey = "source:1" ∧ row.blockedStatus = some 403 ∧
        eligibleRows 9 (afterEvents {} blockedThenFailed) = [row] :=
    ⟨_, rfl, rfl, rfl, rfl⟩
  obtain ⟨row, hrows, hkey, hblocked, hpicked⟩ := hafter
  constructor
  · intro h
    have hdescribed : Described "source:1" failedRunFields (afterEvents {} blockedThenFailed) :=
      h [_, _] 9 failedRunFields List.prefix_rfl rfl
    have hdescribes := hdescribed.2 row (by rw [hrows]; exact List.mem_singleton_self row) hkey
    rw [hdescribes.blockedStatus] at hblocked
    cases hblocked
  · intro h
    obtain ⟨fields, hlast, hfields⟩ := h blockedThenFailed 9 List.prefix_rfl row
      (by rw [hpicked]; exact List.mem_singleton_self row) hkey
    have hfailed : some failedRunFields = some fields := hlast
    rw [← Option.some.inj hfailed] at hfields
    cases hfields

theorem describesLatest_failed_run :
    DescribesLatest "source:1" {} [.record 9 failedRunFields] := by
  apply (describesLatest_iff (fun _ hrow => absurd hrow List.not_mem_nil)).1.mpr
  intro before now fields hbefore _
  have hlength := hbefore.length_le
  rw [List.length_append, List.length_singleton, List.length_singleton] at hlength
  obtain rfl : before = [] := List.length_eq_zero_iff.mp (by omega)
  exact ⟨fun _ => rfl, fun _ => rfl, fun _ => rfl, fun _ => rfl⟩

end RecruFlow.Dlq
