import RecruFlow.Db.Session
import Mathlib.Data.List.Nodup

/-!
# Dead letter rows

`record_failure` keeps one row for each `dedup_key`: the first failure inserts
it, a later one overwrites the columns that its caller passes and reopens it.
The first part is about the rows, the last about the statement in a session.
-/

namespace RecruFlow.Dlq

open Db Lib.Transaction

/-- `INSERT ... ON CONFLICT (dedup_key) DO UPDATE`: `update` sets the columns of
the row that is there, `new` is the row to insert when there is none. -/
def upsert {Row : Type} (key : Row → String) (new : Row) (update : Row → Row)
    (rows : List Row) : List Row :=
  if rows.any (key · = key new) then
    rows.map fun row => if key row = key new then update row else row
  else rows ++ [new]

section Upsert

variable {Row : Type} {key : Row → String} {new : Row} {update : Row → Row} {rows : List Row}

/-- The row of the failure is there afterwards: the new one, or an updated one. -/
theorem upsert_mem : ∃ row ∈ upsert key new update rows,
    row = new ∨ ∃ old ∈ rows, key old = key new ∧ row = update old := by
  unfold upsert
  split
  · next hany =>
    obtain ⟨old, hold, hkey⟩ := List.any_eq_true.mp hany
    have hkey : key old = key new := of_decide_eq_true hkey
    refine ⟨update old, List.mem_map.mpr ⟨old, hold, by rw [if_pos hkey]⟩, ?_⟩
    exact .inr ⟨old, hold, hkey, rfl⟩
  · exact ⟨new, List.mem_append_right rows (List.mem_singleton_self new), .inl rfl⟩

/-- A row that is there afterwards was there, is the new one, or an updated one. -/
theorem upsert_mem_cases {row : Row} (h : row ∈ upsert key new update rows) :
    row ∈ rows ∨ row = new ∨ ∃ old ∈ rows, key old = key new ∧ row = update old := by
  unfold upsert at h
  split at h
  · obtain ⟨old, hold, hrow⟩ := List.mem_map.mp h
    split at hrow
    · next hkey => exact .inr (.inr ⟨old, hold, hkey, hrow.symm⟩)
    · exact .inl (hrow ▸ hold)
  · rcases List.mem_append.mp h with hold | hnew
    · exact .inl hold
    · exact .inr (.inl (List.mem_singleton.mp hnew))

/-- The keys stay, and the key of the failure is among them. -/
theorem upsert_keys (hupdate : ∀ row, key (update row) = key row) :
    (upsert key new update rows).map key =
      if key new ∈ rows.map key then rows.map key else rows.map key ++ [key new] := by
  have hmem : rows.any (key · = key new) = true ↔ key new ∈ rows.map key := by
    simp [List.any_eq_true, List.mem_map]
  unfold upsert
  by_cases hany : rows.any (key · = key new) = true
  · rw [if_pos hany, if_pos (hmem.mp hany), List.map_map]
    refine List.map_congr_left fun row _ => ?_
    simp only [Function.comp_apply]
    split
    · exact hupdate row
    · rfl
  · rw [if_neg hany, if_neg (mt hmem.mpr hany), List.map_append, List.map_singleton]

theorem upsert_nodup (hupdate : ∀ row, key (update row) = key row) (h : (rows.map key).Nodup) :
    ((upsert key new update rows).map key).Nodup := by
  rw [upsert_keys hupdate]
  split
  · exact h
  · next hnew => exact List.nodup_append.mpr ⟨h, by simp, fun k hk k' hk' heq =>
      hnew (List.mem_singleton.mp hk' ▸ heq ▸ hk)⟩

/-- The rows of the failure's key are one row, and it has what the failure gives it. -/
theorem upsert_countP {p : Row → Bool} (hupdate : ∀ row, key (update row) = key row)
    (h : (rows.map key).Nodup) (hnew : p new = true)
    (hupdated : ∀ row, key row = key new → p (update row) = true) :
    (upsert key new update rows).countP (fun row => key row = key new && p row) = 1 := by
  have hmem : key new ∈ (upsert key new update rows).map key := by
    rw [upsert_keys hupdate]
    split
    · assumption
    · exact List.mem_append_right _ (List.mem_singleton_self _)
  have hp : ∀ row ∈ upsert key new update rows, key row = key new → p row = true := by
    intro row hrow hkey
    unfold upsert at hrow
    split at hrow
    · obtain ⟨old, hold, rfl⟩ := List.mem_map.mp hrow
      by_cases hsame : key old = key new
      · rw [if_pos hsame]
        exact hupdated old hsame
      · rw [if_neg hsame] at hkey
        exact absurd hkey hsame
    · next hnone =>
      rcases List.mem_append.mp hrow with hold | hlast
      · exact absurd (List.any_eq_true.mpr ⟨row, hold, decide_eq_true hkey⟩) hnone
      · rw [List.mem_singleton.mp hlast]
        exact hnew
  calc (upsert key new update rows).countP (fun row => key row = key new && p row)
      = (upsert key new update rows).countP (fun row => key row == key new) := by
        refine List.countP_congr fun row hrow => ?_
        simp only [Bool.and_eq_true, decide_eq_true_eq, beq_iff_eq, and_iff_left_iff_imp]
        exact hp row hrow
    _ = ((upsert key new update rows).map key).count (key new) := by
        rw [List.count, List.countP_map]
        rfl
    _ = 1 := List.count_eq_one_of_mem (upsert_nodup hupdate h) hmem

/-- A row under the key of the failure is an updated one, or the only one and new. -/
theorem upsert_mem_key {row : Row}
    (h : row ∈ upsert key new update rows) (hkey : key row = key new) :
    (∃ old ∈ rows, key old = key new ∧ row = update old) ∨
      (∀ old ∈ rows, key old ≠ key new) ∧ row = new := by
  unfold upsert at h
  split at h
  · obtain ⟨old, hold, rfl⟩ := List.mem_map.mp h
    split at hkey
    · next hsame => exact .inl ⟨old, hold, hsame, if_pos hsame⟩
    · next hsame => exact absurd hkey hsame
  · next hnone =>
    have hnew : ∀ old ∈ rows, key old ≠ key new := fun old hold hsame =>
      hnone (List.any_eq_true.mpr ⟨old, hold, decide_eq_true hsame⟩)
    rcases List.mem_append.mp h with hold | hlast
    · exact absurd hkey (hnew row hold)
    · exact .inr ⟨hnew, List.mem_singleton.mp hlast⟩

/-- The rows under other keys stay. -/
theorem upsert_other {row : Row} (h : row ∈ rows) (hkey : key row ≠ key new) :
    row ∈ upsert key new update rows := by
  unfold upsert
  split
  · exact List.mem_map.mpr ⟨row, h, by rw [if_neg hkey]⟩
  · exact List.mem_append_left _ h

/-- The row under a key, after the rows under a key were changed. -/
theorem find?_map_update {Key : Type} [DecidableEq Key] {key : Row → Key} {k k' : Key}
    {f : Row → Row} (hf : ∀ row, key (f row) = key row) :
    (rows.map fun row => if key row = k then f row else row).find? (key · = k') =
      if k' = k then (rows.find? (key · = k')).map f else rows.find? (key · = k') := by
  induction rows with
  | nil => simp
  | cons row rows ih =>
      have hkey : key (if key row = k then f row else row) = key row := by
        split
        · exact hf row
        · rfl
      rw [List.map_cons, List.find?_cons, List.find?_cons, ih, hkey]
      by_cases hrow : key row = k'
      · simp only [hrow, decide_true]
        split <;> rfl
      · simp only [hrow, decide_false]

/-- The row under a key, after a failure was recorded. -/
theorem upsert_find? {k : String} (hupdate : ∀ row, key (update row) = key row) :
    (upsert key new update rows).find? (key · = k) =
      if key new = k then some (((rows.find? (key · = k)).map update).getD new)
      else rows.find? (key · = k) := by
  unfold upsert
  by_cases hany : rows.any (key · = key new) = true
  · rw [if_pos hany, find?_map_update hupdate]
    by_cases hk : key new = k
    · subst hk
      obtain ⟨row, hrow⟩ : ∃ row, rows.find? (key · = key new) = some row :=
        Option.isSome_iff_exists.mp (List.find?_isSome.mpr (List.any_eq_true.mp hany))
      simp only [if_true, hrow, Option.map_some, Option.getD_some]
    · rw [if_neg (Ne.symm hk), if_neg hk]
  · rw [if_neg hany, List.find?_append]
    by_cases hk : key new = k
    · subst hk
      have hnone : rows.find? (key · = key new) = none := by simpa using hany
      simp [hnone]
    · simp [hk]

end Upsert

/-- The keyword arguments of a recorded ingestion failure. The outer `none` is
an argument that the caller leaves out. -/
structure IngestionFields where
  dedupKey : String
  failureType : FailureType
  sourceId : Int
  errorMessage : String
  rawPayload : Option (Option Dict) := none
  schedulerRunId : Option (Option Nat) := none
  page : Option (Option Nat) := none
  url : Option (Option String) := none
  blockedStatus : Option (Option Nat) := none

namespace IngestionFields

/-- The inserted row; `now` is the start of the transaction. -/
def new (fields : IngestionFields) (now : Int) : IngestionFailure where
  dedupKey := fields.dedupKey
  failureType := fields.failureType.value
  errorMessage := fields.errorMessage
  rawPayload := fields.rawPayload.join
  status := .open
  occurredAt := now
  resolvedAt := none
  sourceId := fields.sourceId
  schedulerRunId := fields.schedulerRunId.join
  page := fields.page.join
  url := fields.url.join
  blockedStatus := fields.blockedStatus.join
  retryCount := 0

/-- The columns that a repeated failure overwrites. -/
def update (fields : IngestionFields) (now : Int) (row : IngestionFailure) : IngestionFailure :=
  { row with
    failureType := fields.failureType.value
    errorMessage := fields.errorMessage
    rawPayload := fields.rawPayload.getD row.rawPayload
    status := .open
    occurredAt := now
    resolvedAt := none
    sourceId := fields.sourceId
    schedulerRunId := fields.schedulerRunId.getD row.schedulerRunId
    page := fields.page.getD row.page
    url := fields.url.getD row.url
    blockedStatus := fields.blockedStatus.getD row.blockedStatus }

end IngestionFields

def recordIngestionFailure (now : Int) (fields : IngestionFields) (db : Database) : Database :=
  { db with
    ingestionFailures :=
      upsert (·.dedupKey) (fields.new now) (fields.update now) db.ingestionFailures }

structure ScoringFields where
  dedupKey : String
  failureType : FailureType
  offerId : Nat
  profileId : Nat
  errorMessage : String

namespace ScoringFields

def new (fields : ScoringFields) (now : Int) : ScoringFailure where
  dedupKey := fields.dedupKey
  failureType := fields.failureType.value
  errorMessage := fields.errorMessage
  rawPayload := none
  status := .open
  occurredAt := now
  resolvedAt := none
  offerId := fields.offerId
  profileId := fields.profileId

def update (fields : ScoringFields) (now : Int) (row : ScoringFailure) : ScoringFailure :=
  { row with
    failureType := fields.failureType.value
    errorMessage := fields.errorMessage
    status := .open
    occurredAt := now
    resolvedAt := none
    offerId := fields.offerId
    profileId := fields.profileId }

end ScoringFields

def recordScoringFailure (now : Int) (fields : ScoringFields) (db : Database) : Database :=
  { db with
    scoringFailures := upsert (·.dedupKey) (fields.new now) (fields.update now) db.scoringFailures }

/-- A recorded failure leaves an open row of this transaction under its key. -/
theorem recordIngestionFailure_open (now : Int) (fields : IngestionFields) (db : Database) :
    ∃ row ∈ (recordIngestionFailure now fields db).ingestionFailures,
      row.dedupKey = fields.dedupKey ∧ row.status = .open ∧ row.occurredAt = now := by
  obtain ⟨row, hrow, hcase⟩ := @upsert_mem IngestionFailure (·.dedupKey) (fields.new now)
    (fields.update now) db.ingestionFailures
  refine ⟨row, hrow, ?_⟩
  rcases hcase with rfl | ⟨old, _, hkey, rfl⟩
  · exact ⟨rfl, rfl, rfl⟩
  · exact ⟨hkey, rfl, rfl⟩

/-- What a `String(255)` column stores: spaces past its end are cut off, and
anything else there is an error. -/
def storedKey (dedupKey : String) : Option String :=
  if dedupKey.length ≤ 255 then some dedupKey
  else if (dedupKey.toList.drop 255).all (· = ' ') then
    some (String.ofList (dedupKey.toList.take 255))
  else none

/-- The statement of `record_failure`. -/
def insertFailure {Fields Row : Type} (verdict : Row → Database → Verdict)
    (key : Fields → String) (setKey : String → Fields → Fields) (new : Fields → Row)
    (record : Fields → Database → Database) (fields : Fields) (db : Database) :
    Attempt Database :=
  match verdict (new fields) db, storedKey (key fields) with
  | .unsent, _ => .unsent
  | .taken, some dedupKey => .done (record (setKey dedupKey fields) db)
  | _, _ => .rejected

section Session

variable (postgres : Postgres) (now : Int)

def insertIngestionFailure : IngestionFields → Database → Attempt Database :=
  insertFailure postgres.ingestionFailure (·.dedupKey) (fun key f => { f with dedupKey := key })
    (·.new now) (recordIngestionFailure now)

def insertScoringFailure : ScoringFields → Database → Attempt Database :=
  insertFailure postgres.scoringFailure (·.dedupKey) (fun key f => { f with dedupKey := key })
    (·.new now) (recordScoringFailure now)

/-- `record_failure` of an ingestion failure: its `except Exception` only logs. -/
def recordFailure (fields : IngestionFields) (s : Session) : Session :=
  (attempt (insertIngestionFailure postgres now fields) s).2

end Session

section Statement

variable {postgres : Postgres} {now : Int} {fields : IngestionFields} {db : Database}

theorem storedKey_of_length_le {dedupKey : String} (h : dedupKey.length ≤ 255) :
    storedKey dedupKey = some dedupKey :=
  if_pos h

/-- A key that is too long is no better for ending in a colon. -/
theorem storedKey_append_colon {s : String} (h : 255 ≤ s.length) : storedKey (s ++ ":") = none := by
  have hlength : (s ++ ":").length = s.length + 1 := String.length_append s ":"
  have hdrop : (s ++ ":").toList.drop 255 = s.toList.drop 255 ++ [':'] := by
    rw [String.toList_append]
    exact List.drop_append_of_le_length h
  have hspaces : ¬ ((s ++ ":").toList.drop 255).all (· = ' ') = true := by
    intro hall
    rw [hdrop, List.all_append] at hall
    simp at hall
  rw [storedKey, if_neg (by omega), if_neg hspaces]

/-- The column stores a key but for spaces at its end. -/
theorem storedKey_eq_append {dedupKey key : String} (h : storedKey dedupKey = some key) :
    ∃ pad, dedupKey.toList = key.toList ++ pad ∧ ∀ c ∈ pad, c = ' ' := by
  unfold storedKey at h
  split at h
  · obtain rfl := Option.some.inj h
    exact ⟨[], (List.append_nil _).symm, fun _ hc => nomatch hc⟩
  · split at h
    · next hspaces =>
      obtain rfl := Option.some.inj h
      refine ⟨dedupKey.toList.drop 255, ?_, fun c hc => ?_⟩
      · rw [String.toList_ofList]
        exact (List.take_append_drop 255 _).symm
      · exact of_decide_eq_true (List.all_eq_true.mp hspaces c hc)
    · cases h

theorem storedKey_length_le {dedupKey key : String} (h : storedKey dedupKey = some key) :
    key.length ≤ 255 := by
  unfold storedKey at h
  split at h
  · next hlength =>
    rw [← Option.some.inj h]
    exact hlength
  · split at h
    · rw [← Option.some.inj h, String.length_ofList, List.length_take]
      exact Nat.min_le_left _ _
    · cases h

theorem storedKey_of_no_space {dedupKey key : String} (hspace : ∀ c ∈ dedupKey.toList, c ≠ ' ')
    (h : storedKey dedupKey = some key) : key = dedupKey := by
  obtain ⟨pad, hpad, hspaces⟩ := storedKey_eq_append h
  cases pad with
  | nil => exact String.toList_inj.mp (by rw [hpad, List.append_nil])
  | cons c pad =>
      have hmem : c ∈ dedupKey.toList := by
        rw [hpad]
        exact List.mem_append_right _ List.mem_cons_self
      exact absurd (hspaces c List.mem_cons_self) (hspace c hmem)

/-- A statement that went through recorded the failure, under its stored key. -/
theorem insertIngestionFailure_done {db' : Database}
    (h : insertIngestionFailure postgres now fields db = .done db') :
    ∃ key, storedKey fields.dedupKey = some key ∧
      db' = recordIngestionFailure now { fields with dedupKey := key } db := by
  unfold insertIngestionFailure insertFailure at h
  split at h
  · cases h
  · next key _ hkey => exact ⟨key, hkey, (Attempt.done.inj h).symm⟩
  · cases h

/-- A row that is taken is stored, if its key fits. -/
theorem insertIngestionFailure_taken (htaken : postgres.ingestionFailure (fields.new now) db = .taken)
    (hkey : fields.dedupKey.length ≤ 255) :
    insertIngestionFailure postgres now fields db ≠ .rejected := by
  simp only [insertIngestionFailure, insertFailure, htaken, storedKey_of_length_le hkey]
  exact nofun

/-- A key that the column cannot hold makes the database reject the statement. -/
theorem insertIngestionFailure_of_long_key (hkey : storedKey fields.dedupKey = none)
    (hsent : postgres.ingestionFailure (fields.new now) db ≠ .unsent) :
    insertIngestionFailure postgres now fields db = .rejected := by
  simp only [insertIngestionFailure, insertFailure, hkey]
  cases hverdict : postgres.ingestionFailure (fields.new now) db with
  | unsent => exact absurd hverdict hsent
  | taken => rfl
  | rejected => rfl

/-- A statement that the database takes does what `recordIngestionFailure` says. -/
theorem insertIngestionFailure_of_taken
    (htaken : postgres.ingestionFailure (fields.new now) db = .taken)
    (hkey : fields.dedupKey.length ≤ 255) :
    insertIngestionFailure postgres now fields db =
      .done (recordIngestionFailure now fields db) := by
  simp only [insertIngestionFailure, insertFailure, htaken, storedKey_of_length_le hkey]

end Statement

end RecruFlow.Dlq
