import Mathlib.Data.Option.Basic
import Mathlib.Logic.Function.Basic

/-!
# A table under READ COMMITTED

A row that a transaction has written is locked until the transaction ends. The others
read the committed row meanwhile, and wait where they want to write it.
-/

namespace RecruFlow.Lib.ReadCommitted

variable {τ κ ρ : Type*}

/-- The committed rows by key, and the locked rows: each with its transaction and what
that has written. A deleted row is `none`. -/
structure Table (τ κ ρ : Type*) where
  committed : κ → Option ρ
  written : κ → Option (τ × Option ρ)

namespace Table

/-- The table of some rows, with no transaction on it. -/
def of (rows : κ → Option ρ) : Table τ κ ρ :=
  ⟨rows, fun _ => none⟩

/-- The transaction has locked the row. -/
def Holds (table : Table τ κ ρ) (t : τ) (k : κ) : Prop :=
  ∃ version, table.written k = some (t, version)

/-- A version of the row: the committed one, or one that is written. -/
def HasVersion (table : Table τ κ ρ) (k : κ) (row : ρ) : Prop :=
  table.committed k = some row ∨ ∃ t, table.written k = some (t, some row)

def hasVersion (table : Table τ κ ρ) (k : κ) (p : ρ → Bool) : Bool :=
  (table.committed k).any p || (table.written k).any (·.2.any p)

section

variable [DecidableEq τ]

/-- The row as a statement of the transaction sees it. -/
def visible (table : Table τ κ ρ) (t : τ) (k : κ) : Option ρ :=
  match table.written k with
  | some (holder, version) => if holder = t then version else table.committed k
  | none => table.committed k

/-- A write of the transaction has to wait for another one. -/
def waits (table : Table τ κ ρ) (t : τ) (k : κ) : Bool :=
  (table.written k).any (·.1 ≠ t)

def write [DecidableEq κ] (table : Table τ κ ρ) (t : τ) (k : κ) (version : Option ρ) :
    Table τ κ ρ :=
  { table with written := Function.update table.written k (some (t, version)) }

/-- The locks without those of the transaction. -/
def release (table : Table τ κ ρ) (t : τ) (k : κ) : Option (τ × Option ρ) :=
  (table.written k).filter (·.1 ≠ t)

def commit (table : Table τ κ ρ) (t : τ) : Table τ κ ρ :=
  ⟨table.visible t, table.release t⟩

def rollback (table : Table τ κ ρ) (t : τ) : Table τ κ ρ :=
  ⟨table.committed, table.release t⟩

end

variable {table : Table τ κ ρ} {t t' : τ} {k k' : κ} {row : ρ} {version : Option ρ}

theorem hasVersion_iff {p : ρ → Bool} :
    table.hasVersion k p = true ↔ ∃ row, table.HasVersion k row ∧ p row = true := by
  rw [hasVersion, Bool.or_eq_true, Option.any_eq_true, Option.any_eq_true]
  constructor
  · rintro (⟨row, hrow, hp⟩ | ⟨⟨t, version⟩, hwritten, hany⟩)
    · exact ⟨row, .inl hrow, hp⟩
    · obtain ⟨row, rfl, hp⟩ := (Option.any_eq_true _ _).mp hany
      exact ⟨row, .inr ⟨t, hwritten⟩, hp⟩
  · rintro ⟨row, hrow | ⟨t, hwritten⟩, hp⟩
    · exact .inl ⟨row, hrow, hp⟩
    · exact .inr ⟨(t, some row), hwritten, hp⟩

/-- A row has one holder. -/
theorem Holds.unique (h : table.Holds t k) (h' : table.Holds t' k) : t' = t := by
  obtain ⟨version, hwritten⟩ := h
  obtain ⟨version', hwritten'⟩ := h'
  rw [hwritten] at hwritten'
  exact (Prod.mk.inj (Option.some.inj hwritten')).1.symm

variable [DecidableEq τ]

/-! ## What a transaction sees -/

theorem visible_of_written (h : table.written k = some (t, version)) :
    table.visible t k = version := by
  rw [visible, h]
  exact if_pos rfl

theorem visible_of_not_holds (h : ¬ table.Holds t k) : table.visible t k = table.committed k := by
  rw [visible]
  split
  · next holder version hwritten =>
    refine if_neg fun hholder => h ⟨version, ?_⟩
    rw [hwritten, hholder]
  · rfl

theorem HasVersion.of_visible (h : table.visible t k = some row) : table.HasVersion k row := by
  by_cases hholds : table.Holds t k
  · obtain ⟨version, hwritten⟩ := hholds
    rw [visible_of_written hwritten] at h
    exact .inr ⟨t, h ▸ hwritten⟩
  · rw [visible_of_not_holds hholds] at h
    exact .inl h

theorem waits_iff : table.waits t k = true ↔ ∃ t', t' ≠ t ∧ table.Holds t' k := by
  rw [waits, Option.any_eq_true]
  constructor
  · rintro ⟨⟨holder, version⟩, hwritten, hne⟩
    exact ⟨holder, of_decide_eq_true hne, version, hwritten⟩
  · rintro ⟨holder, hne, version, hwritten⟩
    exact ⟨(holder, version), hwritten, decide_eq_true hne⟩

/-- The holder of a row that need not be waited for. -/
theorem eq_of_not_waits (h : ¬ table.waits t k = true) (hholds : table.Holds t' k) : t' = t := by
  by_contra hne
  exact h (waits_iff.mpr ⟨t', hne, hholds⟩)

/-! ## Writes -/

section Write

variable [DecidableEq κ]

omit [DecidableEq τ] in
theorem written_write : (table.write t k version).written k' =
    if k' = k then some (t, version) else table.written k' :=
  Function.update_apply ..

omit [DecidableEq τ] in
theorem holds_write : (table.write t k version).Holds t' k' ↔
    if k' = k then t' = t else table.Holds t' k' := by
  unfold Holds
  rw [written_write]
  split
  · simp [eq_comm]
  · rfl

omit [DecidableEq τ] in
theorem HasVersion.of_write (h : (table.write t k version).HasVersion k' row) :
    table.HasVersion k' row ∨ k' = k ∧ version = some row := by
  rcases h with hcommitted | ⟨t', hwritten⟩
  · exact .inl (.inl hcommitted)
  · rw [written_write] at hwritten
    split at hwritten
    · next hk => exact .inr ⟨hk, (Prod.mk.inj (Option.some.inj hwritten)).2⟩
    · exact .inl (.inr ⟨t', hwritten⟩)

theorem visible_write_of_ne (hne : k' ≠ k) :
    (table.write t k version).visible t' k' = table.visible t' k' := by
  rw [visible, written_write, if_neg hne]
  rfl

/-- The others do not see a write. -/
theorem visible_write_other (hfree : ¬ table.waits t k = true) (hne : t' ≠ t) :
    (table.write t k version).visible t' k' = table.visible t' k' := by
  by_cases hk : k' = k
  · subst hk
    have hnew : ¬ (table.write t k' version).Holds t' k' := by
      rw [holds_write, if_pos rfl]
      exact hne
    have hold : ¬ table.Holds t' k' := fun hholds => hne (eq_of_not_waits hfree hholds)
    rw [visible_of_not_holds hnew, visible_of_not_holds hold]
    rfl
  · exact visible_write_of_ne hk

end Write

/-! ## The end of a transaction -/

theorem release_eq : table.release t k = some (t', version) ↔
    t' ≠ t ∧ table.written k = some (t', version) := by
  rw [release, Option.filter_eq_some_iff, decide_eq_true_eq]
  exact and_comm

theorem holds_commit : (table.commit t).Holds t' k ↔ t' ≠ t ∧ table.Holds t' k := by
  constructor
  · rintro ⟨version, hrelease⟩
    obtain ⟨hne, hwritten⟩ := release_eq.mp hrelease
    exact ⟨hne, version, hwritten⟩
  · rintro ⟨hne, version, hwritten⟩
    exact ⟨version, release_eq.mpr ⟨hne, hwritten⟩⟩

theorem holds_rollback : (table.rollback t).Holds t' k ↔ t' ≠ t ∧ table.Holds t' k :=
  holds_commit

theorem HasVersion.of_commit (h : (table.commit t).HasVersion k row) : table.HasVersion k row := by
  rcases h with hcommitted | ⟨t', hrelease⟩
  · exact .of_visible hcommitted
  · exact .inr ⟨t', (release_eq.mp hrelease).2⟩

theorem visible_of_release {rows : κ → Option ρ} (hne : t' ≠ t)
    (hrows : ¬ table.Holds t' k → rows k = table.committed k) :
    (Table.mk rows (table.release t)).visible t' k = table.visible t' k := by
  by_cases hholds : table.Holds t' k
  · obtain ⟨version, hwritten⟩ := hholds
    rw [visible_of_written hwritten]
    exact visible_of_written (release_eq.mpr ⟨hne, hwritten⟩)
  · have hreleased : ¬ (Table.mk rows (table.release t)).Holds t' k := fun hnew =>
      hholds (holds_rollback.mp hnew).2
    rw [visible_of_not_holds hreleased, visible_of_not_holds hholds]
    exact hrows hholds

/-- The rows that another transaction has not written are seen as before. -/
theorem visible_commit_of_not_holds (hne : t' ≠ t) (h : ¬ table.Holds t k) :
    (table.commit t).visible t' k = table.visible t' k :=
  visible_of_release hne fun _ => visible_of_not_holds h

/-- What is committed is seen by the others. -/
theorem visible_commit_of_holds (hne : t' ≠ t) (h : table.Holds t k) :
    (table.commit t).visible t' k = table.visible t k := by
  have hnot : ¬ (table.commit t).Holds t' k := fun hholds =>
    hne (h.unique (holds_commit.mp hholds).2)
  rw [visible_of_not_holds hnot]
  rfl

theorem visible_rollback (hne : t' ≠ t) : (table.rollback t).visible t' k = table.visible t' k :=
  visible_of_release hne fun _ => rfl

/-- The committed rows change where the transaction has written alone. -/
theorem committed_commit_of_not_holds (h : ¬ table.Holds t k) :
    (table.commit t).committed k = table.committed k :=
  visible_of_not_holds h

end Table

end RecruFlow.Lib.ReadCommitted
