import RecruFlow.Scoring.Overlap

/-!
# Editing the active profile while a batch scores

A batch reads the profile at its start and commits its scores at its end. An
edit saves new data, deletes the scores of the profile and commits. Under READ
COMMITTED the `DELETE` does not see scores that are not committed yet, and an
update of the profile holds its row lock until the edit commits.
-/

namespace RecruFlow.Scoring

open Db Schemas Lib.Trace

/-- A call of `upsert_profile`. -/
structure Edit where
  profile : Profile
  profileId : Option Nat
  activate : Bool

namespace Edit

variable (edit : Edit) (row : ProfileRow)

/-- `row.data != new_data`, for the row as it was loaded. -/
def dataChanged : Bool :=
  row.data ≠ some edit.profile

/-- The edit sends an `UPDATE` of the row. -/
def updatesRow : Bool :=
  edit.dataChanged row || edit.activate

/-- What the edit writes to the profiles; only what has changed is sent. -/
def save (db : Database) : Database :=
  let db := { db with
    profiles := db.profiles.map fun r =>
      if r.id = row.id then
        { r with
          data := if edit.dataChanged row then some edit.profile else r.data
          status := if edit.activate then .active else r.status }
      else r }
  if edit.activate then activateProfile row.id db else db

end Edit

/-- A score, and how many versions of the profile had been replaced when the data
was read that it was computed from. -/
abbrev DatedScore := MatchScore × Nat

inductive EditPhase where
  | idle
  | loaded (row : ProfileRow)
  | saved (row : ProfileRow)
  /-- The `DELETE` has found its victims. -/
  | invalidated (row : ProfileRow) (victims : List DatedScore)
  | finished

inductive BatchPhase where
  | idle
  | profileRead (profileRow : ProfileRow) (since : Nat)
  | selected (batch : Batch) (since : Nat)
  | flushed (writes : BatchWrites) (since : Nat)
  | finished

structure Editing (τ : Type) where
  /-- What is committed, but for the scores. -/
  tables : Database
  scores : List DatedScore
  /-- Not in the database: the data that committed edits have replaced, in order. -/
  replaced : List Profile
  rowLock : Option τ
  editor : τ → EditPhase
  batch : BatchPhase

namespace Editing

variable {τ : Type}

def start (db : Database) : Editing τ :=
  ⟨db, db.matchScores.map (·, 0), [], none, fun _ => .idle, .idle⟩

def committed (s : Editing τ) : Database :=
  { s.tables with matchScores := s.scores.map (·.1) }

end Editing

inductive EditingEvent (τ : Type) where
  | load (e : τ)
  | save (e : τ)
  | invalidate (e : τ)
  | commit (e : τ)
  | rollback (e : τ)
  | readProfile
  | select
  | score
  | commitBatch
  | abandonBatch

variable {τ : Type} [DecidableEq τ]

def Editing.set (s : Editing τ) (e : τ) (phase : EditPhase) : Editing τ :=
  { s with editor := Function.update s.editor e phase }

def Editing.unlock (s : Editing τ) (e : τ) : Editing τ :=
  { s with rowLock := if s.rowLock = some e then none else s.rowLock }

/-- The data of the target that a commit of the edit replaces. -/
def replacedBy (edit : Edit) (row : ProfileRow) (db : Database) : List Profile :=
  let old := (getProfileById db row.id).bind (·.data)
  if edit.dataChanged row ∧ old ≠ some edit.profile then [old.getD .empty] else []

variable (env : BatchEnv) (edit : τ → Edit) (target : Nat)

/-- The steps of the edits of one profile and of one batch. -/
def editingStep (s : Editing τ) : EditingEvent τ → Option (Editing τ)
  | .load e => match s.editor e, existingProfile s.committed (edit e).profileId with
      | .idle, some row => if row.id = target then some (s.set e (.loaded row)) else none
      | _, _ => none
  | .save e => match s.editor e with
      | .loaded row =>
          if (edit e).updatesRow row then
            -- another edit's lock makes this one wait
            match s.rowLock with
            | none => some { s.set e (.saved row) with rowLock := some e }
            | some _ => none
          else some (s.set e (.saved row))
      | _ => none
  | .invalidate e => match s.editor e with
      | .saved row =>
          let isActive := (getProfileById ((edit e).save row s.tables) row.id).any (·.isActive)
          some (s.set e (.invalidated row
            (if isActive && (edit e).dataChanged row then s.scores.filter (·.1.profileId = row.id)
            else [])))
      | _ => none
  | .commit e => match s.editor e with
      | .invalidated row victims =>
          some { (s.set e .finished).unlock e with
            tables := (edit e).save row s.tables
            scores := s.scores.diff victims
            replaced := s.replaced ++ replacedBy (edit e) row s.tables }
      | _ => none
  | .rollback e => match s.editor e with
      | .idle | .finished => none
      | _ => some ((s.set e .finished).unlock e)
  | .readProfile => match s.batch, getActiveProfile s.committed with
      | .idle, some profileRow =>
          some { s with batch := .profileRead profileRow s.replaced.length }
      | _, _ => none
  | .select => match s.batch with
      | .profileRead profileRow since =>
          match selectScoringCandidates env s.committed profileRow.id with
          | .ok selection =>
              let skipped := countAlreadyScored env s.committed profileRow.id
              some { s with batch := .selected ⟨profileRow, selection, skipped⟩ since }
          | .error _ => none
      | _ => none
  | .score => match s.batch with
      | .selected batch since => match scoreBatch env (some batch) with
          | .ok (_, writes) => some { s with batch := .flushed writes since }
          | .error _ => none
      | _ => none
  | .commitBatch => match s.batch with
      | .flushed writes since =>
          some { s with
            tables := writes.apply env.startedAt s.committed
            scores := s.scores ++ writes.scores.map (·, since)
            batch := .finished }
      | _ => none
  | .abandonBatch => match s.batch with
      | .idle | .finished => none
      | _ => some { s with batch := .finished }

/-- No score of the profile was computed from data that an edit has replaced since. -/
def NoStaleScore (s : Editing τ) : Prop :=
  ∀ p ∈ s.scores, p.1.profileId = target → p.1.computedFrom ∉ s.replaced.drop p.2

/-- A batch that commits scores does so before the data that it has read is
replaced, and while no edit that replaces the data is between its `DELETE` and
its commit. -/
def CommitsUndisturbed (s : Editing τ) : EditingEvent τ → Prop
  | .commitBatch => ∀ writes since, s.batch = .flushed writes since →
      writes.scores = [] ∨ (since = s.replaced.length ∧
        ∀ e row victims, s.editor e = .invalidated row victims →
          replacedBy (edit e) row s.tables = [])
  | _ => True

variable {env edit target} {db : Database} {s s' : Editing τ}

/-! ## One at a time -/

@[simp] theorem save_matchScores (e : Edit) (row : ProfileRow) (db : Database) :
    (e.save row db).matchScores = db.matchScores := by
  unfold Edit.save
  cases e.activate <;> rfl

omit [DecidableEq τ] in
theorem committed_start (τ : Type) (db : Database) :
    (Editing.start db : Editing τ).committed = db := by
  simp [Editing.committed, Editing.start, List.map_map, Function.comp_def]

/-- Data that has not changed may as well be written. -/
theorem save_eq {e : Edit} {row : ProfileRow} (hids : ProfileIds db) (hrow : row ∈ db.profiles) :
    e.save row db =
      if e.activate then activateProfile row.id (saveProfileData row.id e.profile e.activate db)
      else saveProfileData row.id e.profile e.activate db := by
  have hsaved : db.profiles.map (fun r =>
      if r.id = row.id then
        { r with
          data := if e.dataChanged row then some e.profile else r.data
          status := if e.activate then .active else r.status }
      else r) = (saveProfileData row.id e.profile e.activate db).profiles := by
    refine List.map_congr_left fun r hr => ?_
    by_cases hid : r.id = row.id
    · rw [if_pos hid, if_pos hid]
      cases hchanged : e.dataChanged row with
      | true => rfl
      | false =>
          have hdata : row.data = some e.profile := by simpa [Edit.dataChanged] using hchanged
          rw [hids.eq_of_id hr hrow hid, hdata]
          rfl
    · rw [if_neg hid, if_neg hid]
  unfold Edit.save
  rw [hsaved]
  rfl

theorem diff_filter {α : Type} [BEq α] [LawfulBEq α] (xs : List α) (p : α → Bool) :
    xs.diff (xs.filter p) = xs.filter fun x => !p x := by
  induction xs with
  | nil => rfl
  | cons x xs ih =>
      cases hp : p x with
      | true =>
          rw [List.filter_cons_of_pos hp, List.diff_cons, List.erase_cons_head, ih,
            List.filter_cons_of_neg (by simp [hp])]
      | false =>
          have hnot : x ∉ xs.filter p := fun hmem => by
            simp [hp] at hmem
          rw [List.filter_cons_of_neg (by simp [hp]), List.cons_diff_of_not_mem hnot, ih,
            List.filter_cons_of_pos (by simp [hp])]

/-- An edit that nobody disturbs commits what `upsert_profile` makes of the tables. -/
theorem undisturbed_edit {e : τ} {db' : Database} {row : ProfileRow} (hids : ProfileIds db)
    (hrow : existingProfile db (edit e).profileId = some row) (hmem : row ∈ db.profiles)
    (htarget : row.id = target)
    (h : upsertProfile (edit e).profile (edit e).profileId (edit e).activate db = .ok db') :
    ∃ s, exec (editingStep env edit target) (Editing.start db)
        [.load e, .save e, .invalidate e, .commit e] = some s ∧ s.committed = db' := by
  subst htarget
  have hstart := committed_start τ db
  have hload : existingProfile (Editing.start db : Editing τ).committed (edit e).profileId =
      some row := by rw [hstart, hrow]
  have hdb' : (if (getProfileById ((edit e).save row db) row.id).any (·.isActive) &&
      (edit e).dataChanged row then invalidateScoresForProfile row.id ((edit e).save row db)
      else (edit e).save row db) = db' := by
    rw [save_eq hids hmem]
    unfold upsertProfile resolveProfile at h
    rw [hrow] at h
    exact Except.ok.inj h
  let victims : List DatedScore :=
    if (getProfileById ((edit e).save row db) row.id).any (·.isActive) && (edit e).dataChanged row
    then (db.matchScores.map (·, 0)).filter (·.1.profileId = row.id) else []
  have hexec : ∃ s, exec (editingStep env edit row.id) (Editing.start db)
      [.load e, .save e, .invalidate e, .commit e] = some s ∧
        s.tables = (edit e).save row db ∧ s.scores = (db.matchScores.map (·, 0)).diff victims := by
    have hidle : (Editing.start db : Editing τ).editor e = .idle := rfl
    have hfree : (Editing.start db : Editing τ).rowLock = none := rfl
    cases hupdates : (edit e).updatesRow row with
    | true =>
        simp only [exec_cons, editingStep, hidle, hload, eq_self, if_true, Option.bind_some,
          Editing.set, Function.update_self, hupdates, hfree]
        exact ⟨_, rfl, rfl, rfl⟩
    | false =>
        simp only [exec_cons, editingStep, hidle, hload, eq_self, if_true, Option.bind_some,
          Editing.set, Function.update_self, hupdates, Bool.false_eq_true, if_false]
        exact ⟨_, rfl, rfl, rfl⟩
  obtain ⟨s, hrun, htables, hscores⟩ := hexec
  refine ⟨s, hrun, ?_⟩
  rw [Editing.committed, htables, hscores, ← hdb']
  cases hinvalidates : (getProfileById ((edit e).save row db) row.id).any (·.isActive) &&
      (edit e).dataChanged row with
  | true =>
      have hkept : ((db.matchScores.map fun score => (score, 0)).filter
          fun p : DatedScore => !decide (p.1.profileId = row.id)).map (·.1) =
          db.matchScores.filter (·.profileId ≠ row.id) := by
        rw [List.filter_map, List.map_map]
        simp [Function.comp_def]
      simp only [victims, hinvalidates, if_true, diff_filter, hkept, invalidateScoresForProfile,
        save_matchScores]
  | false =>
      have hkept : (db.matchScores.map fun score => (score, 0)).map (fun p : DatedScore => p.1) =
          ((edit e).save row db).matchScores := by
        simp [List.map_map, Function.comp_def]
      simp only [victims, hinvalidates, Bool.false_eq_true, if_false, List.diff_nil, hkept]

/-- So does a batch. -/
theorem undisturbed_batch {db' : Database} {summary : BatchScoringSummary}
    {profileRow : ProfileRow} (hprofile : getActiveProfile db = some profileRow)
    (h : runBatchScoring env db = .ok (summary, db')) :
    ∃ s, exec (editingStep env edit target) (Editing.start db : Editing τ)
        [.readProfile, .select, .score, .commitBatch] = some s ∧ s.committed = db' := by
  have hstart := committed_start τ db
  obtain ⟨batch, hbatch, h⟩ := bind_ok h
  obtain ⟨⟨summary', writes⟩, hscore, h⟩ := bind_ok h
  obtain rfl : writes.apply env.startedAt db = db' := (Prod.mk.inj (Except.ok.inj h)).2
  rw [selectBatch, hprofile] at hbatch
  obtain ⟨selection, hselect, hbatch⟩ := bind_ok hbatch
  obtain rfl := Except.ok.inj hbatch
  let batch : Batch := ⟨profileRow, selection, countAlreadyScored env db profileRow.id⟩
  let stage (phase : BatchPhase) : Editing τ := { Editing.start db with batch := phase }
  have hcommitted : ∀ phase, (stage phase).committed = db := fun _ => hstart
  have hread : editingStep env edit target (Editing.start db) .readProfile =
      some (stage (.profileRead profileRow 0)) := by
    have hidle : (Editing.start db : Editing τ).batch = .idle := rfl
    simp only [editingStep, hidle, hstart, hprofile]
    rfl
  have hselected : editingStep env edit target (stage (.profileRead profileRow 0)) .select =
      some (stage (.selected batch 0)) := by
    have hphase : (stage (.profileRead profileRow 0)).batch = .profileRead profileRow 0 := rfl
    simp only [editingStep, hphase, hcommitted, hselect]
    rfl
  have hscored : editingStep env edit target (stage (.selected batch 0)) .score =
      some (stage (.flushed writes 0)) := by
    have hphase : (stage (.selected batch 0)).batch = .selected batch 0 := rfl
    simp only [editingStep, hphase]
    rw [hscore]
  have hcommit : ∃ s, editingStep env edit target (stage (.flushed writes 0)) .commitBatch = some s ∧
      s.tables = writes.apply env.startedAt db ∧
      s.scores = db.matchScores.map (·, 0) ++ writes.scores.map (·, 0) := by
    have hphase : (stage (.flushed writes 0)).batch = .flushed writes 0 := rfl
    simp only [editingStep, hphase, hcommitted]
    exact ⟨_, rfl, rfl, rfl⟩
  obtain ⟨s, hlast, htables, hscores⟩ := hcommit
  refine ⟨s, ?_, ?_⟩
  · simp only [exec_cons, hread, hselected, hscored, hlast, Option.bind_some, exec_nil]
  · obtain ⟨rows, hrows⟩ := apply_eq writes env.startedAt db
    rw [Editing.committed, htables, hscores, hrows]
    simp [List.map_map, Function.comp_def]

/-! ## The invariant -/

/-- The edit has sent its `UPDATE` and holds the row lock, if it sent one. -/
def holdsRow (edit : Edit) : EditPhase → Bool
  | .saved row | .invalidated row _ => edit.updatesRow row
  | _ => false

def targetsRow (target : Nat) : EditPhase → Prop
  | .loaded row | .saved row | .invalidated row _ => row.id = target
  | _ => True

/-- The scores of the profile are of its present data, and the `DELETE` of an edit
that is going to replace it has found all of them. -/
structure ScoresCurrent (edit : τ → Edit) (target : Nat) (s : Editing τ) : Prop where
  active : (getProfileById s.tables target).any (·.isActive) = true
  current : ∀ p ∈ s.scores, p.1.profileId = target → p.2 = s.replaced.length
  rows : ∀ e, targetsRow target (s.editor e)
  holder : ∀ e, holdsRow (edit e) (s.editor e) = true → s.rowLock = some e
  victims : ∀ e row victims, s.editor e = .invalidated row victims →
    ((edit e).dataChanged row = false → victims = []) ∧
      (replacedBy (edit e) row s.tables ≠ [] →
        victims = s.scores.filter (·.1.profileId = target))

section Steps

variable {e : τ} {row : ProfileRow} {phase : EditPhase}

theorem getProfileById_map {db' : Database} {f : ProfileRow → ProfileRow} {id : Nat}
    (hf : ∀ r, (f r).id = r.id) (hprofiles : db'.profiles = db.profiles.map f) :
    getProfileById db' id = (getProfileById db id).map f := by
  rw [getProfileById, hprofiles, List.find?_map]
  congr 2
  funext r
  rw [Function.comp_apply, hf]

/-- A row after the edit of another one, or of itself. -/
def Edit.savedRow (e : Edit) (row r : ProfileRow) : ProfileRow :=
  { r with
    data := if r.id = row.id ∧ e.dataChanged row then some e.profile else r.data
    status := if r.id = row.id ∧ e.activate then .active else r.status
    isActive := if e.activate then r.id = row.id else r.isActive }

theorem save_profiles (e : Edit) (row : ProfileRow) (db : Database) :
    (e.save row db).profiles = db.profiles.map (e.savedRow row) := by
  cases hactivate : e.activate with
  | true =>
      simp only [Edit.save, hactivate, if_true, activateProfile, List.map_map]
      refine List.map_congr_left fun r _ => ?_
      by_cases hid : r.id = row.id <;> simp [Edit.savedRow, hactivate, hid]
  | false =>
      simp only [Edit.save, hactivate, Bool.false_eq_true, if_false]
      refine List.map_congr_left fun r _ => ?_
      by_cases hid : r.id = row.id <;> simp [Edit.savedRow, hactivate, hid]

/-- An edit of an active profile leaves it active. -/
theorem save_active {e : Edit} (h : (getProfileById db row.id).any (·.isActive) = true) :
    (getProfileById (e.save row db) row.id).any (·.isActive) = true := by
  have hid : ∀ r, (e.savedRow row r).id = r.id := fun _ => rfl
  rw [getProfileById_map hid (save_profiles e row db)]
  cases hfound : getProfileById db row.id with
  | none =>
      rw [hfound] at h
      cases h
  | some found =>
      rw [hfound] at h
      have hactive : found.isActive = true := h
      have hid : found.id = row.id := by simpa using List.find?_some hfound
      change (e.savedRow row found).isActive = true
      simp [Edit.savedRow, hid, hactive]

omit [DecidableEq τ] in
/-- Only the holder of the row lock is between its `UPDATE` and its commit. -/
theorem ScoresCurrent.alone (h : ScoresCurrent edit target s) {e' : τ}
    (he : holdsRow (edit e) (s.editor e) = true) (he' : holdsRow (edit e') (s.editor e') = true) :
    e' = e :=
  Option.some.inj ((h.holder e' he').symm.trans (h.holder e he))

/-- The phases of the others are as they were. -/
theorem set_editor_of_ne {e' : τ} (hne : e' ≠ e) : (s.set e phase).editor e' = s.editor e' := by
  simp [Editing.set, Function.update_of_ne hne]

theorem set_editor_self : (s.set e phase).editor e = phase := by
  simp [Editing.set]

/-- A step of an edit that neither writes nor deletes: it moves on to a phase of
the same row, with the lock it has or takes. -/
theorem ScoresCurrent.set (h : ScoresCurrent edit target s) {lock : Option τ}
    (hrow : targetsRow target phase)
    (hlock : ∀ e', holdsRow (edit e') ((s.set e phase).editor e') = true → lock = some e')
    (hvictims : ∀ row victims, phase = .invalidated row victims →
      ((edit e).dataChanged row = false → victims = []) ∧
        (replacedBy (edit e) row s.tables ≠ [] →
          victims = s.scores.filter (·.1.profileId = target))) :
    ScoresCurrent edit target { s.set e phase with rowLock := lock } where
  active := h.active
  current := h.current
  rows e' := by
    by_cases hne : e' = e
    · subst hne
      change targetsRow target ((s.set e' phase).editor e')
      rw [set_editor_self]
      exact hrow
    · change targetsRow target ((s.set e phase).editor e')
      rw [set_editor_of_ne hne]
      exact h.rows e'
  holder := hlock
  victims e' row victims hphase := by
    change (s.set e phase).editor e' = _ at hphase
    by_cases hne : e' = e
    · subst hne
      rw [set_editor_self] at hphase
      exact hvictims row victims hphase
    · rw [set_editor_of_ne hne] at hphase
      exact h.victims e' row victims hphase

theorem replacedBy_of_unchanged {e : Edit} (h : e.dataChanged row = false) :
    replacedBy e row db = [] := by
  simp [replacedBy, h]

/-- An edit that has not changed the data leaves it to the others as it was. -/
theorem replacedBy_save {e e' : Edit} {row' : ProfileRow} (h : e.dataChanged row = false) :
    replacedBy e' row' (e.save row db) = replacedBy e' row' db := by
  have hid : ∀ r, (e.savedRow row r).id = r.id := fun _ => rfl
  have hdata : (getProfileById (e.save row db) row'.id).bind (·.data) =
      (getProfileById db row'.id).bind (·.data) := by
    rw [getProfileById_map hid (save_profiles e row db)]
    cases getProfileById db row'.id with
    | none => rfl
    | some found => simp [Edit.savedRow, h]
  rw [replacedBy, replacedBy, hdata]

/-- A commit takes away every score of the profile, or the edit does not replace
the data. -/
theorem ScoresCurrent.commit (h : ScoresCurrent edit target s) {victims : List DatedScore}
    (hphase : s.editor e = .invalidated row victims) :
    ScoresCurrent edit target { (s.set e .finished).unlock e with
      tables := (edit e).save row s.tables
      scores := s.scores.diff victims
      replaced := s.replaced ++ replacedBy (edit e) row s.tables } := by
  have hrow : row.id = target := by
    have := h.rows e
    rwa [hphase] at this
  have hvictims := h.victims e row victims hphase
  have hothers : ∀ e', holdsRow (edit e') ((s.set e .finished).editor e') = true → e' ≠ e ∧
      holdsRow (edit e') (s.editor e') = true := by
    intro e' he'
    by_cases hne : e' = e
    · subst hne
      rw [set_editor_self] at he'
      cases he'
    · rw [set_editor_of_ne hne] at he'
      exact ⟨hne, he'⟩
  refine ⟨?_, ?_, ?_, ?_, ?_⟩
  · have := h.active
    rw [← hrow] at this ⊢
    exact save_active this
  · intro p hp hprofile
    change p ∈ s.scores.diff victims at hp
    change p.2 = (s.replaced ++ replacedBy (edit e) row s.tables).length
    by_cases hreplaced : replacedBy (edit e) row s.tables = []
    · rw [hreplaced, List.append_nil]
      exact h.current p (List.diff_subset _ _ hp) hprofile
    · rw [hvictims.2 hreplaced, diff_filter] at hp
      simp [hprofile] at hp
  · intro e'
    change targetsRow target ((s.set e .finished).editor e')
    by_cases hne : e' = e
    · subst hne
      rw [set_editor_self]
      trivial
    · rw [set_editor_of_ne hne]
      exact h.rows e'
  · intro e' he'
    obtain ⟨hne, hheld⟩ := hothers e' he'
    have hlock := h.holder e' hheld
    change (if s.rowLock = some e then none else s.rowLock) = some e'
    rw [if_neg fun heq => hne (Option.some.inj (hlock.symm.trans heq)), hlock]
  · intro e' row' victims' hphase'
    change (s.set e .finished).editor e' = _ at hphase'
    by_cases hne : e' = e
    · subst hne
      rw [set_editor_self] at hphase'
      cases hphase'
    · rw [set_editor_of_ne hne] at hphase'
      have hold := h.victims e' row' victims' hphase'
      refine ⟨hold.1, fun hreplaced => ?_⟩
      change replacedBy (edit e') row' ((edit e).save row s.tables) ≠ [] at hreplaced
      change victims' = (s.scores.diff victims).filter (·.1.profileId = target)
      -- an edit that changes the data holds the row lock, and the other one does not
      have hchanged' : (edit e').dataChanged row' = true := by
        by_contra hno
        exact hreplaced (replacedBy_of_unchanged (Bool.eq_false_iff.mpr hno))
      have hheld' : holdsRow (edit e') (s.editor e') = true := by
        rw [hphase']
        simp [holdsRow, Edit.updatesRow, hchanged']
      have hunchanged : (edit e).dataChanged row = false := by
        refine Bool.eq_false_iff.mpr fun hchanged => hne (h.alone ?_ hheld')
        rw [hphase]
        simp [holdsRow, Edit.updatesRow, hchanged]
      rw [replacedBy_save hunchanged] at hreplaced
      rw [hvictims.1 hunchanged, List.diff_nil]
      exact hold.2 hreplaced

omit [DecidableEq τ] in
/-- The phase of the batch does not matter, nor what it writes but scores. -/
theorem ScoresCurrent.setBatch (h : ScoresCurrent edit target s) (phase : BatchPhase) :
    ScoresCurrent edit target { s with batch := phase } :=
  ⟨h.active, h.current, h.rows, h.holder, h.victims⟩

omit [DecidableEq τ] in
/-- The scores of a batch that nobody has disturbed are of the present data. -/
theorem ScoresCurrent.commitBatch (h : ScoresCurrent edit target s) {writes : BatchWrites}
    {since : Nat} {startedAt : Int} (hundisturbed : writes.scores = [] ∨
      (since = s.replaced.length ∧ ∀ e row victims, s.editor e = .invalidated row victims →
        replacedBy (edit e) row s.tables = [])) :
    ScoresCurrent edit target { s with
      tables := writes.apply startedAt s.committed
      scores := s.scores ++ writes.scores.map (·, since)
      batch := .finished } := by
  obtain ⟨rows, hrows⟩ := apply_eq writes startedAt s.committed
  have hactive : (getProfileById (writes.apply startedAt s.committed) target).any (·.isActive) =
      true := by
    rw [hrows]
    exact h.active
  have hreplaced : ∀ e row, replacedBy e row (writes.apply startedAt s.committed) =
      replacedBy e row s.tables := by
    intro e row
    rw [hrows]
    rfl
  rcases hundisturbed with hnone | ⟨hsince, hquiet⟩
  · rw [hnone, List.map_nil, List.append_nil]
    refine ⟨hactive, h.current, h.rows, h.holder, fun e row victims hphase => ?_⟩
    have hold := h.victims e row victims hphase
    refine ⟨hold.1, fun hnow => hold.2 ?_⟩
    rwa [hreplaced] at hnow
  · refine ⟨hactive, ?_, h.rows, h.holder, ?_⟩
    · intro p hp hprofile
      rcases List.mem_append.mp hp with hold | hnew
      · exact h.current p hold hprofile
      · obtain ⟨score, _, rfl⟩ := List.mem_map.mp hnew
        exact hsince
    · intro e row victims hphase
      refine ⟨(h.victims e row victims hphase).1, fun hnow => absurd ?_ hnow⟩
      rw [hreplaced]
      exact hquiet e row victims hphase

theorem scoresCurrent_step {event : EditingEvent τ} (h : ScoresCurrent edit target s)
    (hundisturbed : CommitsUndisturbed edit s event)
    (hstep : editingStep env edit target s event = some s') : ScoresCurrent edit target s' := by
  have hkeeps : ∀ e phase, (holdsRow (edit e) phase = true → s.rowLock = some e) →
      ∀ e', holdsRow (edit e') ((s.set e phase).editor e') = true → s.rowLock = some e' := by
    intro e phase hphase e' he'
    by_cases hne : e' = e
    · subst hne
      rw [set_editor_self] at he'
      exact hphase he'
    · rw [set_editor_of_ne hne] at he'
      exact h.holder e' he'
  cases event with
  | load e =>
      simp only [editingStep] at hstep
      split at hstep
      · next row _ _ =>
        split at hstep
        · next hrow =>
          obtain rfl := Option.some.inj hstep
          exact h.set hrow (hkeeps e _ fun hheld => by cases hheld) fun _ _ hphase => by cases hphase
        · cases hstep
      · cases hstep
  | save e =>
      simp only [editingStep] at hstep
      split at hstep
      · next row hphase =>
        have hrow : row.id = target := by
          have := h.rows e
          rwa [hphase] at this
        split at hstep
        · split at hstep
          · next hfree =>
            obtain rfl := Option.some.inj hstep
            refine h.set hrow (fun e' he' => ?_) fun _ _ hphase => by cases hphase
            by_cases hne : e' = e
            · rw [hne]
            · rw [set_editor_of_ne hne] at he'
              have hlock := h.holder e' he'
              rw [hfree] at hlock
              cases hlock
          · cases hstep
        · next hno =>
          obtain rfl := Option.some.inj hstep
          exact h.set hrow (hkeeps e _ fun hheld => absurd hheld hno) fun _ _ hphase => by
            cases hphase
      · cases hstep
  | invalidate e =>
      simp only [editingStep] at hstep
      split at hstep
      · next row hphase =>
        have hrow : row.id = target := by
          have := h.rows e
          rwa [hphase] at this
        have hheld : holdsRow (edit e) (s.editor e) = (edit e).updatesRow row := by rw [hphase]; rfl
        have hactive : (getProfileById ((edit e).save row s.tables) row.id).any (·.isActive) =
            true := save_active (by rw [hrow]; exact h.active)
        obtain rfl := Option.some.inj hstep
        refine h.set hrow (hkeeps e _ fun hupdates => h.holder e (hheld.trans hupdates)) ?_
        intro row' victims' hphase'
        obtain ⟨rfl, rfl⟩ := EditPhase.invalidated.inj hphase'
        rw [hactive, Bool.true_and, hrow]
        refine ⟨fun hunchanged => by rw [hunchanged]; rfl, fun hreplaced => if_pos ?_⟩
        by_contra hno
        exact hreplaced (replacedBy_of_unchanged (Bool.eq_false_iff.mpr hno))
      · cases hstep
  | commit e =>
      simp only [editingStep] at hstep
      split at hstep
      · next row victims hphase =>
        obtain rfl := Option.some.inj hstep
        exact h.commit hphase
      · cases hstep
  | rollback e =>
      simp only [editingStep] at hstep
      split at hstep
      · cases hstep
      · cases hstep
      · obtain rfl := Option.some.inj hstep
        refine h.set trivial (fun e' he' => ?_) fun _ _ hphase => by cases hphase
        by_cases hne : e' = e
        · subst hne
          rw [set_editor_self] at he'
          cases he'
        · rw [set_editor_of_ne hne] at he'
          have hlock := h.holder e' he'
          change (if s.rowLock = some e then none else s.rowLock) = some e'
          rw [if_neg fun heq => hne (Option.some.inj (hlock.symm.trans heq)), hlock]
  | readProfile =>
      simp only [editingStep] at hstep
      split at hstep
      · obtain rfl := Option.some.inj hstep
        exact h.setBatch _
      · cases hstep
  | select =>
      simp only [editingStep] at hstep
      split at hstep
      · split at hstep
        · obtain rfl := Option.some.inj hstep
          exact h.setBatch _
        · cases hstep
      · cases hstep
  | score =>
      simp only [editingStep] at hstep
      split at hstep
      · split at hstep
        · obtain rfl := Option.some.inj hstep
          exact h.setBatch _
        · cases hstep
      · cases hstep
  | commitBatch =>
      simp only [editingStep] at hstep
      split at hstep
      · next writes since hphase =>
        obtain rfl := Option.some.inj hstep
        exact h.commitBatch (hundisturbed writes since hphase)
      · cases hstep
  | abandonBatch =>
      simp only [editingStep] at hstep
      split at hstep
      · cases hstep
      · cases hstep
      · obtain rfl := Option.some.inj hstep
        exact h.setBatch _

end Steps

/-- Unless a batch commits scores of data that was replaced, or while an edit has
deleted the scores and not committed yet, no score is ever stale. -/
theorem edits_leave_no_stale_score {es : List (EditingEvent τ)}
    (hactive : (getProfileById db target).any (·.isActive) = true)
    (hundisturbed : Along (editingStep env edit target) (CommitsUndisturbed edit)
      (Editing.start db) es)
    (hreach : Reaches (editingStep env edit target) (Editing.start db) es s) :
    NoStaleScore target s := by
  have hstart : ScoresCurrent edit target (Editing.start db : Editing τ) :=
    { active := hactive
      current := fun p hp _ => by
        obtain ⟨score, _, rfl⟩ := List.mem_map.mp hp
        rfl
      rows := fun _ => trivial
      holder := fun _ hheld => by cases hheld
      victims := fun _ _ _ hphase => by cases hphase }
  have hcurrent :=
    (along_invariant (fun _ _ _ h hP hs => scoresCurrent_step h hP hs) hstart hundisturbed hreach).current
  intro p hp hprofile
  rw [hcurrent p hp hprofile, List.drop_length]
  exact List.not_mem_nil

/-! ## One offer, and one edit -/

def seniorEdit : Edit where
  profile := { Profile.empty with headline := some "senior" }
  profileId := none
  activate := true

/-- The edit comes when the scores are committed. -/
def editAfterBatch : List (EditingEvent Unit) :=
  [.readProfile, .select, .score, .commitBatch, .load (), .save (), .invalidate (), .commit ()]

theorem edits_leave_no_stale_score_after_batch :
    ∃ s, exec (editingStep sameScore (fun _ => seniorEdit) 1) (Editing.start oneUnscored)
        editAfterBatch = some s ∧ s.scores = [] ∧ NoStaleScore 1 s := by
  refine ⟨_, rfl, rfl, edits_leave_no_stale_score (by decide) ?_
    (Reaches.last (show exec (editingStep sameScore (fun _ => seniorEdit) 1)
      (Editing.start oneUnscored) editAfterBatch = some _ from rfl))⟩
  unfold editAfterBatch
  rw [along_cons rfl, along_cons rfl, along_cons rfl, along_cons rfl, along_cons rfl,
    along_cons rfl, along_cons rfl, along_cons rfl]
  refine ⟨trivial, trivial, trivial, ?_, trivial, trivial, trivial, trivial, trivial⟩
  intro writes since hphase
  obtain ⟨_, rfl⟩ := BatchPhase.flushed.inj hphase
  exact .inr ⟨rfl, fun _ _ _ hedit => by cases hedit⟩

/-- The edit comes while the model scores: its `DELETE` finds nothing, and the
score of the old data stays. -/
def editDuringBatch : List (EditingEvent Unit) :=
  [.readProfile, .select, .load (), .save (), .invalidate (), .commit (), .score, .commitBatch]

theorem edit_leaves_stale_score :
    ∃ s, exec (editingStep sameScore (fun _ => seniorEdit) 1) (Editing.start oneUnscored)
        editDuringBatch = some s ∧ s.batch = .finished ∧ s.editor () = .finished ∧
      s.replaced = [juniorProfile] ∧ s.scores = [(⟨1, 1, 80, "fits", juniorProfile⟩, 0)] ∧
      ¬ NoStaleScore 1 s :=
  ⟨_, rfl, rfl, rfl, rfl, rfl, fun h => h _ (.head _) rfl (.head _)⟩

end RecruFlow.Scoring
