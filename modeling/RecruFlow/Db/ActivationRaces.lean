import RecruFlow.Db.ProfileRepo
import RecruFlow.Lib.ReadCommitted
import RecruFlow.Lib.Trace

/-!
# Saving profiles at the same time

An activation makes the other profiles inactive, and then its own one active: two
`UPDATE`s. The first one comes to the profiles that were committed when it began. Under
READ COMMITTED a profile that is committed later, and active by the time the second one
is committed, stays active.
-/

namespace RecruFlow.Db

open Lib.ReadCommitted Lib.Trace Schemas

/-- A call, in a transaction of its own. -/
inductive ProfileCall where
  | upsert (profile : Profile) (profileId : Option Nat) (activate : Bool)
  | createDraft (uuid : String) (profile : Profile)

namespace ProfileCall

def activates : ProfileCall → Bool
  | upsert _ _ activate => activate
  | createDraft _ _ => false

/-- The profile that the call inserts, if it does. -/
def inserted (nextProfileId : Nat) : ProfileCall → ProfileRow
  | upsert _ _ activate =>
      ⟨nextProfileId, defaultProfileName, if activate then .active else .draft, false, none⟩
  | createDraft uuid profile => ⟨nextProfileId, "draft-" ++ uuid, .draft, false, some profile⟩

/-- `row.data != new_data`, for the row as it was loaded. -/
def dataChanged (row : ProfileRow) : ProfileCall → Bool
  | upsert profile _ _ => row.data ≠ some profile
  | createDraft _ _ => false

def statusChanged (row : ProfileRow) : ProfileCall → Bool
  | upsert _ _ activate => activate && row.status ≠ .active
  | createDraft _ _ => false

/-- The columns that the flush sends; they may find a newer row than the loaded one. -/
def flushed (row newest : ProfileRow) : ProfileCall → ProfileRow
  | call@(upsert profile _ _) =>
      { newest with
        data := if call.dataChanged row then some profile else newest.data
        status := if call.statusChanged row then .active else newest.status }
  | createDraft _ _ => newest

theorem flushed_isActive {call : ProfileCall} {row newest : ProfileRow} :
    (call.flushed row newest).isActive = newest.isActive := by
  cases call <;> rfl

end ProfileCall

inductive ProfilePhase where
  | opened
  /-- No profile is active: one with the default name will do. -/
  | naming
  | inserting
  | loaded (row : ProfileRow)
  | flushed (row : ProfileRow)
  /-- The first `UPDATE` has some of its rows still ahead. -/
  | deactivating (row : ProfileRow) (left : List Nat)
  | activated (row : ProfileRow)
  | refreshed (row : ProfileRow) (isActive : Bool)
  /-- Ahead of the commit, with whether the scores of the profile go. -/
  | ready (profileId : Nat) (invalidates : Bool)
  /-- `ProfileNotFoundError` -/
  | notFound
  | ended (committed : Bool)

def ProfileCall.begin : ProfileCall → ProfilePhase
  | upsert _ _ _ => .opened
  | createDraft _ _ => .inserting

structure ActivationRace (τ : Type) where
  profiles : Table τ Nat ProfileRow
  nextProfileId : Nat
  matchScores : List MatchScore
  phase : τ → ProfilePhase
  /-- Not in the database: the profile that the last commit of an activation is about. -/
  lastActivated : Option Nat

inductive ProfileEvent (τ : Type) where
  | load (t : τ)
  | loadByName (t : τ)
  | insert (t : τ)
  | flush (t : τ)
  | deactivate (t : τ)
  | deactivateRow (t : τ) (id : Nat)
  | activate (t : τ)
  | refresh (t : τ)
  | invalidate (t : τ)
  | commit (t : τ)
  | rollback (t : τ)

variable {τ : Type}

/-- Whose transaction goes on. -/
def ProfileEvent.caller : ProfileEvent τ → τ
  | load t | loadByName t | insert t | flush t | deactivate t | deactivateRow t _ | activate t
  | refresh t | invalidate t | commit t | rollback t => t

variable (call : τ → ProfileCall)

/-- No profiles; the sequence and the scores are as they are. -/
def ActivationRace.start (nextProfileId : Nat) (matchScores : List MatchScore) :
    ActivationRace τ where
  profiles := .of fun _ => none
  nextProfileId := nextProfileId
  matchScores := matchScores
  phase t := (call t).begin
  lastActivated := none

variable [DecidableEq τ]

namespace ActivationRace

def set (s : ActivationRace τ) (t : τ) (phase : ProfilePhase) : ActivationRace τ :=
  { s with phase := Function.update s.phase t phase }

/-- The ids of the profiles that a statement of the transaction sees. -/
def seenIds (s : ActivationRace τ) (t : τ) : List Nat :=
  (List.range s.nextProfileId).filter fun id => (s.profiles.visible t id).isSome

def seen (s : ActivationRace τ) (t : τ) : Database :=
  { profiles := (List.range s.nextProfileId).filterMap (s.profiles.visible t)
    nextProfileId := s.nextProfileId }

/-- An `UPDATE` of one row: it waits for the lock, and finds the newest row. -/
def update (s : ActivationRace τ) (t : τ) (id : Nat) (f : ProfileRow → ProfileRow) :
    Option (ActivationRace τ) :=
  if s.profiles.waits t id then none
  else (s.profiles.visible t id).map fun newest =>
    { s with profiles := s.profiles.write t id (some (f newest)) }

/-- The unique name is taken, or may come to be. -/
def nameTaken (s : ActivationRace τ) (name : String) : Bool :=
  (List.range s.nextProfileId).any fun id => s.profiles.hasVersion id (·.name = name)

end ActivationRace

/-- The statements, one at a time; `none` is one that waits, or that is not the next one of
its transaction. A statement that raises, and a deadlock, end in a `rollback`. -/
def activationStep (s : ActivationRace τ) : ProfileEvent τ → Option (ActivationRace τ)
  | .load t => match s.phase t, call t with
      | .opened, .upsert _ (some profileId) _ =>
          match getProfileById (s.seen t) profileId with
          | some row => some (s.set t (.loaded row))
          | none => some (s.set t .notFound)
      | .opened, .upsert _ none _ =>
          match getActiveProfile (s.seen t) with
          | some row => some (s.set t (.loaded row))
          | none => some (s.set t .naming)
      | _, _ => none
  | .loadByName t => match s.phase t with
      | .naming =>
          match (s.seen t).profiles.find? (·.name = defaultProfileName) with
          | some row => some (s.set t (.loaded row))
          | none => some (s.set t .inserting)
      | _ => none
  | .insert t => match s.phase t with
      | .inserting =>
          let row := (call t).inserted s.nextProfileId
          if s.nameTaken row.name then none
          else
            let s := { s with
              profiles := s.profiles.write t s.nextProfileId (some row)
              nextProfileId := s.nextProfileId + 1 }
            match call t with
            | .upsert _ _ _ => some (s.set t (.loaded row))
            | .createDraft _ _ => some (s.set t (.ready row.id false))
      | _ => none
  | .flush t => match s.phase t with
      | .loaded row =>
          if (call t).dataChanged row || (call t).statusChanged row then
            (s.update t row.id ((call t).flushed row)).map (·.set t (.flushed row))
          else some (s.set t (.flushed row))
      | _ => none
  | .deactivate t => match s.phase t with
      | .flushed row =>
          if (call t).activates then
            some (s.set t (.deactivating row ((s.seenIds t).filter (· ≠ row.id))))
          else none
      | _ => none
  -- the rows come in any order
  | .deactivateRow t id => match s.phase t with
      | .deactivating row left =>
          if id ∈ left then
            (s.update t id fun newest => { newest with isActive := false }).map
              (·.set t (.deactivating row (left.erase id)))
          else none
      | _ => none
  | .activate t => match s.phase t with
      | .deactivating row [] =>
          (s.update t row.id fun newest => { newest with isActive := true }).map
            (·.set t (.activated row))
      | _ => none
  | .refresh t => match s.phase t with
      | .activated row =>
          (s.profiles.visible t row.id).map fun found => s.set t (.refreshed row found.isActive)
      | .flushed row =>
          if (call t).activates then none
          else (s.profiles.visible t row.id).map fun found =>
            s.set t (.refreshed row found.isActive)
      | _ => none
  | .invalidate t => match s.phase t with
      | .refreshed row isActive =>
          some (s.set t (.ready row.id (isActive && (call t).dataChanged row)))
      | _ => none
  | .commit t => match s.phase t with
      | .ready profileId invalidates => some { s.set t (.ended true) with
          profiles := s.profiles.commit t
          matchScores :=
            if invalidates then s.matchScores.filter (·.profileId ≠ profileId)
            else s.matchScores
          lastActivated := if (call t).activates then some profileId else s.lastActivated }
      | _ => none
  | .rollback t => match s.phase t with
      | .ended _ => none
      | _ => some { s.set t (.ended false) with profiles := s.profiles.rollback t }

/-! ## What is asked of the races -/

/-- At most one committed profile is active; after the commit of an activation it is the
target, and stays so until the next one; a call that finds no profile changes nothing. -/
structure ActivationSound (s : ActivationRace τ) : Prop where
  one : ∀ id id' row row', s.profiles.committed id = some row →
    s.profiles.committed id' = some row' → row.isActive = true → row'.isActive = true → id = id'
  last : ∀ target, s.lastActivated = some target → ∀ id,
    (∃ row, s.profiles.committed id = some row ∧ row.isActive = true) ↔ id = target
  notFound : ∀ e s', activationStep call s e = some s' →
    s.phase e.caller = .notFound ∨ s'.phase e.caller = .notFound →
      s'.profiles.committed = s.profiles.committed ∧ s'.matchScores = s.matchScores ∧
        ∀ id, ¬ s'.profiles.Holds e.caller id

/-- At the commit of an activation, the active profile is one that the transaction has
updated: its target, or one that its first `UPDATE` has come to. -/
def ActiveUpdated (s : ActivationRace τ) : ProfileEvent τ → Prop
  | .commit t => (call t).activates = true → ∀ id row, s.profiles.committed id = some row →
      row.isActive = true → s.profiles.Holds t id
  | _ => True

/-! ## What a transaction has written -/

variable {call} {s s' : ActivationRace τ} {t t' : τ} {e : ProfileEvent τ} {target : Nat}
  {nextProfileId : Nat} {matchScores : List MatchScore}

section Written

omit [DecidableEq τ]

/-- At most the target, as active as it was. -/
def Quiet (s : ActivationRace τ) (t : τ) (target : Nat) : Prop :=
  ∀ id version, s.profiles.written id = some (t, version) → id = target ∧
    version.any (·.isActive) = (s.profiles.committed id).any (·.isActive)

/-- The others inactive. -/
def Deactivated (s : ActivationRace τ) (t : τ) (target : Nat) : Prop :=
  ∀ id version, s.profiles.written id = some (t, version) → id ≠ target →
    version.any (·.isActive) = false

/-- The others inactive, and the target active. -/
def Activated (s : ActivationRace τ) (t : τ) (target : Nat) : Prop :=
  Deactivated s t target ∧
    ∃ row, s.profiles.written target = some (t, some row) ∧ row.isActive = true

variable (call) in
/-- What a transaction has written when it comes to its commit. -/
def Prepared (s : ActivationRace τ) (t : τ) (target : Nat) : Prop :=
  if (call t).activates then Activated s t target else Quiet s t target

variable (call) in
/-- What a transaction has written by the phase. -/
def Matches (s : ActivationRace τ) (t : τ) : ProfilePhase → Prop
  | .opened | .naming | .inserting | .notFound | .ended _ => ∀ id, ¬ s.profiles.Holds t id
  | .loaded row | .flushed row => Quiet s t row.id
  | .deactivating row _ => (call t).activates = true ∧ Deactivated s t row.id
  | .activated row => (call t).activates = true ∧ Activated s t row.id
  | .refreshed row _ => Prepared call s t row.id
  | .ready id _ => Prepared call s t id

variable (call) in
structure ProfileInv (s : ActivationRace τ) : Prop where
  above : ∀ id, s.nextProfileId ≤ id →
    s.profiles.committed id = none ∧ s.profiles.written id = none
  matched : ∀ t, Matches call s t (s.phase t)

theorem quiet_of_none (h : ∀ id, ¬ s.profiles.Holds t id) : Quiet s t target :=
  fun id version hwritten => absurd ⟨version, hwritten⟩ (h id)

theorem Quiet.deactivated (h : Quiet s t target) : Deactivated s t target :=
  fun id version hwritten hne => absurd (h id version hwritten).1 hne

/-- What a transaction has written stays, with the rows under its locks. -/
theorem Matches.frame {phase : ProfilePhase}
    (hwritten : ∀ id version, s'.profiles.written id = some (t, version) ↔
      s.profiles.written id = some (t, version))
    (hcommitted : ∀ id, s.profiles.Holds t id →
      s'.profiles.committed id = s.profiles.committed id)
    (h : Matches call s t phase) : Matches call s' t phase := by
  have hnone : (∀ id, ¬ s.profiles.Holds t id) → ∀ id, ¬ s'.profiles.Holds t id := by
    rintro hnot id ⟨version, hnew⟩
    exact hnot id ⟨version, (hwritten id version).mp hnew⟩
  have hquiet : ∀ {target}, Quiet s t target → Quiet s' t target := by
    intro target hquiet id version hnew
    have hold := (hwritten id version).mp hnew
    rw [hcommitted id ⟨version, hold⟩]
    exact hquiet id version hold
  have hdeactivated : ∀ {target}, Deactivated s t target → Deactivated s' t target :=
    fun hinactive id version hnew => hinactive id version ((hwritten id version).mp hnew)
  have hactivated : ∀ {target}, Activated s t target → Activated s' t target := by
    rintro target ⟨hinactive, row, hrow, hactive⟩
    exact ⟨hdeactivated hinactive, row, (hwritten target (some row)).mpr hrow, hactive⟩
  have hprepared : ∀ {target}, Prepared call s t target → Prepared call s' t target := by
    intro target hprepared
    unfold Prepared at hprepared ⊢
    split at hprepared
    · next hactivates =>
      rw [if_pos hactivates]
      exact hactivated hprepared
    · next hactivates =>
      rw [if_neg hactivates]
      exact hquiet hprepared
  cases phase with
  | opened => exact hnone h
  | naming => exact hnone h
  | inserting => exact hnone h
  | loaded row => exact hquiet h
  | flushed row => exact hquiet h
  | deactivating row left => exact ⟨h.1, hdeactivated h.2⟩
  | activated row => exact ⟨h.1, hactivated h.2⟩
  | refreshed row isActive => exact hprepared h
  | ready id invalidates => exact hprepared h
  | notFound => exact hnone h
  | ended committed => exact hnone h

end Written

/-! ## What a step does -/

variable (call) in
inductive Turned (s : ActivationRace τ) : ProfileEvent τ → ActivationRace τ → Prop where
  | reads {e : ProfileEvent τ} {phase : ProfilePhase} (hevent : ∀ t, e ≠ .commit t)
      (hfound : s.phase e.caller ≠ .notFound) (hmatches : Matches call s e.caller phase) :
      Turned s e (s.set e.caller phase)
  | writes {e : ProfileEvent τ} {phase : ProfilePhase} {id nextProfileId : Nat} {row : ProfileRow}
      (hevent : ∀ t, e ≠ .commit t) (hfound : s.phase e.caller ≠ .notFound)
      (hwaits : ¬ s.profiles.waits e.caller id = true) (hid : id < nextProfileId)
      (hnext : s.nextProfileId ≤ nextProfileId)
      (hmatches : Matches call
        { s with profiles := s.profiles.write e.caller id (some row) } e.caller phase) :
      Turned s e { s.set e.caller phase with
        profiles := s.profiles.write e.caller id (some row)
        nextProfileId }
  | commits {t : τ} {target : Nat} {invalidates : Bool}
      (hphase : s.phase t = .ready target invalidates) :
      Turned s (.commit t) { s.set t (.ended true) with
        profiles := s.profiles.commit t
        matchScores :=
          if invalidates then s.matchScores.filter (·.profileId ≠ target) else s.matchScores
        lastActivated := if (call t).activates then some target else s.lastActivated }
  | rollsBack {t : τ} :
      Turned s (.rollback t) { s.set t (.ended false) with profiles := s.profiles.rollback t }

theorem ActivationRace.update_some {id : Nat} {f : ProfileRow → ProfileRow} (h : s.update t id f = some s') :
    ¬ s.profiles.waits t id = true ∧ ∃ newest, s.profiles.visible t id = some newest ∧
      s' = { s with profiles := s.profiles.write t id (some (f newest)) } := by
  unfold ActivationRace.update at h
  split at h
  · cases h
  · next hwaits =>
    obtain ⟨newest, hvisible, rfl⟩ := Option.map_eq_some_iff.mp h
    exact ⟨hwaits, newest, hvisible, rfl⟩

theorem ProfileInv.below {id : Nat} {row : ProfileRow} (h : ProfileInv call s)
    (hvisible : s.profiles.visible t id = some row) : id < s.nextProfileId := by
  by_contra hnot
  obtain ⟨hcommitted, hwritten⟩ := h.above id (by omega)
  have hnone : ¬ s.profiles.Holds t id := by
    rintro ⟨version, hheld⟩
    cases hwritten.symm.trans hheld
  rw [Table.visible_of_not_holds hnone, hcommitted] at hvisible
  cases hvisible

/-- A statement that writes nothing takes the transaction from one phase to another. -/
theorem ProfileInv.reads {phase phase' : ProfilePhase} (h : ProfileInv call s)
    (hevent : ∀ t, e ≠ .commit t) (hphase : s.phase e.caller = phase) (hfound : phase ≠ .notFound)
    (hmatches : Matches call s e.caller phase → Matches call s e.caller phase') :
    Turned call s e (s.set e.caller phase') := by
  have hmatched := h.matched e.caller
  rw [hphase] at hmatched
  exact .reads hevent (hphase ▸ hfound) (hmatches hmatched)

/-- So does an `UPDATE` of one row. -/
theorem ProfileInv.updates {phase phase' : ProfilePhase} {id : Nat} {f : ProfileRow → ProfileRow}
    (h : ProfileInv call s) (hevent : ∀ t, e ≠ .commit t) (hphase : s.phase e.caller = phase)
    (hfound : phase ≠ .notFound)
    (hmatches : ∀ newest, s.profiles.visible e.caller id = some newest →
      Matches call s e.caller phase → Matches call
        { s with profiles := s.profiles.write e.caller id (some (f newest)) } e.caller phase')
    (hstep : (s.update e.caller id f).map (·.set e.caller phase') = some s') :
    Turned call s e s' := by
  obtain ⟨updated, hupdate, rfl⟩ := Option.map_eq_some_iff.mp hstep
  obtain ⟨hwaits, newest, hvisible, rfl⟩ := ActivationRace.update_some hupdate
  have hmatched := h.matched e.caller
  rw [hphase] at hmatched
  exact .writes hevent (hphase ▸ hfound) hwaits (h.below hvisible)
    (Nat.le_refl _) (hmatches newest hvisible hmatched)

/-- What the transaction sees of the rows is as active as what is committed. -/
theorem Quiet.visible {id : Nat} (h : Quiet s t target) :
    (s.profiles.visible t id).any (·.isActive) =
      (s.profiles.committed id).any (·.isActive) := by
  by_cases hholds : s.profiles.Holds t id
  · obtain ⟨version, hwritten⟩ := hholds
    rw [Table.visible_of_written hwritten]
    exact (h id version hwritten).2
  · rw [Table.visible_of_not_holds hholds]

omit [DecidableEq τ] in
theorem Quiet.write {row : ProfileRow} (h : Quiet s t target)
    (hactive : row.isActive = (s.profiles.committed target).any (·.isActive)) :
    Quiet { s with profiles := s.profiles.write t target (some row) } t target := by
  intro id version hwritten
  rw [Table.written_write] at hwritten
  split at hwritten
  · next hid =>
    obtain rfl := (Prod.mk.inj (Option.some.inj hwritten)).2
    exact ⟨hid, hid ▸ hactive⟩
  · exact h id version hwritten

omit [DecidableEq τ] in
theorem Deactivated.write {id : Nat} {row : ProfileRow} (h : Deactivated s t target)
    (hinactive : id ≠ target → row.isActive = false) :
    Deactivated { s with profiles := s.profiles.write t id (some row) } t target := by
  intro id' version hwritten hne
  rw [Table.written_write] at hwritten
  split at hwritten
  · next hid =>
    obtain rfl := (Prod.mk.inj (Option.some.inj hwritten)).2
    exact hinactive (hid ▸ hne)
  · exact h id' version hwritten hne

theorem turned_of_step (h : ProfileInv call s) (hstep : activationStep call s e = some s') :
    Turned call s e s' := by
  cases e with
  | load t =>
      simp only [activationStep] at hstep
      split at hstep
      · next profile profileId activate hphase hcall =>
        split at hstep
        · obtain rfl := Option.some.inj hstep
          exact h.reads (by simp) hphase (by simp) fun hnone => quiet_of_none hnone
        · obtain rfl := Option.some.inj hstep
          exact h.reads (by simp) hphase (by simp) fun hnone => hnone
      · next profile activate hphase hcall =>
        split at hstep
        · obtain rfl := Option.some.inj hstep
          exact h.reads (by simp) hphase (by simp) fun hnone => quiet_of_none hnone
        · obtain rfl := Option.some.inj hstep
          exact h.reads (by simp) hphase (by simp) fun hnone => hnone
      · cases hstep
  | loadByName t =>
      simp only [activationStep] at hstep
      split at hstep
      · next hphase =>
        split at hstep
        · obtain rfl := Option.some.inj hstep
          exact h.reads (by simp) hphase (by simp) fun hnone => quiet_of_none hnone
        · obtain rfl := Option.some.inj hstep
          exact h.reads (by simp) hphase (by simp) fun hnone => hnone
      · cases hstep
  | insert t =>
      simp only [activationStep] at hstep
      split at hstep
      · next hphase =>
        split at hstep
        · cases hstep
        · have hnone := h.matched t
          rw [hphase] at hnone
          obtain ⟨hcommitted, hwritten⟩ := h.above s.nextProfileId (Nat.le_refl _)
          have hwaits : ¬ s.profiles.waits t s.nextProfileId = true := by
            simp [Table.waits, hwritten]
          have hquiet : ∀ row : ProfileRow, row.isActive = false → Quiet
              { s with profiles := s.profiles.write t s.nextProfileId (some row) } t
              s.nextProfileId := fun row hinactive =>
            (quiet_of_none hnone).write (by rw [hinactive, hcommitted]; rfl)
          have hfound : s.phase t ≠ .notFound := by simp [hphase]
          split at hstep
          · next profile profileId activate hcall =>
            obtain rfl := Option.some.inj hstep
            rw [hcall]
            exact .writes (by simp) hfound hwaits (Nat.lt_succ_self _) (Nat.le_succ _) (hquiet _ rfl)
          · next uuid profile hcall =>
            obtain rfl := Option.some.inj hstep
            rw [hcall]
            refine .writes (by simp) hfound hwaits (Nat.lt_succ_self _) (Nat.le_succ _) ?_
            have hdraft : ¬ (call t).activates = true := by simp [hcall, ProfileCall.activates]
            exact (if_neg hdraft).mpr (hquiet _ rfl)
      · cases hstep
  | flush t =>
      simp only [activationStep] at hstep
      split at hstep
      · next row hphase =>
        split at hstep
        · refine h.updates (by simp) hphase (by simp) (fun newest hvisible hquiet => ?_) hstep
          refine Quiet.write hquiet ?_
          change s.profiles.visible t row.id = some newest at hvisible
          have hseen := @Quiet.visible τ _ s t row.id row.id hquiet
          rw [hvisible] at hseen
          exact ProfileCall.flushed_isActive.trans hseen
        · obtain rfl := Option.some.inj hstep
          exact h.reads (by simp) hphase (by simp) fun hquiet => hquiet
      · cases hstep
  | deactivate t =>
      simp only [activationStep] at hstep
      split at hstep
      · next row hphase =>
        split at hstep
        · next hactivates =>
          obtain rfl := Option.some.inj hstep
          exact h.reads (by simp) hphase (by simp) fun hquiet => ⟨hactivates, Quiet.deactivated hquiet⟩
        · cases hstep
      · cases hstep
  | deactivateRow t id =>
      simp only [activationStep] at hstep
      split at hstep
      · next row left hphase =>
        split at hstep
        · refine h.updates (by simp) hphase (by simp) (fun newest _ hmatched => ?_) hstep
          exact ⟨hmatched.1, Deactivated.write hmatched.2 fun _ => rfl⟩
        · cases hstep
      · cases hstep
  | activate t =>
      simp only [activationStep] at hstep
      split at hstep
      · next row hphase =>
        refine h.updates (by simp) hphase (by simp) (fun newest _ hmatched => ?_) hstep
        refine ⟨hmatched.1, Deactivated.write hmatched.2 fun hne => absurd rfl hne, ?_⟩
        exact ⟨_, by rw [Table.written_write, if_pos rfl], rfl⟩
      · cases hstep
  | refresh t =>
      simp only [activationStep] at hstep
      split at hstep
      · next row hphase =>
        obtain ⟨found, _, rfl⟩ := Option.map_eq_some_iff.mp hstep
        refine h.reads (by simp) hphase (by simp) fun hmatched => ?_
        exact (if_pos hmatched.1).mpr hmatched.2
      · next row hphase =>
        split at hstep
        · cases hstep
        · next hactivates =>
          obtain ⟨found, _, rfl⟩ := Option.map_eq_some_iff.mp hstep
          exact h.reads (by simp) hphase (by simp) fun hquiet => (if_neg hactivates).mpr hquiet
      · cases hstep
  | invalidate t =>
      simp only [activationStep] at hstep
      split at hstep
      · next row isActive hphase =>
        obtain rfl := Option.some.inj hstep
        exact h.reads (by simp) hphase (by simp) fun hprepared => hprepared
      · cases hstep
  | commit t =>
      simp only [activationStep] at hstep
      split at hstep
      · next profileId invalidates hphase =>
        obtain rfl := Option.some.inj hstep
        exact .commits hphase
      · cases hstep
  | rollback t =>
      simp only [activationStep] at hstep
      split at hstep
      · cases hstep
      · obtain rfl := Option.some.inj hstep
        exact .rollsBack

theorem ActivationRace.set_phase {phase : ProfilePhase} :
    (s.set t phase).phase t' = if t' = t then phase else s.phase t' :=
  Function.update_apply ..

/-- A step of one transaction leaves what the others have written, and their rows. -/
theorem ProfileInv.matched_set {phase : ProfilePhase} (h : ProfileInv call s)
    (hphase : s'.phase = (s.set t phase).phase) (hmatches : Matches call s' t phase)
    (hwritten : ∀ t', t' ≠ t → ∀ id version, s'.profiles.written id = some (t', version) ↔
      s.profiles.written id = some (t', version))
    (hcommitted : ∀ t', t' ≠ t → ∀ id, s.profiles.Holds t' id →
      s'.profiles.committed id = s.profiles.committed id) (t' : τ) :
    Matches call s' t' (s'.phase t') := by
  rw [hphase, ActivationRace.set_phase]
  split
  · next heq =>
    rw [heq]
    exact hmatches
  · next hne => exact (h.matched t').frame (hwritten t' hne) (hcommitted t' hne)

theorem Turned.inv (h : ProfileInv call s) (hturned : Turned call s e s') : ProfileInv call s' := by
  cases hturned with
  | @reads _ phase hevent hfound hmatches =>
      refine ⟨h.above, h.matched_set rfl ?_ (fun _ _ _ _ => Iff.rfl) fun _ _ _ _ => rfl⟩
      exact hmatches.frame (fun _ _ => Iff.rfl) fun _ _ => rfl
  | @writes _ phase id nextProfileId row hevent hfound hwaits hid hnext hmatches =>
      refine ⟨fun id' hid' => ?_, h.matched_set rfl ?_ (fun t' hne id' version => ?_)
        fun _ _ _ _ => rfl⟩
      · obtain ⟨hcommitted, hwritten⟩ := h.above id' (hnext.trans hid')
        refine ⟨hcommitted, ?_⟩
        rw [Table.written_write, if_neg]
        · exact hwritten
        · rintro rfl
          exact absurd hid (Nat.not_lt.mpr hid')
      · exact hmatches.frame (fun _ _ => Iff.rfl) fun _ _ => rfl
      · rw [Table.written_write]
        split
        · next hsame =>
          subst hsame
          constructor
          · exact fun hwritten => absurd (Prod.mk.inj (Option.some.inj hwritten)).1.symm hne
          · exact fun hwritten => absurd (Table.eq_of_not_waits hwaits ⟨version, hwritten⟩) hne
        · rfl
  | @commits t target invalidates hphase =>
      refine ⟨fun id hid => ?_, h.matched_set rfl ?_ (fun t' hne id version => ?_)
        fun t' hne id hholds => ?_⟩
      · obtain ⟨hcommitted, hwritten⟩ := h.above id hid
        have hnot : ¬ s.profiles.Holds t id := by
          rintro ⟨version, hheld⟩
          cases hwritten.symm.trans hheld
        exact ⟨(Table.visible_of_not_holds hnot).trans hcommitted, by
          simp [Table.commit, Table.release, hwritten]⟩
      · exact fun id hholds => (Table.holds_commit.mp hholds).1 rfl
      · exact Table.release_eq.trans (and_iff_right_of_imp fun _ => hne)
      · exact Table.committed_commit_of_not_holds fun hheld => hne (hheld.unique hholds)
  | @rollsBack t =>
      refine ⟨fun id hid => ?_, h.matched_set rfl ?_ (fun t' hne id version => ?_)
        fun _ _ _ _ => rfl⟩
      · obtain ⟨hcommitted, hwritten⟩ := h.above id hid
        exact ⟨hcommitted, by simp [Table.rollback, Table.release, hwritten]⟩
      · exact fun id hholds => (Table.holds_rollback.mp hholds).1 rfl
      · exact Table.release_eq.trans (and_iff_right_of_imp fun _ => hne)

/-! ## The active profiles -/

theorem not_found_harmless (h : ProfileInv call s) (hstep : activationStep call s e = some s')
    (hphase : s.phase e.caller = .notFound ∨ s'.phase e.caller = .notFound) :
    s'.profiles.committed = s.profiles.committed ∧ s'.matchScores = s.matchScores ∧
      ∀ id, ¬ s'.profiles.Holds e.caller id := by
  cases turned_of_step h hstep with
  | @reads _ phase hevent hfound hmatches =>
      have hnow := hphase.resolve_left hfound
      rw [ActivationRace.set_phase, if_pos rfl] at hnow
      subst hnow
      exact ⟨rfl, rfl, hmatches⟩
  | @writes _ phase id nextProfileId row hevent hfound hwaits hid hnext hmatches =>
      have hnow := hphase.resolve_left hfound
      change (s.set e.caller phase).phase e.caller = .notFound at hnow
      rw [ActivationRace.set_phase, if_pos rfl] at hnow
      subst hnow
      exact ⟨rfl, rfl, hmatches⟩
  | @commits t target invalidates hready =>
      rcases hphase with hbefore | hafter
      · cases hready.symm.trans hbefore
      · change (s.set t (.ended true)).phase t = .notFound at hafter
        rw [ActivationRace.set_phase, if_pos rfl] at hafter
        cases hafter
  | rollsBack =>
      exact ⟨rfl, rfl, fun id hholds => (Table.holds_rollback.mp hholds).1 rfl⟩

section Active

omit [DecidableEq τ]

def IsActive (s : ActivationRace τ) (id : Nat) : Prop :=
  ∃ row, s.profiles.committed id = some row ∧ row.isActive = true

theorem isActive_iff {id : Nat} :
    IsActive s id ↔ (s.profiles.committed id).any (·.isActive) = true := by
  rw [Option.any_eq_true]
  rfl

structure OneActive (s : ActivationRace τ) : Prop where
  one : ∀ id id', IsActive s id → IsActive s id' → id = id'
  last : ∀ target, s.lastActivated = some target → ∀ id, IsActive s id ↔ id = target

theorem OneActive.of_same (h : OneActive s) (hactive : ∀ id, IsActive s' id ↔ IsActive s id)
    (hlast : s'.lastActivated = s.lastActivated) : OneActive s' where
  one id id' hid hid' := h.one id id' ((hactive id).mp hid) ((hactive id').mp hid')
  last target htarget id := (hactive id).trans (h.last target (hlast ▸ htarget) id)

end Active

theorem activationSound_iff (h : ProfileInv call s) : ActivationSound call s ↔ OneActive s := by
  constructor
  · intro hsound
    refine ⟨?_, hsound.last⟩
    rintro id id' ⟨row, hrow, hactive⟩ ⟨row', hrow', hactive'⟩
    exact hsound.one id id' row row' hrow hrow' hactive hactive'
  · intro hone
    refine ⟨?_, hone.last, fun e s' hstep hphase => not_found_harmless h hstep hphase⟩
    exact fun id id' row row' hrow hrow' hactive hactive' =>
      hone.one id id' ⟨row, hrow, hactive⟩ ⟨row', hrow', hactive'⟩

/-- A commit that activates nothing leaves every profile as active as it was. -/
theorem Quiet.commit {id : Nat} (h : Quiet s t target) {committed : ActivationRace τ}
    (hcommitted : committed.profiles = s.profiles.commit t) :
    IsActive committed id ↔ IsActive s id := by
  rw [isActive_iff, isActive_iff, hcommitted]
  change (s.profiles.visible t id).any (·.isActive) = true ↔ _
  rw [h.visible]

/-- After the commit of an activation, its target is active, and the profiles that were
active and that it has not updated. -/
theorem Activated.commit {id : Nat} (h : Activated s t target) {committed : ActivationRace τ}
    (hcommitted : committed.profiles = s.profiles.commit t) :
    IsActive committed id ↔ id = target ∨ IsActive s id ∧ ¬ s.profiles.Holds t id := by
  obtain ⟨hinactive, row, hwritten, hactive⟩ := h
  rw [isActive_iff, hcommitted]
  change (s.profiles.visible t id).any (·.isActive) = true ↔ _
  by_cases hholds : s.profiles.Holds t id
  · obtain ⟨version, hversion⟩ := hholds
    rw [Table.visible_of_written hversion]
    constructor
    · intro hnow
      left
      by_contra hne
      rw [hinactive id version hversion hne] at hnow
      cases hnow
    · rintro (rfl | ⟨_, hnot⟩)
      · obtain rfl := (Prod.mk.inj (Option.some.inj (hwritten.symm.trans hversion))).2
        exact hactive
      · exact absurd ⟨version, hversion⟩ hnot
  · rw [Table.visible_of_not_holds hholds, ← isActive_iff]
    constructor
    · exact fun hold => .inr ⟨hold, hholds⟩
    · rintro (rfl | ⟨hold, _⟩)
      · exact absurd ⟨_, hwritten⟩ hholds
      · exact hold

/-- An activation leaves its target alone active exactly when it has updated the profile
that is active when it commits. -/
theorem Activated.oneActive_iff (h : Activated s t target) {committed : ActivationRace τ}
    (hcommitted : committed.profiles = s.profiles.commit t)
    (hlast : committed.lastActivated = some target) :
    OneActive committed ↔ ∀ id, IsActive s id → s.profiles.Holds t id := by
  have hheld : s.profiles.Holds t target := by
    obtain ⟨_, row, hwritten, _⟩ := h
    exact ⟨some row, hwritten⟩
  constructor
  · intro hone id hactive
    by_contra hnot
    have hstill : IsActive committed id := (h.commit hcommitted).mpr (.inr ⟨hactive, hnot⟩)
    obtain rfl := (hone.last target hlast id).mp hstill
    exact hnot hheld
  · intro hupdated
    have hactive : ∀ id, IsActive committed id ↔ id = target := fun id =>
      (h.commit hcommitted).trans (or_iff_left fun hold => hold.2 (hupdated id hold.1))
    refine ⟨fun id id' hid hid' => ?_, fun target' htarget => ?_⟩
    · exact ((hactive id).mp hid).trans ((hactive id').mp hid').symm
    · obtain rfl := Option.some.inj (hlast.symm.trans htarget)
      exact hactive

omit [DecidableEq τ] in
theorem activeUpdated_of_ne (hevent : ∀ t, e ≠ .commit t) : ActiveUpdated call s e := by
  cases e with
  | commit t => exact absurd rfl (hevent t)
  | _ => trivial

theorem Turned.oneActive (h : ProfileInv call s) (hone : OneActive s) (hturned : Turned call s e s') :
    OneActive s' ↔ ActiveUpdated call s e := by
  cases hturned with
  | reads hevent hfound hmatches =>
      exact iff_of_true (hone.of_same (fun _ => Iff.rfl) rfl) (activeUpdated_of_ne hevent)
  | writes hevent hfound hwaits hid hnext hmatches =>
      exact iff_of_true (hone.of_same (fun _ => Iff.rfl) rfl) (activeUpdated_of_ne hevent)
  | @commits t target invalidates hphase =>
      have hprepared := h.matched t
      rw [hphase] at hprepared
      change (if (call t).activates then Activated s t target else Quiet s t target) at hprepared
      by_cases hactivates : (call t).activates = true
      · rw [if_pos hactivates] at hprepared
        refine (hprepared.oneActive_iff rfl (if_pos hactivates)).trans ?_
        constructor
        · exact fun hupdated _ id row hrow hactive => hupdated id ⟨row, hrow, hactive⟩
        · rintro hupdated id ⟨row, hrow, hactive⟩
          exact hupdated hactivates id row hrow hactive
      · rw [if_neg hactivates] at hprepared
        refine iff_of_true (hone.of_same (fun id => hprepared.commit rfl) (if_neg hactivates)) ?_
        exact fun hnow => absurd hnow hactivates
  | rollsBack => exact iff_of_true (hone.of_same (fun _ => Iff.rfl) rfl) trivial

omit [DecidableEq τ] in
theorem ProfileInv.start : ProfileInv call (.start call nextProfileId matchScores) := by
  refine ⟨fun _ _ => ⟨rfl, rfl⟩, fun t => ?_⟩
  have hnone : ∀ id, ¬ (ActivationRace.start call nextProfileId matchScores).profiles.Holds t id := by
    rintro id ⟨version, hwritten⟩
    cases hwritten
  change Matches call _ t (call t).begin
  cases call t <;> exact hnone

/-- From the empty table on, all along a run at most one profile is active, the target of
the last activation, exactly when every activation of the run has updated the profile that is
active when it commits. -/
theorem one_active_profile_iff {es : List (ProfileEvent τ)} {u : ActivationRace τ}
    (hrun : exec (activationStep call) (.start call nextProfileId matchScores) es = some u) :
    (∀ s, Reaches (activationStep call) (.start call nextProfileId matchScores) es s →
        ActivationSound call s) ↔
      Along (activationStep call) (ActiveUpdated call)
        (.start call nextProfileId matchScores) es := by
  have hinv : ∀ (s : ActivationRace τ) e s', ProfileInv call s → activationStep call s e = some s' →
      ProfileInv call s' := fun s e s' h hstep => (turned_of_step h hstep).inv h
  have hupdated : ∀ (s : ActivationRace τ) e s', ProfileInv call s → OneActive s →
      activationStep call s e = some s' → (OneActive s' ↔ ActiveUpdated call s e) :=
    fun s e s' h hone hstep => (turned_of_step h hstep).oneActive h hone
  have hnone : OneActive (ActivationRace.start call nextProfileId matchScores) := by
    refine ⟨?_, nofun⟩
    rintro id id' ⟨row, hrow, _⟩
    cases hrow
  rw [← everywhere_iff_along hinv hupdated .start hnone hrun]
  refine forall_congr' fun s => forall_congr' fun hreach => activationSound_iff ?_
  exact invariant hinv .start hreach

/-! ## The first profile, and a draft that is activated meanwhile -/

def firstProfile : Profile := { Profile.empty with headline := some "junior" }

def draftProfile : Profile := { Profile.empty with headline := some "senior" }

/-- A first save, a draft, and the activation of the draft. -/
def firstSaveAndDraft : Fin 3 → ProfileCall
  | 0 => .upsert firstProfile none true
  | 1 => .createDraft "b1" draftProfile
  | 2 => .upsert draftProfile (some 2) true

/-- One call after the other. -/
def draftAfter : List (ProfileEvent (Fin 3)) :=
  [.load 0, .loadByName 0, .insert 0, .flush 0, .deactivate 0, .activate 0, .refresh 0,
    .invalidate 0, .commit 0, .insert 1, .commit 1, .load 2, .flush 2, .deactivate 2,
    .deactivateRow 2 1, .activate 2, .refresh 2, .invalidate 2, .commit 2]

/-- The draft comes and is activated between the two `UPDATE`s of the first save. -/
def draftBetween : List (ProfileEvent (Fin 3)) :=
  [.load 0, .loadByName 0, .insert 0, .flush 0, .deactivate 0, .insert 1, .commit 1, .load 2,
    .flush 2, .deactivate 2, .activate 2, .refresh 2, .invalidate 2, .commit 2, .activate 0,
    .refresh 0, .invalidate 0, .commit 0]

theorem one_active_profile_iff_draft_after :
    ∃ u, exec (activationStep firstSaveAndDraft) (.start firstSaveAndDraft 1 []) draftAfter = some u ∧
      ((∀ s, Reaches (activationStep firstSaveAndDraft) (.start firstSaveAndDraft 1 []) draftAfter s →
          ActivationSound firstSaveAndDraft s) ↔
        Along (activationStep firstSaveAndDraft) (ActiveUpdated firstSaveAndDraft)
          (.start firstSaveAndDraft 1 []) draftAfter) :=
  ⟨_, rfl, one_active_profile_iff rfl⟩

/-- Both profiles are active in the end. -/
theorem two_active_profiles :
    ∃ u row row', exec (activationStep firstSaveAndDraft) (.start firstSaveAndDraft 1 [])
        draftBetween = some u ∧
      u.profiles.committed 1 = some row ∧ row.isActive = true ∧
      u.profiles.committed 2 = some row' ∧ row'.isActive = true ∧
      ¬ ActivationSound firstSaveAndDraft u := by
  refine ⟨_, _, _, rfl, rfl, rfl, rfl, rfl, fun hsound => ?_⟩
  exact absurd (hsound.one 1 2 _ _ rfl rfl rfl rfl) (by decide)

end RecruFlow.Db
