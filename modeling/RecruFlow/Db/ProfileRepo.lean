import RecruFlow.Db.Models
import Mathlib.Data.List.Nodup
import Mathlib.Data.Option.Basic

/-!
# Storing profiles

At most one profile is active. A save that changes the data of the active
profile deletes its match scores, so that the next batch computes them anew.
-/

namespace RecruFlow.Db

open Schemas

def defaultProfileName : String := "active-profile"

def getActiveProfile (db : Database) : Option ProfileRow :=
  db.profiles.find? (·.isActive)

def getProfileById (db : Database) (profileId : Nat) : Option ProfileRow :=
  db.profiles.find? (·.id = profileId)

def activateProfile (profileId : Nat) (db : Database) : Database :=
  { db with profiles := db.profiles.map fun row => { row with isActive := row.id = profileId } }

def invalidateScoresForProfile (profileId : Nat) (db : Database) : Database :=
  { db with matchScores := db.matchScores.filter (·.profileId ≠ profileId) }

/-- Insert a profile; the sequence gives it its id. -/
def insertProfile (name : String) (status : ProfileStatus) (data : Option Profile)
    (db : Database) : ProfileRow × Database :=
  let row : ProfileRow := ⟨db.nextProfileId, name, status, false, data⟩
  (row, { db with
    profiles := db.profiles ++ [row]
    nextProfileId := db.nextProfileId + 1 })

/-- The stored row that a save is about, when there is one. -/
def existingProfile (db : Database) : Option Nat → Option ProfileRow
  | some profileId => getProfileById db profileId
  | none => getActiveProfile db <|> db.profiles.find? (·.name = defaultProfileName)

/-- The row that a save is about, inserted when a save without an id finds none. -/
def resolveProfile (profileId : Option Nat) (activate : Bool) (db : Database) :
    Except PyError (ProfileRow × Database) :=
  match existingProfile db profileId, profileId with
  | some row, _ => .ok (row, db)
  | none, some _ => .error .profileNotFound
  | none, none => .ok (insertProfile defaultProfileName (if activate then .active else .draft)
      none db)

/-- `row.data = new_data`, and the status of a row that becomes active. -/
def saveProfileData (profileId : Nat) (profile : Profile) (activate : Bool) (db : Database) :
    Database :=
  { db with
    profiles := db.profiles.map fun row =>
      if row.id = profileId then
        { row with data := some profile, status := if activate then .active else row.status }
      else row }

def upsertProfile (profile : Profile) (profileId : Option Nat) (activate : Bool)
    (db : Database) : Except PyError Database := do
  let (row, db) ← resolveProfile profileId activate db
  let dataChanged := row.data ≠ some profile
  let db := saveProfileData row.id profile activate db
  let db := if activate then activateProfile row.id db else db
  -- the refreshed row decides whether the scores go
  let isActive := (getProfileById db row.id).any (·.isActive)
  pure (if isActive && dataChanged then invalidateScoresForProfile row.id db else db)

def createDraftProfile (uuid : String) (profile : Profile) (db : Database) : Database :=
  (insertProfile ("draft-" ++ uuid) .draft (some profile) db).2

/-! ## What a save does -/

/-- The ids of the profiles are their own, and the sequence is past them. -/
structure ProfileIds (db : Database) : Prop where
  nodup : (db.profiles.map (·.id)).Nodup
  below : ∀ row ∈ db.profiles, row.id < db.nextProfileId

namespace ProfileIds

variable {db : Database}

theorem eq_of_id (h : ProfileIds db) {row row' : ProfileRow} (hrow : row ∈ db.profiles)
    (hrow' : row' ∈ db.profiles) (hid : row.id = row'.id) : row = row' :=
  List.inj_on_of_nodup_map h.nodup hrow hrow' hid

theorem getProfileById_of_mem (h : ProfileIds db) {row : ProfileRow} (hrow : row ∈ db.profiles) :
    getProfileById db row.id = some row := by
  unfold getProfileById
  cases hfind : db.profiles.find? (·.id = row.id) with
  | none => simpa using List.find?_eq_none.mp hfind row hrow
  | some found =>
      have hid : found.id = row.id := by simpa using List.find?_some hfind
      rw [h.eq_of_id (List.mem_of_find?_eq_some hfind) hrow hid]

theorem insertProfile (h : ProfileIds db) (name : String) (status : ProfileStatus)
    (data : Option Profile) : ProfileIds (insertProfile name status data db).2 := by
  constructor
  · rw [Db.insertProfile, List.map_append, List.map_singleton]
    refine List.nodup_append.mpr ⟨h.nodup, List.nodup_singleton _, ?_⟩
    intro id hid id' hid' heq
    obtain ⟨row, hrow, rfl⟩ := List.mem_map.mp hid
    have := h.below row hrow
    have hnew : id' = db.nextProfileId := List.mem_singleton.mp hid'
    omega
  · intro row hrow
    rcases List.mem_append.mp hrow with hrow | hrow
    · have := h.below row hrow
      simp only [Db.insertProfile]
      omega
    · rw [List.mem_singleton.mp hrow]
      exact Nat.lt_succ_self _

theorem of_map (h : ProfileIds db) {db' : Database} {f : ProfileRow → ProfileRow}
    (hf : ∀ row, (f row).id = row.id) (hprofiles : db'.profiles = db.profiles.map f)
    (hnext : db'.nextProfileId = db.nextProfileId) : ProfileIds db' := by
  constructor
  · rw [hprofiles, List.map_map]
    convert h.nodup using 2
    funext row
    exact hf row
  · intro row hrow
    rw [hprofiles] at hrow
    obtain ⟨row', hrow', rfl⟩ := List.mem_map.mp hrow
    rw [hf, hnext]
    exact h.below row' hrow'

end ProfileIds

variable {db db' : Database} {profile : Profile} {profileId : Option Nat} {activate : Bool}

/-- The row of a save is a stored one, or one that was inserted for it. -/
theorem resolveProfile_ok {row : ProfileRow} (hids : ProfileIds db)
    (h : resolveProfile profileId activate db = .ok (row, db')) :
    row ∈ db'.profiles ∧ ProfileIds db' ∧ db'.matchScores = db.matchScores ∧
      ((existingProfile db profileId = some row ∧ db'.profiles = db.profiles) ∨
        (existingProfile db profileId = none ∧ row.isActive = false ∧ row.data = none ∧
          db'.profiles = db.profiles ++ [row])) := by
  unfold resolveProfile at h
  cases hexisting : existingProfile db profileId with
  | some found =>
      simp only [hexisting] at h
      obtain ⟨rfl, rfl⟩ := Prod.mk.inj (Except.ok.inj h)
      refine ⟨?_, hids, rfl, .inl ⟨rfl, rfl⟩⟩
      cases profileId with
      | some id => exact List.mem_of_find?_eq_some hexisting
      | none =>
          rcases (Option.orElse_eq_some _ _ _).mp hexisting with hactive | ⟨_, hname⟩
          · exact List.mem_of_find?_eq_some hactive
          · exact List.mem_of_find?_eq_some hname
  | none =>
    cases profileId with
    | some id => simp [hexisting] at h
    | none =>
    simp only [hexisting] at h
    obtain ⟨rfl, rfl⟩ := Prod.mk.inj (Except.ok.inj h)
    exact ⟨List.mem_append_right _ (List.mem_singleton_self _), hids.insertProfile .., rfl,
      .inr ⟨rfl, rfl, rfl, rfl⟩⟩

/-- A row after a save about the row `target`. -/
def savedRow (target : Nat) (profile : Profile) (activate : Bool) (row : ProfileRow) :
    ProfileRow :=
  { row with
    data := if row.id = target then some profile else row.data
    status := if row.id = target ∧ activate then .active else row.status
    isActive := if activate then row.id = target else row.isActive }

/-- The full effect of a save. -/
theorem upsertProfile_ok (hids : ProfileIds db)
    (h : upsertProfile profile profileId activate db = .ok db') :
    ∃ row middle, resolveProfile profileId activate db = .ok (row, middle) ∧
      db'.profiles = middle.profiles.map (savedRow row.id profile activate) ∧
      db'.nextProfileId = middle.nextProfileId ∧
      db'.matchScores =
        if (activate || row.isActive) ∧ row.data ≠ some profile then
          middle.matchScores.filter (·.profileId ≠ row.id)
        else middle.matchScores := by
  obtain ⟨⟨row, middle⟩, hresolve, h⟩ := bind_ok h
  refine ⟨row, middle, hresolve, ?_⟩
  obtain ⟨hmem, hids', _, _⟩ := resolveProfile_ok hids hresolve
  -- the rows after the data and the active flag are saved
  let saved : Database := { middle with
    profiles := middle.profiles.map (savedRow row.id profile activate) }
  have hsaved : (if activate then activateProfile row.id
      (saveProfileData row.id profile activate middle)
      else saveProfileData row.id profile activate middle) = saved := by
    cases activate with
    | true =>
        simp only [if_true, activateProfile, saveProfileData, saved, List.map_map]
        congr 1
        refine List.map_congr_left fun r _ => ?_
        by_cases hr : r.id = row.id <;> simp [savedRow, hr]
    | false =>
        simp only [Bool.false_eq_true, if_false, saveProfileData, saved]
        congr 1
        refine List.map_congr_left fun r _ => ?_
        by_cases hr : r.id = row.id <;> simp [savedRow, hr]
  have hids'' : ProfileIds saved := hids'.of_map (f := savedRow row.id profile activate) (fun _ => rfl) rfl rfl
  have hmem' : savedRow row.id profile activate row ∈ saved.profiles := List.mem_map_of_mem hmem
  have hactive : (getProfileById saved row.id).any (·.isActive) = (activate || row.isActive) := by
    have hget := hids''.getProfileById_of_mem hmem'
    rw [show (savedRow row.id profile activate row).id = row.id from rfl] at hget
    rw [hget]
    cases activate <;> simp [savedRow]
  have h : (if (getProfileById saved row.id).any (·.isActive) && decide (row.data ≠ some profile)
      then invalidateScoresForProfile row.id saved else saved) = db' := by
    rw [← hsaved]
    exact Except.ok.inj h
  rw [hactive] at h
  subst h
  by_cases hcond : (activate || row.isActive) = true ∧ row.data ≠ some profile
  · rw [if_pos (by simpa using hcond), if_pos hcond]
    exact ⟨rfl, rfl, rfl⟩
  · rw [if_neg (by simpa using hcond), if_neg hcond]
    exact ⟨rfl, rfl, rfl⟩

/-- A save fails only for an id that no row has. -/
theorem upsertProfile_error {e : PyError}
    (h : upsertProfile profile profileId activate db = .error e) :
    existingProfile db profileId = none := by
  rcases bind_error h with hresolve | ⟨_, _, hrest⟩
  · unfold resolveProfile at hresolve
    split at hresolve
    · cases hresolve
    · assumption
    · cases hresolve
  · cases hrest

end RecruFlow.Db
