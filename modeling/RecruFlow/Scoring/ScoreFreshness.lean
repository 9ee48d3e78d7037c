import RecruFlow.Lib.Trace
import RecruFlow.Scoring.Batch

/-!
# Are the scores of the active profile current?

A save deletes the scores of a profile that is active afterwards and whose data
it changed. Scores of a profile that was edited while it was inactive survive,
and come back with it when a later save activates it without a change.
-/

namespace RecruFlow.Scoring

open Db Lib.Trace Schemas

/-- What happens to the tables, one thing after another. -/
inductive Op where
  | createDraft (uuid : String) (profile : Profile)
  | upsert (profile : Profile) (profileId : Option Nat) (activate : Bool)
  | batch (env : BatchEnv)
  /-- Ingestion, settings and retries rewrite the tables that hold no profiles or scores. -/
  | others (sources : List Source) (offers : List OfferRow)
      (ingestionFailures : List IngestionFailure) (scoringFailures : List ScoringFailure)

def opStep (db : Database) : Op → Option Database
  | .createDraft uuid profile => some (createDraftProfile uuid profile db)
  | .upsert profile profileId activate =>
      match upsertProfile profile profileId activate db with
      | .ok db' => some db'
      -- an unknown id is answered with 404, and nothing is written
      | .error _ => some db
  | .batch env =>
      match runBatchScoring env db with
      | .ok (_, db') => some db'
      -- a batch that raises is rolled back
      | .error _ => none
  | .others sources offers ingestionFailures scoringFailures => some { db with
      sources, offers, ingestionFailures, scoringFailures }

/-- Every score of an active profile was computed from its current data. -/
def ScoresFresh (db : Database) : Prop :=
  ∀ row ∈ db.profiles, row.isActive → ∀ score ∈ db.matchScores,
    score.profileId = row.id → row.data = some score.computedFrom

/-- A save that activates an inactive profile without changing its data finds
only scores computed from that data. -/
def ActivatesFresh (db : Database) : Op → Prop
  | .upsert profile profileId activate => ∀ row, existingProfile db profileId = some row →
      activate = true → row.isActive = false → row.data = some profile →
      ∀ score ∈ db.matchScores, score.profileId = row.id → score.computedFrom = profile
  | _ => True

/-- What every operation keeps: ids are their own, and no row is left with `{}`. -/
structure ProfilesStored (db : Database) : Prop where
  ids : ProfileIds db
  data : ∀ row ∈ db.profiles, row.data.isSome

variable {db db' : Database} {profile : Profile} {profileId : Option Nat} {activate : Bool}

/-! ## Saves -/

private theorem profilesStored_upsert (hdb : ProfilesStored db)
    (h : upsertProfile profile profileId activate db = .ok db') : ProfilesStored db' := by
  obtain ⟨row, middle, hresolve, hprofiles, hnext, _⟩ := upsertProfile_ok hdb.ids h
  obtain ⟨_, hids, _, hcases⟩ := resolveProfile_ok hdb.ids hresolve
  have hkept : ∀ r, (savedRow row.id profile activate r).id = r.id := fun _ => rfl
  refine ⟨hids.of_map hkept hprofiles hnext, ?_⟩
  intro r hr
  rw [hprofiles] at hr
  obtain ⟨old, hold, rfl⟩ := List.mem_map.mp hr
  by_cases htarget : old.id = row.id
  · simp [savedRow, htarget]
  · have hmem : old ∈ db.profiles := by
      rcases hcases with ⟨_, hsame⟩ | ⟨_, _, _, hadded⟩
      · rwa [hsame] at hold
      · rw [hadded] at hold
        rcases List.mem_append.mp hold with hold | hold
        · exact hold
        · exact absurd (by rw [List.mem_singleton.mp hold]) htarget
    simpa [savedRow, htarget] using hdb.data old hmem

/-- Exactly the activation of an inactive, unchanged profile can bring back old scores. -/
private theorem scoresFresh_upsert_iff (hdb : ProfilesStored db) (hfresh : ScoresFresh db)
    (h : upsertProfile profile profileId activate db = .ok db') :
    ScoresFresh db' ↔ ActivatesFresh db (.upsert profile profileId activate) := by
  obtain ⟨row, middle, hresolve, hprofiles, _, hscores⟩ := upsertProfile_ok hdb.ids h
  obtain ⟨hrow, hids, hsame, hcases⟩ := resolveProfile_ok hdb.ids hresolve
  rw [hsame] at hscores
  have hsaved : savedRow row.id profile activate row ∈ db'.profiles := by
    rw [hprofiles]
    exact List.mem_map_of_mem hrow
  constructor
  · intro hfresh' found hfound hactivate hinactive hdata score hscore hid
    obtain rfl : found = row := by
      rcases hcases with ⟨hexisting, _⟩ | ⟨hnone, _⟩
      · exact Option.some.inj (hfound.symm.trans hexisting)
      · rw [hnone] at hfound
        cases hfound
    rw [if_neg (by simp [hdata])] at hscores
    have hcurrent := hfresh' _ hsaved (by simp [savedRow, hactivate]) score
      (by rwa [hscores]) hid
    simpa [savedRow, eq_comm] using hcurrent
  · intro hcond r hr hactive score hscore hid
    have hscore' : score ∈ db.matchScores := by
      rw [hscores] at hscore
      split at hscore
      · exact (List.mem_filter.mp hscore).1
      · exact hscore
    rw [hprofiles] at hr
    obtain ⟨old, hold, rfl⟩ := List.mem_map.mp hr
    by_cases htarget : old.id = row.id
    · -- the saved row: its scores were kept only if its data is as before
      obtain rfl := hids.eq_of_id hold hrow htarget
      have hdata : old.data = some profile := by
        by_contra hchanged
        have hact : (activate || old.isActive) = true := by
          cases activate with
          | true => rfl
          | false => simpa [savedRow] using hactive
        rw [if_pos ⟨hact, hchanged⟩] at hscores
        rw [hscores] at hscore
        have hother := of_decide_eq_true (List.mem_filter.mp hscore).2
        exact hother hid
      obtain ⟨hexisting, hprofiles'⟩ : existingProfile db profileId = some old ∧
          middle.profiles = db.profiles := by
        rcases hcases with hfound | ⟨_, _, hnone, _⟩
        · exact hfound
        · rw [hnone] at hdata
          cases hdata
      have hcurrent : score.computedFrom = profile := by
        cases hwas : old.isActive with
        | true =>
            have hkept := hfresh old (hprofiles' ▸ hold) hwas score hscore' hid
            exact Option.some.inj (hkept.symm.trans hdata)
        | false =>
            have hactivate : activate = true := by
              cases activate
              · simp [savedRow, hwas] at hactive
              · rfl
            exact hcond old hexisting hactivate hwas hdata score hscore' hid
      simp [savedRow, hcurrent]
    · -- another row is active only if nothing was activated, and is as it was
      have hkeep : activate = false ∧ old.isActive = true := by
        cases activate with
        | true => simp [savedRow, htarget] at hactive
        | false => exact ⟨rfl, by simpa [savedRow] using hactive⟩
      have hold' : old ∈ db.profiles := by
        rcases hcases with ⟨_, hprofiles'⟩ | ⟨_, _, _, hadded⟩
        · rwa [hprofiles'] at hold
        · rw [hadded] at hold
          rcases List.mem_append.mp hold with hold | hold
          · exact hold
          · exact absurd (by rw [List.mem_singleton.mp hold]) htarget
      simpa [savedRow, htarget] using hfresh old hold' hkeep.2 score hscore' hid

/-! ## Every operation -/

theorem profilesStored_step {op : Op} (hdb : ProfilesStored db) (h : opStep db op = some db') :
    ProfilesStored db' := by
  cases op with
  | createDraft uuid profile =>
      obtain rfl := Option.some.inj h
      refine ⟨hdb.ids.insertProfile .., fun row hrow => ?_⟩
      rcases List.mem_append.mp hrow with hrow | hrow
      · exact hdb.data row hrow
      · rw [List.mem_singleton.mp hrow]
        rfl
  | upsert profile profileId activate =>
      simp only [opStep] at h
      split at h
      · next saved hsaved =>
        obtain rfl := Option.some.inj h
        exact profilesStored_upsert hdb hsaved
      · exact Option.some.inj h ▸ hdb
  | batch env =>
      simp only [opStep] at h
      split at h
      · next summary after hbatch =>
        obtain rfl := Option.some.inj h
        obtain ⟨_, _, hbatch⟩ := bind_ok hbatch
        obtain ⟨⟨_, writes⟩, _, hafter⟩ := bind_ok hbatch
        obtain ⟨rows, hrows⟩ := apply_eq writes env.startedAt db
        obtain rfl : writes.apply env.startedAt db = after :=
          (Prod.mk.inj (Except.ok.inj hafter)).2
        rw [hrows]
        exact ⟨⟨hdb.ids.nodup, hdb.ids.below⟩, hdb.data⟩
      · cases h
  | others sources offers ingestionFailures scoringFailures =>
      obtain rfl := Option.some.inj h
      exact ⟨⟨hdb.ids.nodup, hdb.ids.below⟩, hdb.data⟩

private theorem scoresFresh_batch {env : BatchEnv} (hdb : ProfilesStored db)
    (hfresh : ScoresFresh db) {summary : BatchScoringSummary}
    (h : runBatchScoring env db = .ok (summary, db')) : ScoresFresh db' := by
  obtain ⟨batch, hselect, h⟩ := bind_ok h
  obtain ⟨⟨_, writes⟩, hscore, hafter⟩ := bind_ok h
  obtain rfl : writes.apply env.startedAt db = db' := (Prod.mk.inj (Except.ok.inj hafter)).2
  obtain ⟨rows, hrows⟩ := apply_eq writes env.startedAt db
  rw [hrows]
  intro row hrow hactive score hmem hid
  rcases List.mem_append.mp hmem with hmem | hmem
  · exact hfresh row hrow hactive score hmem hid
  · -- a new score belongs to the profile that the batch read
    rcases scoreBatch_scores hscore with hnil | ⟨b, rfl, hall, _⟩
    · rw [hnil] at hmem
      cases hmem
    · obtain ⟨hprofileId, hdata⟩ := hall score hmem
      have hread : b.profileRow ∈ db.profiles :=
        List.mem_of_find?_eq_some (selectBatch_some hselect).1
      obtain rfl := hdb.ids.eq_of_id hread hrow (hprofileId.symm.trans hid)
      obtain ⟨data, hsome⟩ := Option.isSome_iff_exists.mp (hdb.data _ hread)
      rw [hdata, hsome]
      rfl

theorem scoresFresh_step_iff {op : Op} (hdb : ProfilesStored db) (hfresh : ScoresFresh db)
    (h : opStep db op = some db') : ScoresFresh db' ↔ ActivatesFresh db op := by
  cases op with
  | createDraft uuid profile =>
      obtain rfl := Option.some.inj h
      refine iff_of_true (fun row hrow hactive score hscore hid => ?_) trivial
      rcases List.mem_append.mp hrow with hrow | hrow
      · exact hfresh row hrow hactive score hscore hid
      · rw [List.mem_singleton.mp hrow] at hactive
        cases hactive
  | upsert profile profileId activate =>
      simp only [opStep] at h
      split at h
      · next saved hsaved =>
        obtain rfl := Option.some.inj h
        exact scoresFresh_upsert_iff hdb hfresh hsaved
      · next error herror =>
        obtain rfl := Option.some.inj h
        refine iff_of_true hfresh fun row hrow => ?_
        rw [upsertProfile_error herror] at hrow
        cases hrow
  | batch env =>
      simp only [opStep] at h
      split at h
      · next summary after hbatch =>
        obtain rfl := Option.some.inj h
        exact iff_of_true (scoresFresh_batch hdb hfresh hbatch) trivial
      · cases h
  | others sources offers ingestionFailures scoringFailures =>
      obtain rfl := Option.some.inj h
      exact iff_of_true hfresh trivial

/-- In a history from empty tables, the scores of the active profile are current
in every state exactly when every save that activates an inactive profile
without changing its data finds only scores computed from that data. -/
theorem active_scores_fresh_iff {ops : List Op} (hrun : exec opStep {} ops = some db) :
    (∀ s, Reaches opStep {} ops s → ScoresFresh s) ↔ Along opStep ActivatesFresh {} ops := by
  have hempty : ProfilesStored {} := ⟨⟨List.nodup_nil, by simp⟩, by simp⟩
  exact everywhere_iff_along (fun _ _ _ => profilesStored_step)
    (fun _ _ _ => scoresFresh_step_iff) hempty (by intro row hrow; cases hrow) hrun

/-! ## A profile edited while it was inactive -/

def seniorProfile : Profile := { Profile.empty with headline := some "senior" }

/-- The first profile is scored, loses its place to a second one, is edited
meanwhile, and is then activated as it is. -/
def editWhileInactive : List Op :=
  [.others [remotiveSource] [acmeOffer] [] [], .upsert juniorProfile none true,
    .batch sameScore, .createDraft "2" seniorProfile, .upsert seniorProfile (some 2) true,
    .upsert seniorProfile (some 1) false, .upsert seniorProfile (some 1) true]

theorem active_scores_fresh_iff_edit :
    (∀ s, Reaches opStep {} editWhileInactive s → ScoresFresh s) ↔
      Along opStep ActivatesFresh {} editWhileInactive :=
  active_scores_fresh_iff (show exec opStep {} editWhileInactive = some _ from rfl)

/-- The score of the junior profile is shown for the senior one. -/
theorem active_scores_stale :
    ∃ db, exec opStep {} editWhileInactive = some db ∧
      ∃ row ∈ db.profiles, row.isActive = true ∧ row.data = some seniorProfile ∧
        ∃ score ∈ db.matchScores, score.profileId = row.id ∧
          score.computedFrom = juniorProfile ∧ ¬ ScoresFresh db := by
  refine ⟨_, rfl, ⟨1, "active-profile", .active, true, some seniorProfile⟩, .head _, rfl, rfl,
    ⟨1, 1, 80, "fits", juniorProfile⟩, .head _, rfl, rfl, fun h => ?_⟩
  have hcurrent : some seniorProfile = some juniorProfile :=
    h ⟨1, "active-profile", .active, true, some seniorProfile⟩ (.head _) rfl
      ⟨1, 1, 80, "fits", juniorProfile⟩ (.head _) rfl
  exact absurd hcurrent (by decide)

end RecruFlow.Scoring
