import RecruFlow.Dlq.RetryFrame
import RecruFlow.Ingestion.OfferStore
import RecruFlow.Offers.Cleanup
import RecruFlow.Schemas.ReadBack

/-!
# What the scorers read from the tables

`score_offers_with_langchain` and the retry of a scoring failure validate the rows that
they are given, outside of their error handling. Each write stores what was validated,
and that is read back.
-/

namespace RecruFlow.Scoring

open Db Dlq Ingestion Lib.Outcome Lib.Transaction Offers Schemas

/-! ## Reading -/

section Reading

variable (pydantic : Pydantic)

/-- `Offer.model_validate(row, from_attributes=True)`; `none` is a `ValidationError`. -/
def loadOffer (row : OfferRow) : Option Offer :=
  Offer.modelValidate pydantic row.offer.columns

/-- The column `data`; a row that was just created has `{}`. -/
def profileData (row : ProfileRow) : Dict :=
  (row.data.map Profile.modelDump).getD ⟨[]⟩

/-- `Profile(**row.data)` -/
def loadProfile (row : ProfileRow) : Option Profile :=
  Profile.modelValidate pydantic (profileData row)

/-- What `score_offers_with_langchain` has validated for its calls. -/
def scoringInputs (connectors : List String) (profileRow : ProfileRow)
    (offers : List (OfferRow × String)) : Option (List (Profile × Offer)) :=
  if offers = [] then some []
  else do
    let profile ← loadProfile pydantic profileRow
    (offers.filter (·.2 ∈ connectors)).mapM fun p => do
      let offer ← loadOffer pydantic p.1
      pure (profile, offer)

/-- The rows of a scoring failure, when both are there. -/
def retriedRows (db : Database) (offerId profileId : Nat) : Option (ProfileRow × OfferRow) := do
  let offerRow ← storedOffer offerId db
  let profileRow ← getProfileById db profileId
  pure (profileRow, offerRow)

/-- What `_retry_scoring_failed` has validated for its call; the inner `none` is a failure
that cannot be retried. -/
def retryInputs (db : Database) (offerId profileId : Nat) : Option (Option (Profile × Offer)) :=
  match retriedRows db offerId profileId with
  | none => some none
  | some (profileRow, offerRow) => do
      let offer ← loadOffer pydantic offerRow
      let profile ← loadProfile pydantic profileRow
      pure (some (profile, offer))

/-- What was written of two rows. -/
def written (profileRow : ProfileRow) (offerRow : OfferRow) : Profile × Offer :=
  (profileRow.data.getD .empty, offerRow.offer.stored)

end Reading

/-! ## Writing -/

/-- The writes of offers and profiles, and the ends of their transactions. -/
inductive RowWrite where
  | ingest (startedAt : Int) (mappedFields rawPayload : Dict)
  /-- The retry of a payload. -/
  | retry (startedAt : Int) (rawPayload : Dict)
  | patch (now : Int) (offerId : Nat) (payload : OfferEdit)
  | cleanup (cutoff : Int)
  | save (raw : Dict) (profileId : Option Nat) (activate : Bool)
  | draft (uuid : String) (raw : Dict)
  | commit
  | rollback

/-- A write that leaves the rows as they are when it raises. -/
def update (write : Database → Option Database) (s : Session) : Session :=
  { s with working := (write s.working).getD s.working }

section Writing

variable (env : IngestEnv) (maxArguments : Nat)

/-- The session after a write, however it ends. -/
def RowWrite.apply (s : Session) : RowWrite → Session
  | .ingest startedAt mappedFields rawPayload =>
      left (·.2) (·.2) (ingestOffer { env with startedAt } mappedFields rawPayload s)
  | .retry startedAt rawPayload =>
      match Offer.modelValidate env.pydantic rawPayload with
      | none => s
      | some offer => left (·.2) (·.2) (persistOffer { env with startedAt } offer rawPayload s)
  | .patch now offerId payload =>
      update (fun db => (patchOffer ⟨env.postgres, now⟩ offerId payload db).toOption) s
  | .cleanup cutoff =>
      update (fun db => (deleteOffers maxArguments cutoff db).toOption.map (·.2)) s
  | .save raw profileId activate =>
      update (fun db => (Profile.modelValidate env.pydantic raw).bind fun profile =>
        (upsertProfile profile profileId activate db).toOption) s
  | .draft uuid raw =>
      update (fun db => (Profile.modelValidate env.pydantic raw).map fun profile =>
        createDraftProfile uuid profile db) s
  | .commit => .opened (Lib.Transaction.commit s)
  | .rollback => .opened s.committed

/-- The session after writes to an empty database. -/
def applyAll (writes : List RowWrite) : Session :=
  writes.foldl (RowWrite.apply env maxArguments) (.opened {})

end Writing

/-! ## What is stored was accepted -/

/-- Every offer and every profile was accepted from some dictionary. -/
structure Accepted (pydantic : Pydantic) (db : Database) : Prop where
  offers : ∀ row ∈ db.offers, ∃ raw, Offer.modelValidate pydantic raw = some row.offer
  profiles : ∀ row ∈ db.profiles, ∀ profile ∈ row.data,
    ∃ raw, Profile.modelValidate pydantic raw = some profile

variable {pydantic : Pydantic} {env : IngestEnv} {maxArguments : Nat} {db db' : Database}
  {s : Session}

namespace Accepted

theorem empty : Accepted pydantic {} :=
  ⟨fun _ h => absurd h List.not_mem_nil, fun _ h => absurd h List.not_mem_nil⟩

theorem of_ite {p : Prop} [Decidable p] (h : Accepted pydantic db) (h' : Accepted pydantic db') :
    Accepted pydantic (if p then db else db') := by
  split
  · exact h
  · exact h'

theorem of_offers (h : Accepted pydantic db) (hprofiles : db'.profiles = db.profiles)
    (hoffers : ∀ row ∈ db'.offers, ∃ stored ∈ db.offers, stored.offer = row.offer) :
    Accepted pydantic db' := by
  constructor
  · intro row hrow
    obtain ⟨stored, hstored, heq⟩ := hoffers row hrow
    rw [← heq]
    exact h.offers stored hstored
  · rw [hprofiles]
    exact h.profiles

/-- Profiles that are mapped keep their data, or get data that was accepted. -/
theorem of_profiles (h : Accepted pydantic db) {f : ProfileRow → ProfileRow}
    (hoffers : db'.offers = db.offers) (hprofiles : db'.profiles = db.profiles.map f)
    (hf : ∀ row, (f row).data = row.data ∨ ∀ profile ∈ (f row).data,
      ∃ raw, Profile.modelValidate pydantic raw = some profile) : Accepted pydantic db' := by
  constructor
  · rw [hoffers]
    exact h.offers
  · intro row hrow profile hprofile
    rw [hprofiles] at hrow
    obtain ⟨stored, hstored, rfl⟩ := List.mem_map.mp hrow
    rcases hf stored with hsame | hnew
    · exact h.profiles stored hstored profile (hsame ▸ hprofile)
    · exact hnew profile hprofile

theorem insertProfile (h : Accepted pydantic db) {name : String} {status : ProfileStatus}
    {data : Option Profile}
    (hdata : ∀ profile ∈ data, ∃ raw, Profile.modelValidate pydantic raw = some profile) :
    Accepted pydantic (insertProfile name status data db).2 := by
  constructor
  · exact h.offers
  · intro row hrow profile hprofile
    rcases List.mem_append.mp hrow with hstored | hnew
    · exact h.profiles row hstored profile hprofile
    · rw [List.mem_singleton.mp hnew] at hprofile
      exact hdata profile hprofile

theorem patchOffer (h : Accepted pydantic db) {patchEnv : PatchEnv} {offerId : Nat}
    {payload : OfferEdit} (hpatch : patchOffer patchEnv offerId payload db = .ok db') :
    Accepted pydantic db' := by
  unfold Offers.patchOffer at hpatch
  split at hpatch
  · cases hpatch
  · split at hpatch
    · cases hpatch
    · next edited _ =>
      split at hpatch
      · rw [← Except.ok.inj hpatch]
        exact h
      · split at hpatch
        · rw [← Except.ok.inj hpatch]
          refine h.of_offers rfl fun row hrow => ?_
          obtain ⟨stored, hstored, rfl⟩ := List.mem_map.mp hrow
          refine ⟨stored, hstored, ?_⟩
          split
          · rfl
          · rfl
        · cases hpatch

theorem resolveProfile (h : Accepted pydantic db) {profileId : Option Nat} {activate : Bool}
    {row : ProfileRow} (hresolve : resolveProfile profileId activate db = .ok (row, db')) :
    Accepted pydantic db' := by
  unfold Db.resolveProfile at hresolve
  split at hresolve
  · rw [← (Prod.mk.inj (Except.ok.inj hresolve)).2]
    exact h
  · cases hresolve
  · rw [← (Prod.mk.inj (Except.ok.inj hresolve)).2]
    exact h.insertProfile fun profile hprofile => nomatch hprofile

theorem upsertProfile (h : Accepted pydantic db) {raw : Dict} {profile : Profile}
    {profileId : Option Nat} {activate : Bool}
    (hvalid : Profile.modelValidate pydantic raw = some profile)
    (hupsert : upsertProfile profile profileId activate db = .ok db') :
    Accepted pydantic db' := by
  obtain ⟨⟨row, middle⟩, hresolve, hsaved⟩ := bind_ok hupsert
  have hmiddle : Accepted pydantic middle := h.resolveProfile hresolve
  have hdata : Accepted pydantic (saveProfileData row.id profile activate middle) := by
    refine hmiddle.of_profiles rfl rfl fun stored => ?_
    split
    · right
      intro saved hmem
      rw [← Option.some.inj hmem]
      exact ⟨raw, hvalid⟩
    · exact .inl rfl
  have hactive : Accepted pydantic (if activate then
      activateProfile row.id (saveProfileData row.id profile activate middle)
      else saveProfileData row.id profile activate middle) :=
    .of_ite (hdata.of_profiles rfl rfl fun stored => .inl rfl) hdata
  rw [← Except.ok.inj hsaved]
  exact .of_ite ⟨hactive.offers, hactive.profiles⟩ hactive

theorem delete_ends {ids : List Nat} {stmt : Database → Attempt Database}
    (hstmt : ∀ db db', stmt db = .done db' → Accepted pydantic db → Accepted pydantic db')
    (hs : Both (Accepted pydantic) s) :
    Ends (Both (Accepted pydantic)) (·.2) id (s.write (withIds maxArguments ids stmt)) := by
  refine write_kept (fun s hs => hs) (fun s db' hdone hs => ?_) hs
  unfold withIds at hdone
  split at hdone
  · cases hdone
  · exact ⟨hstmt s.working db' hdone hs.1, hs.2⟩

theorem deleteDeletable_ends {ids : List Nat} (hs : Both (Accepted pydantic) s) :
    Ends (Both (Accepted pydantic)) (·.2) id (deleteDeletable maxArguments ids s) := by
  unfold deleteDeletable
  split
  · exact hs
  · refine ends_bind (delete_ends (fun db db' hdone h => ?_) hs) fun s hs => ?_
    · rw [← Attempt.done.inj hdone]
      exact ⟨h.offers, h.profiles⟩
    refine ends_bind (delete_ends (fun db db' hdone h => ?_) hs) fun s hs => ?_
    · rw [← Attempt.done.inj hdone]
      exact ⟨h.offers, h.profiles⟩
    refine ends_bind (delete_ends (fun db db' hdone h => ?_) hs) fun s hs => ?_
    · unfold deleteCvVersions at hdone
      split at hdone
      · cases hdone
      · rw [← Attempt.done.inj hdone]
        exact ⟨h.offers, h.profiles⟩
    refine delete_ends (fun db db' hdone h => ?_) hs
    unfold deleteOfferRows at hdone
    split at hdone
    · cases hdone
    · rw [← Attempt.done.inj hdone]
      exact h.of_offers rfl fun row hrow => ⟨row, (List.mem_filter.mp hrow).1, rfl⟩

theorem partitionOffersForCleanup_session {cutoff : Int} {r : List Nat × Nat}
    (h : partitionOffersForCleanup maxArguments cutoff (.opened db) = .ok (r, s)) :
    s = .opened db := by
  rw [partitionOffersForCleanup_opened] at h
  split at h
  · exact (Prod.mk.inj (Except.ok.inj h)).2.symm
  · split at h
    · cases h
    · exact (Prod.mk.inj (Except.ok.inj h)).2.symm

theorem deleteOffers (h : Accepted pydantic db) {cutoff : Int} {counts : Nat × Nat}
    (hdelete : deleteOffers maxArguments cutoff db = .ok (counts, db')) :
    Accepted pydantic db' := by
  unfold Offers.deleteOffers at hdelete
  split at hdelete
  · cases hdelete
  · next deletableIds skipped s hpartition =>
    have hs : Both (Accepted pydantic) s := by
      rw [partitionOffersForCleanup_session hpartition]
      exact Both.opened h
    split at hdelete
    · cases hdelete
    · next s' hdeleted =>
      rw [← (Prod.mk.inj (Except.ok.inj hdelete)).2]
      have hcleaned := ends_ok (deleteDeletable_ends hs) hdeleted
      exact Both.commit hcleaned

/-- An ingestion keeps what was accepted, and inserts what is. -/
theorem keptFor : KeptFor env (fun _ => True)
    (fun row => ∃ raw, Offer.modelValidate pydantic raw = some row.offer)
    (Both (Accepted pydantic)) where
  rejected _ hs := hs
  offer s row hrow hs := by
    refine ⟨⟨?_, hs.1.profiles⟩, hs.2⟩
    intro stored hstored
    rcases List.mem_append.mp hstored with hbefore | hnew
    · exact hs.1.offers stored hbefore
    · rw [List.mem_singleton.mp hnew]
      exact hrow
  failure _ _ _ hs := ⟨⟨hs.1.offers, hs.1.profiles⟩, hs.2⟩

end Accepted

theorem update_both {write : Database → Option Database} {Q : Database → Prop}
    (hwrite : ∀ db', write s.working = some db' → Q db') (hs : Both Q s) :
    Both Q (update write s) := by
  refine ⟨?_, hs.2⟩
  unfold update
  cases hdone : write s.working with
  | none => exact hs.1
  | some db' => exact hwrite db' hdone

theorem toOption_ok {ε α : Type} {x : Except ε α} {a : α} (h : x.toOption = some a) : x = .ok a := by
  cases x with
  | error e => cases h
  | ok b => exact congrArg Except.ok (Option.some.inj h)

/-- One write keeps the rows accepted, in the open transaction and beside it. -/
theorem RowWrite.apply_accepted (write : RowWrite) (hs : Both (Accepted env.pydantic) s) :
    Both (Accepted env.pydantic) (write.apply env maxArguments s) := by
  cases write with
  | ingest startedAt mappedFields rawPayload =>
      rw [RowWrite.apply]
      apply ends_iff_left.mp
      apply ingestOffer_kept Accepted.keptFor (fun _ _ _ => trivial) _ hs
      intro offer dedupHash db hvalid
      exact ⟨mappedFields, hvalid⟩
  | retry startedAt rawPayload =>
      rw [RowWrite.apply]
      split
      · exact hs
      · next offer hvalid =>
        apply ends_iff_left.mp
        apply persistOffer_kept Accepted.keptFor _ hs
        intro dedupHash db
        exact ⟨rawPayload, hvalid⟩
  | patch now offerId payload =>
      apply update_both _ hs
      intro db' hpatch
      exact hs.1.patchOffer (toOption_ok hpatch)
  | cleanup cutoff =>
      apply update_both _ hs
      intro db' hdelete
      obtain ⟨deleted, hdone, rfl⟩ := Option.map_eq_some_iff.mp hdelete
      exact hs.1.deleteOffers (toOption_ok hdone)
  | save raw profileId activate =>
      apply update_both _ hs
      intro db' hsave
      obtain ⟨profile, hvalid, hupsert⟩ := Option.bind_eq_some_iff.mp hsave
      exact hs.1.upsertProfile hvalid (toOption_ok hupsert)
  | draft uuid raw =>
      apply update_both _ hs
      intro db' hdraft
      obtain ⟨profile, hvalid, rfl⟩ := Option.map_eq_some_iff.mp hdraft
      apply hs.1.insertProfile
      intro stored hstored
      rw [← Option.some.inj hstored]
      exact ⟨raw, hvalid⟩
  | commit => exact Both.opened hs.commit
  | rollback => exact Both.opened hs.2

theorem applyAll_accepted (writes : List RowWrite) :
    Both (Accepted env.pydantic) (applyAll env maxArguments writes) := by
  have hfold : ∀ s, Both (Accepted env.pydantic) s →
      Both (Accepted env.pydantic) (writes.foldl (RowWrite.apply env maxArguments) s) := by
    induction writes with
    | nil => exact fun s hs => hs
    | cons write writes ih => exact fun s hs => ih _ (write.apply_accepted hs)
  exact hfold _ (Both.opened Accepted.empty)

/-! ## What is stored is read back -/

theorem loadOffer_stored (hown : pydantic.TakesOwn) (h : Accepted pydantic db) {row : OfferRow}
    (hrow : row ∈ db.offers) : loadOffer pydantic row = some row.offer.stored := by
  obtain ⟨raw, hraw⟩ := h.offers row hrow
  exact Offer.modelValidate_columns hown hraw

theorem loadProfile_stored (hown : pydantic.TakesOwn) (h : Accepted pydantic db)
    {row : ProfileRow} (hrow : row ∈ db.profiles) :
    loadProfile pydantic row = some (row.data.getD .empty) := by
  rw [loadProfile, profileData]
  cases hdata : row.data with
  | none => rfl
  | some profile =>
      obtain ⟨raw, hraw⟩ := h.profiles row hrow profile hdata
      exact Profile.modelValidate_modelDump hown hraw

theorem scoringInputs_stored (hown : pydantic.TakesOwn) (h : Accepted pydantic db)
    {connectors : List String} {profileRow : ProfileRow} {offers : List (OfferRow × String)}
    (hprofile : profileRow ∈ db.profiles) (hoffers : ∀ p ∈ offers, p.1 ∈ db.offers) :
    scoringInputs pydantic connectors profileRow offers =
      some ((offers.filter (·.2 ∈ connectors)).map fun p => written profileRow p.1) := by
  rw [scoringInputs, loadProfile_stored hown h hprofile]
  split
  · next hnone =>
    rw [hnone]
    rfl
  · apply mapM_eq_map
    intro p hp
    have hrow : p.1 ∈ db.offers := hoffers p (List.mem_filter.mp hp).1
    rw [loadOffer_stored hown h hrow]
    rfl

theorem retryInputs_stored (hown : pydantic.TakesOwn) (h : Accepted pydantic db)
    (offerId profileId : Nat) :
    retryInputs pydantic db offerId profileId =
      some ((retriedRows db offerId profileId).map fun rows => written rows.1 rows.2) := by
  rw [retryInputs]
  cases hrows : retriedRows db offerId profileId with
  | none => rfl
  | some rows =>
      obtain ⟨offerRow, hoffer, hrest⟩ := Option.bind_eq_some_iff.mp hrows
      obtain ⟨profileRow, hprofile, hpair⟩ := Option.bind_eq_some_iff.mp hrest
      rw [← Option.some.inj hpair]
      have hloaded := loadOffer_stored hown h (List.mem_of_find?_eq_some hoffer)
      have hprofileLoaded := loadProfile_stored hown h (List.mem_of_find?_eq_some hprofile)
      dsimp only
      rw [hloaded, hprofileLoaded]
      rfl

/-- Whatever is scored from the tables, no row fails its validation, and the calls are given
what was written. -/
structure ScorersReadBack (pydantic : Pydantic) (db : Database) : Prop where
  scored : ∀ connectors, ∀ profileRow ∈ db.profiles, ∀ offers : List (OfferRow × String),
    (∀ p ∈ offers, p.1 ∈ db.offers) →
      scoringInputs pydantic connectors profileRow offers =
        some ((offers.filter (·.2 ∈ connectors)).map fun p => written profileRow p.1)
  retried : ∀ offerId profileId,
    retryInputs pydantic db offerId profileId =
      some ((retriedRows db offerId profileId).map fun rows => written rows.1 rows.2)

/-- The row that `persist_offer` stores is validated to the offer again, and the dump of a
profile to the profile. After any writes, committed or not, the scorers read back what was
written. -/
theorem stored_reads_back (hown : env.pydantic.TakesOwn) :
    (∀ raw offer rawPayload s row s', Offer.modelValidate env.pydantic raw = some offer →
      (∀ d ∈ offer.postedAt, d.aware) →
        persistOffer env offer rawPayload s = .ok ((row, true), s') →
          row ∈ s'.working.offers ∧ loadOffer env.pydantic row = some offer) ∧
      (∀ raw profile, Profile.modelValidate env.pydantic raw = some profile →
        Profile.modelValidate env.pydantic profile.modelDump = some profile) ∧
      ∀ writes, ScorersReadBack env.pydantic (applyAll env maxArguments writes).working ∧
        ScorersReadBack env.pydantic (applyAll env maxArguments writes).committed := by
  have hscorers : ∀ db, Accepted env.pydantic db → ScorersReadBack env.pydantic db :=
    fun db h =>
      { scored := fun _ _ hprofile _ hoffers => scoringInputs_stored hown h hprofile hoffers
        retried := retryInputs_stored hown h }
  refine ⟨?_, ?_, ?_⟩
  · intro raw offer rawPayload s row s' hvalid haware hpersist
    have hpersisted := persistOffer_ok hpersist
    refine ⟨hpersisted.mem, ?_⟩
    calc loadOffer env.pydantic row
        = Offer.modelValidate env.pydantic offer.columns := by
          rw [loadOffer, hpersisted.offer_of_created]
      _ = some offer.stored := Offer.modelValidate_columns hown hvalid
      _ = some offer := by rw [Offer.stored_of_aware haware]
  · exact fun raw profile => Profile.modelValidate_modelDump hown
  · intro writes
    obtain ⟨hworking, hcommitted⟩ := @applyAll_accepted env maxArguments writes
    exact ⟨hscorers _ hworking, hscorers _ hcommitted⟩

/-! ## An offer and a profile with white space around their texts -/

def exactEnv : IngestEnv := { acmeEnv with pydantic := .exact }

def spacedWrites : List RowWrite :=
  [.ingest 0 (acmeFields " a ") (acmeFields " a "), .save ⟨[("headline", .str " senior ")]⟩ none true,
    .commit]

def spacedRow : OfferRow :=
  newOfferRow exactEnv firstOffer (acmeFields " a ")
    "45bea61968abc70597864c25a863e19aa7e03888dca7e43ff6461bb1de0bcef6" {}

def spacedProfile : Profile := { Profile.empty with headline := some "senior" }

def spacedProfileRow : ProfileRow :=
  ⟨1, defaultProfileName, .active, true, some spacedProfile⟩

theorem stored_reads_back_spaced :
    (applyAll exactEnv 1 spacedWrites).committed.offers = [spacedRow] ∧
      (applyAll exactEnv 1 spacedWrites).committed.profiles = [spacedProfileRow] ∧
      scoringInputs .exact ["acme"] spacedProfileRow [(spacedRow, "acme")] =
        some [(spacedProfile, firstOffer)] := by
  have hoffers : (applyAll exactEnv 1 spacedWrites).committed.offers = [spacedRow] := by
    decide +kernel
  have hprofiles : (applyAll exactEnv 1 spacedWrites).committed.profiles = [spacedProfileRow] := by
    decide +kernel
  have hscored := (@stored_reads_back exactEnv 1 Pydantic.exact_takesOwn).2.2 spacedWrites
  refine ⟨hoffers, hprofiles, ?_⟩
  calc scoringInputs .exact ["acme"] spacedProfileRow [(spacedRow, "acme")]
      = some (([(spacedRow, "acme")].filter (·.2 ∈ ["acme"])).map
          fun p => written spacedProfileRow p.1) := by
        apply hscored.2.scored
        · rw [hprofiles]
          exact List.mem_singleton_self _
        · intro p hp
          rw [hoffers, List.mem_singleton.mp hp]
          exact List.mem_singleton_self _
    _ = some [(spacedProfile, firstOffer)] := by decide +kernel

end RecruFlow.Scoring
