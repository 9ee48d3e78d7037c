import RecruFlow.Dlq.Service
import Mathlib.Data.List.Dedup

/-!
# The routes of offers

`PATCH /offers/{id}` sets the fields that its payload has, and the instant of the first
opening of the link. `DELETE /offers` deletes the offers that are older than a cutoff and
in no application, with the rows that refer to them; its preview counts them.
-/

namespace RecruFlow.Offers

open Db Dlq Lib.Transaction

def storedOffer (offerId : Nat) (db : Database) : Option OfferRow :=
  db.offers.find? (·.id = offerId)

/-- A payload; the outer `none` is a field that it leaves out. -/
structure OfferEdit where
  applied : Option (Option Bool) := none
  hide : Option (Option Bool) := none
  notes : Option (Option String) := none
  linkOpened : Option (Option Bool) := none
  deriving DecidableEq

/-- The row with the fields of the payload; `none` is `null` where a column takes none. -/
def OfferEdit.edit (payload : OfferEdit) (now : Int) (row : OfferRow) : Option OfferRow := do
  let applied ← payload.applied.getD (some row.applied)
  let hide ← payload.hide.getD (some row.hide)
  pure { row with
    applied
    hide
    notes := payload.notes.getD row.notes
    linkOpenedAt :=
      if payload.linkOpened = some (some true) ∧ row.linkOpenedAt = none then some now
      else row.linkOpenedAt }

/-- What surrounds a request. -/
structure PatchEnv where
  postgres : Postgres
  /-- `datetime.now(UTC)` -/
  now : Int

inductive PatchError where
  /-- Status 404. -/
  | notFound
  /-- The `UPDATE` raises, and nothing is committed. -/
  | database
  deriving DecidableEq

/-- The columns that the `UPDATE` sets. -/
def setEdited (edited stored : OfferRow) : OfferRow :=
  { stored with
    applied := edited.applied
    hide := edited.hide
    notes := edited.notes
    linkOpenedAt := edited.linkOpenedAt }

/-- `patch_offer`, up to its commit. The unit of work sends nothing when nothing has
changed. -/
def patchOffer (env : PatchEnv) (offerId : Nat) (payload : OfferEdit) (db : Database) :
    Except PatchError Database :=
  match storedOffer offerId db with
  | none => .error .notFound
  | some row =>
      match payload.edit env.now row with
      | none => .error .database
      | some edited =>
          if edited = row then .ok db
          else match env.postgres.offer edited db with
            | .taken => .ok { db with
                offers := db.offers.map fun stored =>
                  if stored.id = offerId then setEdited edited stored else stored }
            | _ => .error .database

/-! ## Cleanup -/

/-- `posted_at IS NOT NULL AND posted_at < older_than` -/
def postedBefore (cutoff : Int) (row : OfferRow) : Bool :=
  row.offer.postedAt.any (·.micros < cutoff)

section Cleanup

-- how many arguments the driver sends with one statement
variable (maxArguments : Nat)

/-- A statement with `IN (...)`, which has an argument for each id. -/
def withIds {α : Type} (ids : List Nat) (stmt : Database → Attempt α) (db : Database) : Attempt α :=
  if maxArguments < ids.length then .unsent else stmt db

/-- `_partition_offers_for_cleanup` -/
def partitionOffersForCleanup (cutoff : Int) (s : Session) :
    Except Raised ((List Nat × Nat) × Session) := do
  let candidateIds ← s.select fun db => (db.offers.filter (postedBefore cutoff)).map (·.id)
  if candidateIds = [] then pure (([], 0), s)
  else do
    let (pipelineIds, s) ← s.execute (withIds maxArguments candidateIds fun db =>
      .done (((db.applications.map (·.offerId)).filter (· ∈ candidateIds)).dedup, db))
    pure ((candidateIds.filter (· ∉ pipelineIds), pipelineIds.length), s)

/-- `GET /offers/cleanup-preview`: how many would be deleted, and how many skipped. -/
def previewOfferCleanup (cutoff : Int) (db : Database) : Except PyError (Nat × Nat) :=
  match partitionOffersForCleanup maxArguments cutoff (.opened db) with
  | .ok ((deletableIds, skipped), _) => .ok (deletableIds.length, skipped)
  | .error raised => .error raised.1

def deleteMatchScores (ids : List Nat) (db : Database) : Attempt Database :=
  .done { db with matchScores := db.matchScores.filter (·.offerId ∉ ids) }

def deleteScoringFailures (ids : List Nat) (db : Database) : Attempt Database :=
  .done { db with scoringFailures := db.scoringFailures.filter (·.offerId ∉ ids) }

/-- A CV version that an application refers to is not deleted. -/
def deleteCvVersions (ids : List Nat) (db : Database) : Attempt Database :=
  if db.cvVersions.any fun cv =>
      cv.offerId ∈ ids && db.applications.any (·.cvVersionId = some cv.id) then .rejected
  else .done { db with cvVersions := db.cvVersions.filter (·.offerId ∉ ids) }

/-- Nor is an offer that another row refers to. -/
def deleteOfferRows (ids : List Nat) (db : Database) : Attempt Database :=
  if db.matchScores.any (·.offerId ∈ ids) || db.scoringFailures.any (·.offerId ∈ ids) ||
      db.cvVersions.any (·.offerId ∈ ids) || db.applications.any (·.offerId ∈ ids) then .rejected
  else .done { db with offers := db.offers.filter (·.id ∉ ids) }

/-- The statements of `DELETE /offers`. -/
def deleteDeletable (deletableIds : List Nat) (s : Session) : Except Raised Session :=
  if deletableIds = [] then pure s
  else do
    let s ← s.write (withIds maxArguments deletableIds (deleteMatchScores deletableIds))
    let s ← s.write (withIds maxArguments deletableIds (deleteScoringFailures deletableIds))
    let s ← s.write (withIds maxArguments deletableIds (deleteCvVersions deletableIds))
    s.write (withIds maxArguments deletableIds (deleteOfferRows deletableIds))

/-- `DELETE /offers`: how many are deleted, how many skipped, and what is committed. An
exception leaves the database as it was. -/
def deleteOffers (cutoff : Int) (db : Database) : Except PyError ((Nat × Nat) × Database) :=
  match partitionOffersForCleanup maxArguments cutoff (.opened db) with
  | .error raised => .error raised.1
  | .ok ((deletableIds, skipped), s) =>
      match deleteDeletable maxArguments deletableIds s with
      | .error raised => .error raised.1
      | .ok s => .ok ((deletableIds.length, skipped), commit s)

end Cleanup

variable {env : PatchEnv} {offerId : Nat} {payload : OfferEdit} {db db' : Database}
  {row edited : OfferRow}

/-- A payload that can be set, and what it sets. -/
theorem OfferEdit.edit_some {now : Int} (h : payload.edit now row = some edited) :
    payload.applied.getD (some row.applied) = some edited.applied ∧
      payload.hide.getD (some row.hide) = some edited.hide ∧
      edited.notes = payload.notes.getD row.notes ∧
      (edited.linkOpenedAt =
        if payload.linkOpened = some (some true) ∧ row.linkOpenedAt = none then some now
        else row.linkOpenedAt) ∧
      setEdited edited row = edited := by
  obtain ⟨applied, happlied, h⟩ := Option.bind_eq_some_iff.mp h
  obtain ⟨hide, hhide, h⟩ := Option.bind_eq_some_iff.mp h
  obtain rfl := Option.some.inj h
  exact ⟨happlied, hhide, rfl, rfl, rfl⟩

/-- The row of a patch that is committed, and the other rows. -/
theorem patchOffer_ok (h : patchOffer env offerId payload db = .ok db') :
    ∃ row edited, storedOffer offerId db = some row ∧ payload.edit env.now row = some edited ∧
      storedOffer offerId db' = some edited ∧
      ∀ other, other ≠ offerId → storedOffer other db' = storedOffer other db := by
  unfold patchOffer at h
  split at h
  · cases h
  · next row hrow =>
    split at h
    · cases h
    · next edited hedited =>
      refine ⟨row, edited, hrow, hedited, ?_⟩
      split at h
      · next hsame =>
        obtain rfl := Except.ok.inj h
        rw [hsame]
        exact ⟨hrow, fun _ _ => rfl⟩
      · split at h
        · obtain rfl := Except.ok.inj h
          have hstored : ∀ other, storedOffer other { db with
              offers := db.offers.map fun stored =>
                if stored.id = offerId then setEdited edited stored else stored } =
              if other = offerId then (storedOffer other db).map (setEdited edited)
              else storedOffer other db := fun _ =>
            find?_map_update (f := setEdited edited) fun _ => rfl
          refine ⟨?_, fun other hother => (hstored other).trans (if_neg hother)⟩
          obtain ⟨_, _, _, _, hset⟩ := OfferEdit.edit_some hedited
          rw [hstored, if_pos rfl, hrow]
          exact congrArg some hset
        · cases h

end RecruFlow.Offers
