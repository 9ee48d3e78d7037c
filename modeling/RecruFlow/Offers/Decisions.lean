import RecruFlow.Dlq.RetryRepeat
import RecruFlow.Offers.Routes
import RecruFlow.Scheduler.Work

/-!
# The user's decisions on an offer

Ingestion, retries, scoring and profiles add rows to the offers and change none. The
columns that belong to the user change by a patch of the offer that has the field.
-/

namespace RecruFlow.Offers

open Connectors Db Dlq Ingestion Lib.Outcome Lib.Transaction Scheduler Schemas Scoring

/-- What happens to the tables, one thing after another. -/
inductive OfferEvent where
  /-- A run of a source, a tick of the retry job, or the retry of an ingestion failure. -/
  | work (w : Work)
  /-- A batch, or the retry of a scoring failure. -/
  | scoring (event : ScoringEvent)
  | upsertProfile (profile : Profile) (profileId : Option Nat) (activate : Bool)
  | createDraftProfile (uuid : String) (profile : Profile)
  | patch (env : PatchEnv) (offerId : Nat) (payload : OfferEdit)

namespace OfferEvent

/-- What the event commits. -/
def apply (db : Database) : OfferEvent → Database
  | work w => w.after db
  | scoring event => event.apply db
  | upsertProfile profile profileId activate =>
      match Db.upsertProfile profile profileId activate db with
      | .ok db' => db'
      | .error _ => db
  | createDraftProfile uuid profile => Db.createDraftProfile uuid profile db
  | patch env offerId payload =>
      match patchOffer env offerId payload db with
      | .ok db' => db'
      | .error _ => db

end OfferEvent

def afterEvents (db : Database) (events : List OfferEvent) : Database :=
  events.foldl OfferEvent.apply db

/-- A column has its value still, or one that a patch of the offer gives it. -/
def SetByPatch {α : Type} (events : List OfferEvent) (offerId : Nat) (column : OfferRow → α)
    (given : OfferEdit → Option α) (row row' : OfferRow) : Prop :=
  column row' = column row ∨ ∃ env payload, OfferEvent.patch env offerId payload ∈ events ∧
    given payload = some (column row')

/-- What the events may have done to the columns of the user. -/
structure DecidedByUser (events : List OfferEvent) (offerId : Nat) (row row' : OfferRow) : Prop where
  applied : SetByPatch events offerId (·.applied) (·.applied.join) row row'
  hide : SetByPatch events offerId (·.hide) (·.hide.join) row row'
  notes : SetByPatch events offerId (·.notes) (·.notes) row row'
  linkOpenedAt : row'.linkOpenedAt = row.linkOpenedAt ∨
    row.linkOpenedAt = none ∧ ∃ env payload, OfferEvent.patch env offerId payload ∈ events ∧
      payload.linkOpened = some (some true) ∧ row'.linkOpenedAt = some env.now

section Offers

variable {db db' : Database} {offerId : Nat} {row row' row'' : OfferRow} {event : OfferEvent}
  {events later : List OfferEvent}

/-! ## What only adds rows -/

theorem offers_kept (start : Database) : KeptByRetry (fun _ => True) (fun _ => True)
    fun db => start.offers <+: db.offers where
  offer db row h := h.trans (List.prefix_append _ _)
  failure _ _ _ h := h
  config _ _ _ _ _ hdone h := by
    rw [← Attempt.done.inj hdone]
    exact h
  stamped _ _ _ _ _ hdone h := by
    rw [← Attempt.done.inj hdone]
    exact h
  row _ _ _ h := h

theorem work_offers {w : Work} : db.offers <+: (w.after db).offers :=
  Work.after_keeps (offers_kept db) (fun _ _ _ h => h) List.prefix_rfl

theorem scoringRetry_offers {env : ScoringRetryEnv} {key : String} :
    db.offers <+: (afterManualScoringRetry env key db).offers := by
  unfold afterManualScoringRetry
  split
  · exact List.prefix_rfl
  · have hkept : KeptByScoringRetry env.toIngestEnv (Both fun db' => db.offers <+: db'.offers) :=
      { rejected := fun _ h => h
        offer := fun _ _ _ h => ⟨h.1.trans (List.prefix_append _ _), h.2⟩
        failure := fun _ _ _ h => h
        score := fun _ _ h => h
        row := fun _ _ h => h }
    exact afterScoringRetry_both (performScoringRetry_keeps hkept (.opened List.prefix_rfl))

theorem scoring_offers {event : ScoringEvent} : db.offers <+: (event.apply db).offers := by
  cases event with
  | batch env commits =>
      unfold ScoringEvent.apply
      dsimp only
      split
      · next summary db' hbatch =>
        split
        · obtain ⟨_, writes, _, _, rfl⟩ := runBatchScoring_ok hbatch
          obtain ⟨rows, happly⟩ := apply_eq writes env.startedAt db
          have hsame : (writes.apply env.startedAt db).offers = db.offers := by rw [happly]
          exact hsame.symm ▸ List.prefix_rfl
        · exact List.prefix_rfl
      · exact List.prefix_rfl
  | retry env key => exact scoringRetry_offers

theorem upsertProfile_offers {profile : Profile} {profileId : Option Nat} {activate : Bool}
    (h : upsertProfile profile profileId activate db = .ok db') : db'.offers = db.offers := by
  obtain ⟨⟨found, middle⟩, hresolve, h⟩ := bind_ok h
  have hmiddle : middle.offers = db.offers := by
    unfold resolveProfile at hresolve
    split at hresolve
    · rw [← (Prod.mk.inj (Except.ok.inj hresolve)).2]
    · cases hresolve
    · rw [← (Prod.mk.inj (Except.ok.inj hresolve)).2]
  rw [← Except.ok.inj h, ← hmiddle]
  split
  · split <;> rfl
  · split <;> rfl

/-- The row under an id is the first, so that rows that are added do not hide it. -/
theorem storedOffer_of_prefix (hadds : db.offers <+: db'.offers)
    (h : storedOffer offerId db = some row) : storedOffer offerId db' = some row := by
  obtain ⟨added, hadded⟩ := hadds
  rw [storedOffer, ← hadded, List.find?_append]
  rw [storedOffer] at h
  rw [h]
  rfl

/-! ## What the events do to a row -/

theorem DecidedByUser.refl : DecidedByUser events offerId row row :=
  ⟨.inl rfl, .inl rfl, .inl rfl, .inl rfl⟩

theorem SetByPatch.trans {α : Type} {column : OfferRow → α} {given : OfferEdit → Option α}
    (h : SetByPatch events offerId column given row row')
    (hlater : SetByPatch later offerId column given row' row'') :
    SetByPatch (events ++ later) offerId column given row row'' := by
  rcases hlater with hsame | ⟨env, payload, hmem, hgiven⟩
  · rcases h with hfirst | ⟨env, payload, hmem, hgiven⟩
    · exact .inl (hsame.trans hfirst)
    · exact .inr ⟨env, payload, List.mem_append_left _ hmem, hgiven.trans (congrArg some hsame.symm)⟩
  · exact .inr ⟨env, payload, List.mem_append_right _ hmem, hgiven⟩

theorem DecidedByUser.trans (h : DecidedByUser events offerId row row')
    (hlater : DecidedByUser later offerId row' row'') :
    DecidedByUser (events ++ later) offerId row row'' := by
  refine ⟨h.applied.trans hlater.applied, h.hide.trans hlater.hide, h.notes.trans hlater.notes, ?_⟩
  rcases hlater.linkOpenedAt with hsame | ⟨hnone, env, payload, hmem, hopened, hnow⟩
  · rcases h.linkOpenedAt with hfirst | ⟨hnone, env, payload, hmem, hopened, hnow⟩
    · exact .inl (hsame.trans hfirst)
    · exact .inr ⟨hnone, env, payload, List.mem_append_left _ hmem, hopened, hsame.trans hnow⟩
  · rcases h.linkOpenedAt with hfirst | ⟨_, _, _, _, _, hfirst⟩
    · exact .inr ⟨hfirst.symm.trans hnone, env, payload, List.mem_append_right _ hmem, hopened, hnow⟩
    · cases hfirst.symm.trans hnone

theorem edit_column {α : Type} {given : Option (Option α)} {value edited : α}
    (h : given.getD (some value) = some edited) : edited = value ∨ given.join = some edited := by
  cases given with
  | none => exact .inl (Option.some.inj h).symm
  | some v => exact .inr h

/-- A patch sets the fields that it has. -/
theorem edit_decided {env : PatchEnv} {payload : OfferEdit}
    (h : payload.edit env.now row = some row') :
    DecidedByUser [.patch env offerId payload] offerId row row' := by
  obtain ⟨happlied, hhide, hnotes, hlink, _⟩ := OfferEdit.edit_some h
  have hmem : OfferEvent.patch env offerId payload ∈ [OfferEvent.patch env offerId payload] :=
    List.mem_singleton_self _
  refine ⟨(edit_column happlied).imp_right fun hgiven => ⟨env, payload, hmem, hgiven⟩,
    (edit_column hhide).imp_right fun hgiven => ⟨env, payload, hmem, hgiven⟩, ?_, ?_⟩
  · cases hgiven : payload.notes with
    | none =>
        rw [hgiven] at hnotes
        exact .inl hnotes
    | some notes =>
        rw [hgiven] at hnotes
        exact .inr ⟨env, payload, hmem, hgiven.trans (congrArg some hnotes.symm)⟩
  · split at hlink
    · next hopens => exact .inr ⟨hopens.2, env, payload, hmem, hopens.1, hlink⟩
    · exact .inl hlink

theorem event_decided (h : storedOffer offerId db = some row) :
    ∃ row', storedOffer offerId (event.apply db) = some row' ∧
      DecidedByUser [event] offerId row row' := by
  cases event with
  | work w => exact ⟨row, storedOffer_of_prefix work_offers h, .refl⟩
  | scoring event => exact ⟨row, storedOffer_of_prefix scoring_offers h, .refl⟩
  | createDraftProfile uuid profile => exact ⟨row, h, .refl⟩
  | upsertProfile profile profileId activate =>
      unfold OfferEvent.apply
      dsimp only
      split
      · next db' hupsert =>
        refine ⟨row, ?_, .refl⟩
        rw [storedOffer, upsertProfile_offers hupsert]
        exact h
      · exact ⟨row, h, .refl⟩
  | patch env patched payload =>
      unfold OfferEvent.apply
      dsimp only
      split
      · next db' hpatch =>
        obtain ⟨found, edited, hfound, hedited, hstored, hothers⟩ := patchOffer_ok hpatch
        by_cases hsame : offerId = patched
        · subst hsame
          obtain rfl := Option.some.inj (h.symm.trans hfound)
          exact ⟨edited, hstored, edit_decided hedited⟩
        · exact ⟨row, (hothers offerId hsame).trans h, .refl⟩
      · exact ⟨row, h, .refl⟩

/-- An offer stays stored, and what the user has decided on it changes by the patches of
this offer alone; the instant of the first opening is set once. -/
theorem user_decisions_survive (h : storedOffer offerId db = some row) :
    ∃ row', storedOffer offerId (afterEvents db events) = some row' ∧
      DecidedByUser events offerId row row' := by
  induction events generalizing db row with
  | nil => exact ⟨row, h, .refl⟩
  | cons event events ih =>
      obtain ⟨middle, hmiddle, hfirst⟩ := @event_decided db offerId row event h
      obtain ⟨row', hrow', hrest⟩ := ih hmiddle
      exact ⟨row', hrow', hfirst.trans hrest⟩

end Offers

/-! ## An offer that is opened twice -/

def patchEnv (now : Int) : PatchEnv :=
  { postgres := acmeEnv.postgres
    now := now }

/-- The offer is noted and opened, scored, and opened again. -/
def openedTwice : List OfferEvent :=
  [
    .patch (patchEnv 5) 1 { notes := some (some "call them"), linkOpened := some (some true) },
    .scoring (.batch sameScore true),
    .patch (patchEnv 9) 1 { applied := some (some true), linkOpened := some (some true) }
  ]

example : ((storedOffer 1 (afterEvents twoOffersDb openedTwice)).map fun row =>
    (row.applied, row.notes, row.linkOpenedAt)) = some (true, some "call them", some 5) := by
  decide

theorem user_decisions_survive_opened :
    ∃ row', storedOffer 1 (afterEvents twoOffersDb openedTwice) = some row' ∧
      DecidedByUser openedTwice 1 Scoring.acmeOffer row' :=
  user_decisions_survive rfl

end RecruFlow.Offers
