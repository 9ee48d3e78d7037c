import RecruFlow.Ingestion.Persist
import RecruFlow.Lib.Outcome

/-!
# The offers that a sequence of `persist_offer` calls leaves

Two rules find duplicates, one by content and one by hash. Neither lets a call
add a row that another row duplicates under it, and rows are only ever appended.
-/

namespace RecruFlow.Ingestion

open Db Schemas Lib.Outcome Lib.Transaction

/-- A call of `persist_offer`, and when its transaction starts. -/
structure PersistCall where
  offer : Offer
  rawPayload : Dict
  startedAt : Int

variable (env : IngestEnv)

def PersistCall.run (call : PersistCall) (db : Database) :
    Except Raised ((OfferRow × Bool) × Session) :=
  persistOffer { env with startedAt := call.startedAt } call.offer call.rawPayload (.opened db)

/-- The store after a call; a call that raises is rolled back. -/
def PersistCall.store (call : PersistCall) (db : Database) : Database :=
  match call.run env db with
  | .ok (_, s) => s.working
  | .error _ => db

def storeAll (calls : List PersistCall) (db : Database) : Database :=
  calls.foldl (fun db call => call.store env db) db

/-- The offers of the calls that have returned. -/
def processed : List PersistCall → Database → List Offer
  | [], _ => []
  | call :: calls, db =>
      match call.run env db with
      | .ok _ => call.offer :: processed calls (call.store env db)
      | .error _ => processed calls (call.store env db)

/-- No two offers have the same hash or the same content, and each has the hash
of what is stored. -/
structure OffersSound (text : TextTools) (offers : List OfferRow) : Prop where
  hashes : (offers.map (·.dedupHash)).Nodup
  contents : offers.Pairwise fun a b => ¬ sameContent a.offer b
  hashed : ∀ row ∈ offers, computeDedupHash text row.offer = .ok row.dedupHash

/-- One of the rows duplicates the offer, under one of the rules. -/
def Represented (text : TextTools) (offer : Offer) (offers : List OfferRow) : Prop :=
  ∃ row ∈ offers, sameContent offer row ∨ computeDedupHash text offer = .ok row.dedupHash

/-- How a call goes that returns: it finds a row that duplicates its offer, or
appends one. -/
inductive Persisted (offer : Offer) (rawPayload : Dict) (db : Database) :
    OfferRow × Bool → Database → Prop
  | found {row : OfferRow} (hmem : row ∈ db.offers)
      (hduplicate : sameContent offer row ∨ computeDedupHash env.text offer = .ok row.dedupHash) :
      Persisted offer rawPayload db (row, false) db
  | created {dedupHash : String} (hcontent : ∀ row ∈ db.offers, ¬ sameContent offer row)
      (hhash : computeDedupHash env.text offer = .ok dedupHash)
      (hfree : ∀ row ∈ db.offers, row.dedupHash ≠ dedupHash) :
      Persisted offer rawPayload db (newOfferRow env offer rawPayload dedupHash db, true)
        { db with
          offers := db.offers ++ [newOfferRow env offer rawPayload dedupHash db]
          nextOfferId := db.nextOfferId + 1 }

variable {env} {offer : Offer} {rawPayload : Dict} {db : Database}
  {result : OfferRow × Bool} {s s' : Session}

theorem sameContent_symm {row other : OfferRow} (h : sameContent row.offer other) :
    sameContent other.offer row :=
  ⟨h.1.symm, h.2.1.symm, h.2.2.1.symm, h.2.2.2.1.symm, h.2.2.2.2.symm⟩

/-- The row that an `INSERT` has appended is the one with its hash. -/
theorem find_newOfferRow {dedupHash : String} (hfree : ∀ row ∈ db.offers, row.dedupHash ≠ dedupHash) :
    (db.offers ++ [newOfferRow env offer rawPayload dedupHash db]).find? (·.dedupHash = dedupHash) =
      some (newOfferRow env offer rawPayload dedupHash db) := by
  have hnone : db.offers.find? (·.dedupHash = dedupHash) = none :=
    List.find?_eq_none.mpr fun row hrow heq => hfree row hrow (of_decide_eq_true heq)
  rw [List.find?_append, hnone]
  simp [newOfferRow]

theorem findContentDuplicate_some {row : OfferRow} (h : findContentDuplicate offer db = some row) :
    row ∈ db.offers ∧ sameContent offer row :=
  ⟨List.mem_of_find?_eq_some h, by simpa using List.find?_some h⟩

theorem findContentDuplicate_none (h : findContentDuplicate offer db = none) :
    ∀ row ∈ db.offers, ¬ sameContent offer row :=
  fun row hrow hsame => List.find?_eq_none.mp h row hrow (decide_eq_true hsame)

theorem persistOffer_ok (h : persistOffer env offer rawPayload s = .ok (result, s')) :
    Persisted env offer rawPayload s.working result s'.working := by
  obtain ⟨duplicate, hselect, hrest⟩ := bind_ok h
  obtain ⟨_, rfl⟩ := Session.select_ok hselect
  cases hfind : findContentDuplicate offer s.working with
  | some row =>
      rw [hfind] at hrest
      obtain ⟨rfl, rfl⟩ := Prod.mk.inj (Except.ok.inj hrest)
      obtain ⟨hmem, hsame⟩ := findContentDuplicate_some hfind
      exact .found hmem (.inl hsame)
  | none =>
      rw [hfind] at hrest
      obtain ⟨dedupHash, hlift, hrest⟩ := bind_ok hrest
      have hhash := Session.lift_ok hlift
      obtain ⟨⟨created, s₁⟩, hexecute, hrest⟩ := bind_ok hrest
      obtain ⟨db, hinsert, rfl⟩ := Session.execute_ok hexecute
      obtain ⟨found, hselect, hend⟩ := bind_ok hrest
      obtain ⟨_, rfl⟩ := Session.select_ok hselect
      obtain ⟨row, hrow⟩ := insertOffer_find hinsert
      dsimp only at hend
      rw [hrow] at hend
      obtain ⟨rfl, rfl⟩ := Prod.mk.inj (Except.ok.inj hend)
      have hdone := insertOffer_done hinsert
      split at hdone
      · obtain ⟨rfl, rfl⟩ := hdone
        have hkey : row.dedupHash = dedupHash := by simpa using List.find?_some hrow
        exact .found (List.mem_of_find?_eq_some hrow) (.inr (hkey ▸ hhash))
      · next hany =>
        obtain ⟨rfl, rfl⟩ := hdone
        have hfree : ∀ row ∈ s.working.offers, row.dedupHash ≠ dedupHash := fun row hmem heq =>
          hany (List.any_eq_true.mpr ⟨row, hmem, decide_eq_true heq⟩)
        obtain rfl := Option.some.inj ((find_newOfferRow hfree).symm.trans hrow)
        exact .created (findContentDuplicate_none hfind) hhash hfree

/-- A call that returns has not harmed its transaction. -/
theorem persistOffer_good (hgood : s.aborted = false)
    (h : persistOffer env offer rawPayload s = .ok (result, s')) : s'.aborted = false := by
  obtain ⟨base, w, aborted⟩ := s
  obtain rfl : aborted = false := hgood
  rcases @persistOffer_cases env offer rawPayload w with ⟨result', w', _, hok⟩ | ⟨e, aborted, herror⟩
  · rw [hok base] at h
    rw [← (Prod.mk.inj (Except.ok.inj h)).2]
  · rw [herror base] at h
    cases h

/-- However the call ends, the rows are those of before or what a call that returns leaves. -/
theorem persistOffer_ends {Q : Session → Prop} (hraised : ∀ aborted, Q { s with aborted })
    (hreturned : ∀ result w', s.aborted = false →
      persistOffer env offer rawPayload s = .ok (result, { s with working := w' }) →
        Q { s with working := w' }) :
    Ends Q (·.2) (·.2) (persistOffer env offer rawPayload s) := by
  obtain ⟨base, w, aborted⟩ := s
  cases aborted with
  | true => exact hraised true
  | false =>
      rcases @persistOffer_cases env offer rawPayload w with
        ⟨result, w', _, hok⟩ | ⟨e, aborted, herror⟩
      · rw [hok base]
        exact hreturned result w' rfl (hok base)
      · rw [herror base]
        exact hraised aborted

namespace Persisted

variable {db' : Database}

theorem mem (h : Persisted env offer rawPayload db result db') : result.1 ∈ db'.offers := by
  cases h with
  | found hmem hduplicate => exact hmem
  | created hcontent hhash hfree => exact List.mem_append_right _ (List.mem_singleton_self _)

theorem offer_of_created {row : OfferRow}
    (h : Persisted env offer rawPayload db (row, true) db') : row.offer = offer := by
  cases h with
  | created hcontent hhash hfree => rfl

/-- A call that has created a row has appended it; another one has changed nothing. -/
theorem offers_eq (h : Persisted env offer rawPayload db result db') :
    db'.offers = if result.2 then db.offers ++ [result.1] else db.offers := by
  cases h with
  | found hmem hduplicate => rfl
  | created hcontent hhash hfree => rfl

theorem appends (h : Persisted env offer rawPayload db result db') : db.offers <+: db'.offers := by
  rw [h.offers_eq]
  split
  · exact List.prefix_append _ _
  · exact List.prefix_rfl

theorem represented (h : Persisted env offer rawPayload db result db') :
    Represented env.text offer db'.offers := by
  cases h with
  | found hmem hduplicate => exact ⟨_, hmem, hduplicate⟩
  | created hcontent hhash hfree =>
      exact ⟨_, List.mem_append_right _ (List.mem_singleton_self _), .inr hhash⟩

/-- An offer that a row duplicates is not added again. -/
theorem unchanged (h : Persisted env offer rawPayload db result db')
    (hrepresented : Represented env.text offer db.offers) : db' = db := by
  cases h with
  | found hmem hduplicate => rfl
  | created hcontent hhash hfree =>
      obtain ⟨row, hrow, hsame | hsame⟩ := hrepresented
      · exact absurd hsame (hcontent row hrow)
      · exact absurd (Except.ok.inj (hsame.symm.trans hhash)) (hfree row hrow)

theorem sound (h : Persisted env offer rawPayload db result db')
    (hsound : OffersSound env.text db.offers) : OffersSound env.text db'.offers := by
  cases h with
  | found hmem hduplicate => exact hsound
  | @created dedupHash hcontent hhash hfree =>
      refine ⟨?_, ?_, ?_⟩
      · rw [List.map_append]
        refine List.nodup_append.mpr ⟨hsound.hashes, List.nodup_cons.mpr ⟨List.not_mem_nil, List.nodup_nil⟩, ?_⟩
        intro hash hold new hnew
        obtain ⟨row, hrow, rfl⟩ := List.mem_map.mp hold
        obtain rfl := List.mem_singleton.mp hnew
        exact hfree row hrow
      · refine List.pairwise_append.mpr ⟨hsound.contents, List.pairwise_singleton _ _, ?_⟩
        intro row hrow new hnew hsame
        obtain rfl := List.mem_singleton.mp hnew
        exact hcontent row hrow (sameContent_symm hsame)
      · intro row hrow
        rcases List.mem_append.mp hrow with hold | hnew
        · exact hsound.hashed row hold
        · obtain rfl := List.mem_singleton.mp hnew
          exact hhash

end Persisted

section Runs

variable {call : PersistCall} {calls replayed : List PersistCall}

/-- A call of the sequence goes as its kind does. -/
theorem PersistCall.persisted (h : call.run env db = .ok (result, s)) :
    Persisted { env with startedAt := call.startedAt } call.offer call.rawPayload db result
      s.working :=
  persistOffer_ok h

/-- After a call nothing has changed, or it has returned. -/
theorem PersistCall.store_cases (call : PersistCall) (db : Database) :
    call.store env db = db ∨
      ∃ result, Persisted { env with startedAt := call.startedAt } call.offer call.rawPayload db
        result (call.store env db) := by
  unfold PersistCall.store
  cases hrun : call.run env db with
  | error raised => exact .inl rfl
  | ok done =>
      obtain ⟨result, s⟩ := done
      exact .inr ⟨result, PersistCall.persisted hrun⟩

theorem PersistCall.store_appends : db.offers <+: (call.store env db).offers := by
  rcases call.store_cases db with hsame | ⟨result, h⟩
  · have hoffers : (call.store env db).offers = db.offers := congrArg Database.offers hsame
    exact hoffers ▸ List.prefix_rfl
  · exact h.appends

theorem storeAll_appends : db.offers <+: (storeAll env calls db).offers := by
  induction calls generalizing db with
  | nil => exact List.prefix_rfl
  | cons call calls ih => exact PersistCall.store_appends.trans ih

theorem storeAll_sound (h : OffersSound env.text db.offers) :
    OffersSound env.text (storeAll env calls db).offers := by
  induction calls generalizing db with
  | nil => exact h
  | cons call calls ih =>
      have hcall : OffersSound env.text (call.store env db).offers := by
        rcases @PersistCall.store_cases env call db with hsame | ⟨result, hcall⟩
        · rw [hsame]
          exact h
        · exact hcall.sound h
      exact ih hcall

theorem Represented.mono {offers offers' : List OfferRow}
    (h : Represented env.text offer offers) (happends : offers <+: offers') :
    Represented env.text offer offers' := by
  obtain ⟨row, hrow, hduplicate⟩ := h
  exact ⟨row, happends.subset hrow, hduplicate⟩

/-- Every offer that a call has returned for is represented from then on. -/
theorem processed_represented (hoffer : offer ∈ processed env calls db) :
    Represented env.text offer (storeAll env calls db).offers := by
  induction calls generalizing db with
  | nil => cases hoffer
  | cons call calls ih =>
      rw [processed] at hoffer
      cases hrun : call.run env db with
      | error raised =>
          rw [hrun] at hoffer
          exact ih hoffer
      | ok done =>
          rw [hrun] at hoffer
          rcases List.mem_cons.mp hoffer with rfl | hlater
          · have hstored : done.2.working = call.store env db := by
              rw [PersistCall.store, hrun]
            have hrepresented := (PersistCall.persisted hrun).represented
            rw [hstored] at hrepresented
            exact hrepresented.mono storeAll_appends
          · exact ih hlater

/-- Offers that are represented are not stored again. -/
theorem storeAll_represented
    (h : ∀ call ∈ replayed, Represented env.text call.offer db.offers) :
    storeAll env replayed db = db := by
  induction replayed with
  | nil => rfl
  | cons call replayed ih =>
      have hcall : call.store env db = db := by
        rcases call.store_cases db with hsame | ⟨result, hcall⟩
        · exact hsame
        · exact hcall.unchanged (h call List.mem_cons_self)
      calc storeAll env (call :: replayed) db
          = storeAll env replayed (call.store env db) := rfl
        _ = storeAll env replayed db := by rw [hcall]
        _ = db := ih fun call hmem => h call (List.mem_cons_of_mem _ hmem)

/-- From the empty store on, the offers stay free of duplicates under both rules,
with the hashes of what is stored. A further call returns a stored row, and has
created it exactly when it has appended it; no call changes a row. What has been
processed can be replayed in any order without adding anything. -/
theorem offer_store_without_duplicates (hempty : db.offers = []) :
    OffersSound env.text (storeAll env calls db).offers ∧
      (∀ call : PersistCall, ∀ result s, call.run env (storeAll env calls db) = .ok (result, s) →
        result.1 ∈ s.working.offers ∧
          s.working.offers =
            if result.2 then (storeAll env calls db).offers ++ [result.1]
            else (storeAll env calls db).offers) ∧
      (∀ call : PersistCall,
        (storeAll env calls db).offers <+: (call.store env (storeAll env calls db)).offers) ∧
      ∀ replayed : List PersistCall,
        (∀ call ∈ replayed, call.offer ∈ processed env calls db) →
          storeAll env replayed (storeAll env calls db) = storeAll env calls db := by
  refine ⟨?_, ?_, ?_, ?_⟩
  · apply storeAll_sound
    rw [hempty]
    exact ⟨List.nodup_nil, .nil, fun row hrow => absurd hrow List.not_mem_nil⟩
  · intro call result s hrun
    have hcall := PersistCall.persisted hrun
    exact ⟨hcall.mem, hcall.offers_eq⟩
  · exact fun call => PersistCall.store_appends
  · exact fun replayed h => storeAll_represented fun call hmem => processed_represented (h call hmem)

end Runs

/-- The same offer twice, and another one between. -/
def acmeCalls : List PersistCall :=
  [⟨firstOffer, acmeFields "a", 1⟩, ⟨acmeOffer "b", acmeFields "b", 2⟩,
    ⟨firstOffer, acmeFields "a", 3⟩]

theorem offer_store_without_duplicates_acme :
    OffersSound acmeEnv.text (storeAll acmeEnv acmeCalls {}).offers ∧
      storeAll acmeEnv acmeCalls.reverse (storeAll acmeEnv acmeCalls {}) =
        storeAll acmeEnv acmeCalls {} := by
  have h := @offer_store_without_duplicates acmeEnv {} acmeCalls rfl
  have hprocessed : ∀ call ∈ acmeCalls.reverse, call.offer ∈ processed acmeEnv acmeCalls {} := by
    decide
  exact ⟨h.1, h.2.2.2 acmeCalls.reverse hprocessed⟩

example : (storeAll acmeEnv acmeCalls {}).offers.map (·.createdAt) = [1, 2] := by
  decide

end RecruFlow.Ingestion
