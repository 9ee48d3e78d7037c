import RecruFlow.Ingestion.OfferStore
import RecruFlow.Lib.ReadCommitted
import RecruFlow.Lib.Trace
import RecruFlow.Offers.Routes

/-!
# Storing offers while others are deleted

`persist_offer` looks for a content duplicate, inserts, and reads the row back by its
hash: three statements, with what other transactions commit between them. An `INSERT`
waits for a conflicting row that another transaction has inserted or deleted and not
committed; one that loses to a committed row takes no lock on it.
-/

namespace RecruFlow.Offers

open Db Ingestion Lib.ReadCommitted Lib.Trace

/-- What a transaction does. -/
inductive OfferTask where
  /-- Calls of `persist_offer`, one after another. -/
  | ingest (calls : List PersistCall)
  /-- `DELETE /offers` -/
  | cleanup (cutoff : Int)

inductive TaskPhase where
  /-- Ahead of the content check of the next call. -/
  | checking (calls : List PersistCall)
  | inserting (call : PersistCall) (calls : List PersistCall)
  /-- The `INSERT` has returned an id, or nothing. -/
  | selecting (dedupHash : String) (insertedId : Option Nat) (calls : List PersistCall)
  /-- `assert row is not None` has failed. -/
  | asserted
  | partitioning (cutoff : Int)
  | excluding (candidateIds : List Nat)
  | deleting (deletableIds : List Nat)
  /-- The `DELETE` of the offers has some of its rows still ahead. -/
  | locking (left : List Nat)
  | ended (committed : Bool)

def OfferTask.begin : OfferTask → TaskPhase
  | ingest calls => .checking calls
  | cleanup cutoff => .partitioning cutoff

structure DeleteRace (τ : Type) where
  offers : Table τ Nat OfferRow
  nextOfferId : Nat
  phase : τ → TaskPhase
  /-- Not in the database: every row that was inserted, and what the calls returned. -/
  inserted : List (τ × OfferRow)
  returned : List (τ × OfferRow × Bool)

inductive RaceEvent (τ : Type) where
  | check (t : τ)
  | insert (t : τ)
  | select (t : τ)
  | partition (t : τ)
  | exclude (t : τ)
  | delete (t : τ)
  | lock (t : τ) (id : Nat)
  | commit (t : τ)
  | rollback (t : τ)

variable {τ : Type}

def DeleteRace.start (db : Database) (task : τ → OfferTask) : DeleteRace τ where
  offers := .of fun id => storedOffer id db
  nextOfferId := db.nextOfferId
  phase t := (task t).begin
  inserted := []
  returned := []

variable [DecidableEq τ]

def DeleteRace.set (s : DeleteRace τ) (t : τ) (phase : TaskPhase) : DeleteRace τ :=
  { s with phase := Function.update s.phase t phase }

variable (env : IngestEnv) (db : Database)

/-- The database as a statement of the transaction sees it. The other tables have no
part in this: an ingestion does not read the rows that a cleanup deletes from them. -/
def DeleteRace.seen (s : DeleteRace τ) (t : τ) : Database :=
  { db with
    offers := (List.range s.nextOfferId).filterMap (s.offers.visible t)
    nextOfferId := s.nextOfferId }

/-- Another transaction has a version of a row with the hash that is not committed. -/
def DeleteRace.conflictWaits (s : DeleteRace τ) (t : τ) (dedupHash : String) : Bool :=
  (List.range s.nextOfferId).any fun id =>
    s.offers.waits t id && s.offers.hasVersion id (·.dedupHash = dedupHash)

/-- The statements, one at a time; `none` is one that waits, or that is not the next one of
its transaction. A statement that raises, and a deadlock, end in a `rollback`. -/
def raceStep (s : DeleteRace τ) : RaceEvent τ → Option (DeleteRace τ)
  | .check t => match s.phase t with
      | .checking (call :: calls) =>
          match findContentDuplicate call.offer (s.seen db t) with
          | some row => some { s.set t (.checking calls) with
              returned := s.returned ++ [(t, row, false)] }
          | none => some (s.set t (.inserting call calls))
      | _ => none
  | .insert t => match s.phase t with
      | .inserting call calls =>
          match computeDedupHash env.text call.offer with
          | .error _ => none
          | .ok dedupHash =>
              if s.conflictWaits t dedupHash then none
              else
                let env := { env with startedAt := call.startedAt }
                let row := newOfferRow env call.offer call.rawPayload dedupHash (s.seen db t)
                match insertOffer env call.offer call.rawPayload dedupHash (s.seen db t) with
                | .done (true, _) => some { s.set t (.selecting dedupHash (some row.id) calls) with
                    offers := s.offers.write t row.id (some row)
                    nextOfferId := s.nextOfferId + 1
                    inserted := s.inserted ++ [(t, row)] }
                -- the sequence has a gap then
                | .done (false, _) => some { s.set t (.selecting dedupHash none calls) with
                    nextOfferId := s.nextOfferId + 1 }
                | _ => none
      | _ => none
  | .select t => match s.phase t with
      | .selecting dedupHash insertedId calls =>
          match (s.seen db t).offers.find? (·.dedupHash = dedupHash) with
          | some row => some { s.set t (.checking calls) with
              returned := s.returned ++ [(t, row, insertedId.isSome)] }
          | none => some (s.set t .asserted)
      | _ => none
  | .partition t => match s.phase t with
      | .partitioning cutoff =>
          let candidateIds := ((s.seen db t).offers.filter (postedBefore cutoff)).map (·.id)
          some (s.set t (if candidateIds = [] then .locking [] else .excluding candidateIds))
      | _ => none
  | .exclude t => match s.phase t with
      | .excluding candidateIds =>
          let pipelineIds := ((s.seen db t).applications.map (·.offerId)).filter (· ∈ candidateIds)
          let deletableIds := candidateIds.filter (· ∉ pipelineIds)
          some (s.set t (if deletableIds = [] then .locking [] else .deleting deletableIds))
      | _ => none
  | .delete t => match s.phase t with
      | .deleting deletableIds =>
          some (s.set t (.locking (deletableIds.filter fun id => (s.offers.visible t id).isSome)))
      | _ => none
  -- the rows come in any order
  | .lock t id => match s.phase t with
      | .locking left =>
          if id ∉ left || s.offers.waits t id then none
          -- a row that another cleanup has deleted meanwhile is passed over
          else if (s.offers.committed id).isNone then some (s.set t (.locking (left.erase id)))
          else some { s.set t (.locking (left.erase id)) with offers := s.offers.write t id none }
      | _ => none
  | .commit t => match s.phase t with
      | .checking [] | .locking [] => some { s.set t (.ended true) with offers := s.offers.commit t }
      | _ => none
  | .rollback t => match s.phase t with
      | .ended _ => none
      | _ => some { s.set t (.ended false) with offers := s.offers.rollback t }

/-! ## What is asked of the races -/

namespace TaskPhase

/-- The id that an `INSERT` has returned to a call that has not returned yet. -/
def awaits : TaskPhase → Option Nat
  | .selecting _ insertedId _ => insertedId
  | _ => none

/-- The hash of a call that has lost its `INSERT` and has not returned yet. -/
def lost : TaskPhase → Option String
  | .selecting dedupHash none _ => some dedupHash
  | _ => none

def isLocking : TaskPhase → Bool
  | .locking _ => true
  | _ => false

def isEnded : TaskPhase → Bool
  | .ended _ => true
  | _ => false

/-- A transaction with nothing to read back goes on, and has nothing to read back then. -/
structure Moves (phase phase' : TaskPhase) : Prop where
  going : phase.isEnded = false
  awaits : phase.awaits = none
  awaits' : phase'.awaits = none
  locking : phase.isLocking = true → phase'.isLocking = true

end TaskPhase

section Statement

omit [DecidableEq τ]

/-- The callers that were told that they have created the offer. -/
def DeleteRace.creators (s : DeleteRace τ) (offerId : Nat) : List τ :=
  (s.returned.filter fun r => r.2.2 && r.2.1.id = offerId).map (·.1)

/-- Every inserted row goes to the one call that has inserted it; the call may still have to
read it back, or have been rolled back before that. -/
structure CreatedOnce (s : DeleteRace τ) : Prop where
  ids : (s.inserted.map (·.2.id)).Nodup
  once : ∀ p ∈ s.inserted, s.creators p.2.id = [p.1] ∨
    s.creators p.2.id = [] ∧
      ((s.phase p.1).awaits = some p.2.id ∨ s.phase p.1 = .ended false)
  by_inserter : ∀ r ∈ s.returned, r.2.2 = true → (r.1, r.2.1) ∈ s.inserted

end Statement

/-- No call finds its last `SELECT` empty, whenever that comes; rows are created once, and
committed rows have hashes of their own. -/
structure IngestionSound (s : DeleteRace τ) : Prop where
  found : ∀ t s', raceStep env db s (.select t) = some s' → s'.phase t ≠ .asserted
  created : CreatedOnce s
  hashes : ∀ id id' row row', s.offers.committed id = some row →
    s.offers.committed id' = some row' → row.dedupHash = row'.dedupHash → id = id'

/-- A commit deletes no row whose hash a call has lost to and not read back. -/
def SparesLost (s : DeleteRace τ) : RaceEvent τ → Prop
  | .commit t => ∀ t' dedupHash, (s.phase t').lost = some dedupHash → ∀ id row,
      s.offers.written id = some (t, none) → s.offers.committed id = some row →
        row.dedupHash ≠ dedupHash
  | _ => True

/-! ## The invariant -/

/-- What holds of the rows at every moment: no two of them can come to have the same hash. -/
structure RaceInv (s : DeleteRace τ) : Prop where
  keyed : ∀ id row, s.offers.HasVersion id row → row.id = id ∧ id < s.nextOfferId
  unique : ∀ id id' row row', s.offers.HasVersion id row → s.offers.HasVersion id' row' →
    row.dedupHash = row'.dedupHash → id = id'
  fresh : ∀ id t row, s.offers.written id = some (t, some row) → s.offers.committed id = none
  deleter : ∀ id t, s.offers.written id = some (t, none) → (s.phase t).isLocking = true
  below : ∀ p ∈ s.inserted, p.2.id < s.nextOfferId
  awaited : ∀ t id, (s.phase t).awaits = some id → s.creators id = [] ∧
    ∃ row, s.offers.written id = some (t, some row) ∧ (t, row) ∈ s.inserted ∧
      ∀ dedupHash calls, s.phase t = .selecting dedupHash (some id) calls →
        row.dedupHash = dedupHash
  created : CreatedOnce s

variable {env db} {s s' : DeleteRace τ} {t t' : τ} {e : RaceEvent τ} {row : OfferRow}

theorem mem_seen (h : RaceInv s) :
    row ∈ (s.seen db t).offers ↔ ∃ id, s.offers.visible t id = some row := by
  constructor
  · intro hrow
    obtain ⟨id, _, hvisible⟩ := List.mem_filterMap.mp hrow
    exact ⟨id, hvisible⟩
  · rintro ⟨id, hvisible⟩
    have hid : id < s.nextOfferId := (h.keyed id row (.of_visible hvisible)).2
    exact List.mem_filterMap.mpr ⟨id, List.mem_range.mpr hid, hvisible⟩

/-- What a step does. -/
inductive Raced (db : Database) (s : DeleteRace τ) : RaceEvent τ → DeleteRace τ → Prop where
  /-- A transaction goes on with the rows as they are; a call may return that has created
  none, or take an id from the sequence. -/
  | moves {e : RaceEvent τ} {t : τ} {phase : TaskPhase} {notes : List (τ × OfferRow × Bool)}
      {nextOfferId : Nat} (hevent : ∀ t, e ≠ .commit t) (hmoves : (s.phase t).Moves phase)
      (hlost : ∀ dedupHash, phase.lost = some dedupHash →
        ∃ row ∈ (s.seen db t).offers, row.dedupHash = dedupHash)
      (hnotes : ∀ r ∈ notes, r.2.2 = false) (hnext : s.nextOfferId ≤ nextOfferId) :
      Raced db s e { s.set t phase with
        returned := s.returned ++ notes
        nextOfferId }
  | inserts {t : τ} {dedupHash : String} {calls : List PersistCall} {row : OfferRow}
      (hphase : ∃ call, s.phase t = .inserting call calls) (hid : row.id = s.nextOfferId)
      (hhash : row.dedupHash = dedupHash) (hwaits : s.conflictWaits t dedupHash = false)
      (hfree : ∀ row ∈ (s.seen db t).offers, row.dedupHash ≠ dedupHash) :
      Raced db s (.insert t) { s.set t (.selecting dedupHash (some row.id) calls) with
        offers := s.offers.write t row.id (some row)
        nextOfferId := s.nextOfferId + 1
        inserted := s.inserted ++ [(t, row)] }
  /-- A call returns with the row that it has inserted. -/
  | creates {t : τ} {row : OfferRow} {calls : List PersistCall}
      (hawaits : (s.phase t).awaits = some row.id)
      (hwritten : s.offers.written row.id = some (t, some row)) (hinserted : (t, row) ∈ s.inserted) :
      Raced db s (.select t) { s.set t (.checking calls) with
        returned := s.returned ++ [(t, row, true)] }
  | locks {t : τ} {id : Nat} {left : List Nat} (hlocking : (s.phase t).isLocking = true)
      (hwaits : ¬ s.offers.waits t id = true) :
      Raced db s (.lock t id) { s.set t (.locking left) with offers := s.offers.write t id none }
  | commits {t : τ} (hphase : s.phase t = .checking [] ∨ s.phase t = .locking []) :
      Raced db s (.commit t) { s.set t (.ended true) with offers := s.offers.commit t }
  | rollsBack {t : τ} (hgoing : (s.phase t).isEnded = false) :
      Raced db s (.rollback t) { s.set t (.ended false) with offers := s.offers.rollback t }

/-- A transaction that goes on without a note. -/
theorem Raced.moved {phase : TaskPhase} (hevent : ∀ t, e ≠ .commit t)
    (hmoves : (s.phase t).Moves phase)
    (hlost : ∀ dedupHash, phase.lost = some dedupHash →
      ∃ row ∈ (s.seen db t).offers, row.dedupHash = dedupHash) :
    Raced db s e (s.set t phase) := by
  have h := @Raced.moves τ _ db s e t phase [] s.nextOfferId hevent hmoves hlost
    (fun r hr => absurd hr List.not_mem_nil) (Nat.le_refl _)
  rwa [List.append_nil] at h

/-- The row that a call has inserted is the one that it reads back. -/
theorem find_awaited (db : Database) (h : RaceInv s) {dedupHash : String} {id : Nat}
    {calls : List PersistCall}
    (hphase : s.phase t = .selecting dedupHash (some id) calls) :
    ∃ row, (s.seen db t).offers.find? (·.dedupHash = dedupHash) = some row ∧ row.id = id ∧
      s.offers.written id = some (t, some row) ∧ (t, row) ∈ s.inserted := by
  have hawaits : (s.phase t).awaits = some id := by rw [hphase]; rfl
  obtain ⟨_, row, hwritten, hinserted, hhash⟩ := h.awaited t id hawaits
  have hseen : row ∈ (s.seen db t).offers :=
    (mem_seen h).mpr ⟨id, Table.visible_of_written hwritten⟩
  cases hfind : (s.seen db t).offers.find? (·.dedupHash = dedupHash) with
  | none =>
      have hnot := List.find?_eq_none.mp hfind row hseen
      exact absurd (decide_eq_true (hhash dedupHash calls hphase)) hnot
  | some found =>
      obtain ⟨id', hvisible⟩ := (mem_seen h).mp (List.mem_of_find?_eq_some hfind)
      have hsame : found.dedupHash = row.dedupHash :=
        (by simpa using List.find?_some hfind : found.dedupHash = dedupHash).trans
        (hhash dedupHash calls hphase).symm
      obtain rfl : id' = id := h.unique id' id found row (.of_visible hvisible)
        (.inr ⟨t, hwritten⟩) hsame
      obtain rfl : row = found :=
        Option.some.inj ((Table.visible_of_written hwritten).symm.trans hvisible)
      exact ⟨row, rfl, (h.keyed id' row (.inr ⟨t, hwritten⟩)).1, hwritten, hinserted⟩

theorem raced_of_step (h : RaceInv s) (hstep : raceStep env db s e = some s') : Raced db s e s' := by
  cases e with
  | check t =>
      simp only [raceStep] at hstep
      split at hstep
      · next call calls hphase =>
        split at hstep
        · next row hfind =>
          obtain rfl := Option.some.inj hstep
          refine .moves nofun ?_ nofun (by simp) (Nat.le_refl _)
          rw [hphase]
          exact ⟨rfl, rfl, rfl, nofun⟩
        · obtain rfl := Option.some.inj hstep
          refine .moved nofun ?_ nofun
          rw [hphase]
          exact ⟨rfl, rfl, rfl, nofun⟩
      · cases hstep
  | insert t =>
      simp only [raceStep] at hstep
      split at hstep
      · next call calls hphase =>
        split at hstep
        · cases hstep
        · next dedupHash hhash =>
          split at hstep
          · cases hstep
          · next hwaits =>
            split at hstep
            · next db' hinsert =>
              obtain rfl := Option.some.inj hstep
              have hdone := insertOffer_done hinsert
              split at hdone
              · cases hdone.1
              · next hany =>
                refine .inserts ⟨call, hphase⟩ rfl rfl (Bool.eq_false_iff.mpr hwaits) ?_
                intro row hrow heq
                exact hany (List.any_eq_true.mpr ⟨row, hrow, decide_eq_true heq⟩)
            · next db' hinsert =>
              obtain rfl := Option.some.inj hstep
              have hdone := insertOffer_done hinsert
              split at hdone
              · next hany =>
                have hmoves := @Raced.moves τ _ db s (.insert t) t (.selecting dedupHash none calls) []
                  (s.nextOfferId + 1) nofun (by rw [hphase]; exact ⟨rfl, rfl, rfl, nofun⟩) ?_
                  (by simp) (Nat.le_succ _)
                · rwa [List.append_nil] at hmoves
                · intro lost hlost
                  obtain rfl := Option.some.inj hlost
                  obtain ⟨row, hrow, heq⟩ := List.any_eq_true.mp hany
                  exact ⟨row, hrow, of_decide_eq_true heq⟩
              · cases hdone.1
            · cases hstep
      · cases hstep
  | select t =>
      simp only [raceStep] at hstep
      split at hstep
      · next dedupHash insertedId calls hphase =>
        cases insertedId with
        | some id =>
            obtain ⟨row, hfind, rfl, hwritten, hinserted⟩ := find_awaited db h hphase
            rw [hfind] at hstep
            obtain rfl := Option.some.inj hstep
            exact .creates (by rw [hphase]; rfl) hwritten hinserted
        | none =>
            split at hstep
            · obtain rfl := Option.some.inj hstep
              refine .moves nofun ?_ nofun (by simp) (Nat.le_refl _)
              rw [hphase]
              exact ⟨rfl, rfl, rfl, nofun⟩
            · obtain rfl := Option.some.inj hstep
              refine .moved nofun ?_ nofun
              rw [hphase]
              exact ⟨rfl, rfl, rfl, nofun⟩
      · cases hstep
  | partition t =>
      simp only [raceStep] at hstep
      split at hstep
      · next cutoff hphase =>
        obtain rfl := Option.some.inj hstep
        refine .moved nofun ?_ ?_
        · rw [hphase]
          split <;> exact ⟨rfl, rfl, rfl, nofun⟩
        · split <;> nofun
      · cases hstep
  | exclude t =>
      simp only [raceStep] at hstep
      split at hstep
      · next candidateIds hphase =>
        obtain rfl := Option.some.inj hstep
        refine .moved nofun ?_ ?_
        · rw [hphase]
          split <;> exact ⟨rfl, rfl, rfl, nofun⟩
        · split <;> nofun
      · cases hstep
  | delete t =>
      simp only [raceStep] at hstep
      split at hstep
      · next deletableIds hphase =>
        obtain rfl := Option.some.inj hstep
        refine .moved nofun ?_ nofun
        rw [hphase]
        exact ⟨rfl, rfl, rfl, nofun⟩
      · cases hstep
  | lock t id =>
      simp only [raceStep] at hstep
      split at hstep
      · next left hphase =>
        split at hstep
        · cases hstep
        · next hwaits =>
          rw [Bool.or_eq_true, not_or] at hwaits
          split at hstep
          · obtain rfl := Option.some.inj hstep
            refine .moved nofun ?_ nofun
            rw [hphase]
            exact ⟨rfl, rfl, rfl, fun _ => rfl⟩
          · obtain rfl := Option.some.inj hstep
            exact .locks (by rw [hphase]; rfl) hwaits.2
      · cases hstep
  | commit t =>
      simp only [raceStep] at hstep
      split at hstep
      · next hphase =>
        obtain rfl := Option.some.inj hstep
        exact .commits (.inl hphase)
      · next hphase =>
        obtain rfl := Option.some.inj hstep
        exact .commits (.inr hphase)
      · cases hstep
  | rollback t =>
      simp only [raceStep] at hstep
      split at hstep
      · cases hstep
      · next hgoing =>
        obtain rfl := Option.some.inj hstep
        refine .rollsBack ?_
        unfold TaskPhase.isEnded
        split
        · next c hphase => exact absurd hphase (hgoing c)
        · rfl

/-! ## What a step keeps -/

theorem DeleteRace.set_phase {phase : TaskPhase} :
    (s.set t phase).phase t' = if t' = t then phase else s.phase t' :=
  Function.update_apply ..

/-- The other tasks stay where they are. -/
theorem DeleteRace.set_phase_of_ne {phase : TaskPhase} (hne : t' ≠ t) :
    (s.set t phase).phase t' = s.phase t' := by
  rw [DeleteRace.set_phase, if_neg hne]

/-- The call has not been told that it has created the row, and may never be. -/
def Unanswered (s : DeleteRace τ) (t : τ) (id : Nat) : Prop :=
  (s.phase t).awaits = some id ∨ s.phase t = .ended false

theorem Unanswered.of_ne {phase : TaskPhase} {id : Nat} (h : Unanswered s t' id) (hne : t' ≠ t) :
    Unanswered (s.set t phase) t' id := by
  rw [Unanswered, DeleteRace.set_phase_of_ne hne]
  exact h

omit [DecidableEq τ] in
theorem CreatedOnce.keep (h : CreatedOnce s) (hinserted : s'.inserted = s.inserted)
    (hcreators : ∀ id, s'.creators id = s.creators id)
    (hreturned : ∀ r ∈ s'.returned, r.2.2 = true → r ∈ s.returned)
    (hphase : ∀ t id, Unanswered s t id → Unanswered s' t id) : CreatedOnce s' where
  ids := by
    rw [hinserted]
    exact h.ids
  once p hp := by
    rw [hcreators]
    rw [hinserted] at hp
    exact (h.once p hp).imp_right fun hnone => ⟨hnone.1, hphase p.1 p.2.id hnone.2⟩
  by_inserter r hr hcreated := by
    rw [hinserted]
    exact h.by_inserter r (hreturned r hr hcreated) hcreated

omit [DecidableEq τ] in
theorem creators_notes {notes : List (τ × OfferRow × Bool)} {id : Nat}
    (hreturned : s'.returned = s.returned ++ notes) (hnotes : ∀ r ∈ notes, r.2.2 = false) :
    s'.creators id = s.creators id := by
  have hnone : notes.filter (fun r => r.2.2 && r.2.1.id = id) = [] := by
    refine List.filter_eq_nil_iff.mpr fun r hr => ?_
    rw [hnotes r hr, Bool.false_and]
    exact Bool.false_ne_true
  rw [DeleteRace.creators, hreturned, List.filter_append, hnone, List.append_nil]
  rfl

theorem RaceInv.moves {phase : TaskPhase} {notes : List (τ × OfferRow × Bool)} {nextOfferId : Nat}
    (h : RaceInv s) (hmoves : (s.phase t).Moves phase) (hnotes : ∀ r ∈ notes, r.2.2 = false)
    (hnext : s.nextOfferId ≤ nextOfferId) :
    RaceInv { s.set t phase with
      returned := s.returned ++ notes
      nextOfferId } where
  keyed id row hversion := ⟨(h.keyed id row hversion).1, (h.keyed id row hversion).2.trans_le hnext⟩
  unique := h.unique
  fresh := h.fresh
  deleter id t' hwritten := by
    have hlocking := h.deleter id t' hwritten
    change ((s.set t phase).phase t').isLocking = true
    rw [DeleteRace.set_phase]
    split
    · next heq => exact hmoves.locking (heq ▸ hlocking)
    · exact hlocking
  below p hp := (h.below p hp).trans_le hnext
  awaited t' id hawaits := by
    change ((s.set t phase).phase t').awaits = some id at hawaits
    rw [DeleteRace.set_phase] at hawaits
    split at hawaits
    · rw [hmoves.awaits'] at hawaits
      cases hawaits
    · next hne =>
      obtain ⟨hnone, row, hwritten, hinserted, hhash⟩ := h.awaited t' id hawaits
      refine ⟨(creators_notes rfl hnotes).trans hnone, row, hwritten, hinserted, ?_⟩
      intro dedupHash calls hphase
      exact hhash dedupHash calls ((DeleteRace.set_phase_of_ne hne).symm.trans hphase)
  created := by
    refine h.created.keep rfl (fun _ => creators_notes rfl hnotes) ?_ ?_
    · intro r hr hcreated
      rcases List.mem_append.mp hr with hold | hnew
      · exact hold
      · rw [hnotes r hnew] at hcreated
        cases hcreated
    · intro t' id hunanswered
      have hne : t' ≠ t := by
        rintro rfl
        rcases hunanswered with hawaits | hended
        · rw [hmoves.awaits] at hawaits
          cases hawaits
        · have hgoing := hmoves.going
          rw [hended] at hgoing
          cases hgoing
      exact hunanswered.of_ne hne

/-- No row with the hash of an `INSERT` that goes through is there, committed or not. -/
theorem no_version (h : RaceInv s) {dedupHash : String} {call : PersistCall}
    {calls : List PersistCall} (hphase : s.phase t = .inserting call calls)
    (hwaits : s.conflictWaits t dedupHash = false)
    (hfree : ∀ row ∈ (s.seen db t).offers, row.dedupHash ≠ dedupHash) {id : Nat}
    (hversion : s.offers.HasVersion id row) : row.dedupHash ≠ dedupHash := by
  intro heq
  have hid : id < s.nextOfferId := (h.keyed id row hversion).2
  have hnot : ¬ s.offers.waits t id = true := by
    intro hwait
    have hany : s.conflictWaits t dedupHash = true := by
      refine List.any_eq_true.mpr ⟨id, List.mem_range.mpr hid, ?_⟩
      rw [hwait, Bool.true_and]
      exact Table.hasVersion_iff.mpr ⟨row, hversion, decide_eq_true heq⟩
    rw [hwaits] at hany
    cases hany
  have hvisible : s.offers.visible t id = some row := by
    rcases hversion with hcommitted | ⟨t', hwritten⟩
    · by_cases hholds : s.offers.Holds t id
      · obtain ⟨version, hwritten⟩ := hholds
        cases version with
        | none =>
            have hlocking := h.deleter id t hwritten
            rw [hphase] at hlocking
            cases hlocking
        | some other => cases hcommitted.symm.trans (h.fresh id t other hwritten)
      · rw [Table.visible_of_not_holds hholds, hcommitted]
    · obtain rfl := Table.eq_of_not_waits hnot ⟨_, hwritten⟩
      exact Table.visible_of_written hwritten
  exact hfree row ((mem_seen h).mpr ⟨id, hvisible⟩) heq

omit [DecidableEq τ] in
theorem no_creator (h : CreatedOnce s) {id : Nat} (hnew : ∀ p ∈ s.inserted, p.2.id ≠ id) :
    s.creators id = [] := by
  have hnone : s.returned.filter (fun r => r.2.2 && r.2.1.id = id) = [] := by
    refine List.filter_eq_nil_iff.mpr fun r hr hcreated => ?_
    obtain ⟨hcreated, hid⟩ := (Bool.and_eq_true _ _).mp hcreated
    exact hnew (r.1, r.2.1) (h.by_inserter r hr hcreated) (of_decide_eq_true hid)
  rw [DeleteRace.creators, hnone]
  rfl

theorem RaceInv.inserts {dedupHash : String} {calls : List PersistCall} {call : PersistCall}
    (h : RaceInv s) (hphase : s.phase t = .inserting call calls) (hid : row.id = s.nextOfferId)
    (hhash : row.dedupHash = dedupHash)
    (hfree : ∀ id other, s.offers.HasVersion id other → other.dedupHash ≠ dedupHash) :
    RaceInv { s.set t (.selecting dedupHash (some row.id) calls) with
      offers := s.offers.write t row.id (some row)
      nextOfferId := s.nextOfferId + 1
      inserted := s.inserted ++ [(t, row)] } := by
  have hold : ∀ p ∈ s.inserted, p.2.id ≠ row.id := fun p hp => by
    have := h.below p hp
    omega
  have hnew : ∀ other, ¬ s.offers.HasVersion row.id other := fun other hversion => by
    have := (h.keyed row.id other hversion).2
    omega
  have hother : ∀ {t' id}, Unanswered s t' id → t' ≠ t := by
    rintro t' id (hawaits | hended) rfl
    · rw [hphase] at hawaits
      cases hawaits
    · rw [hphase] at hended
      cases hended
  refine ⟨?_, ?_, ?_, ?_, ?_, ?_, ?_, ?_, ?_⟩
  · intro id other hversion
    rcases hversion.of_write with hversion | ⟨rfl, hrow⟩
    · have hkeyed := h.keyed id other hversion
      exact ⟨hkeyed.1, hkeyed.2.trans (Nat.lt_succ_self _)⟩
    · obtain rfl := Option.some.inj hrow
      exact ⟨rfl, hid ▸ Nat.lt_succ_self _⟩
  · intro id id' other other' hversion hversion' heq
    rcases hversion.of_write with hversion | ⟨rfl, hrow⟩
    · rcases hversion'.of_write with hversion' | ⟨rfl, hrow'⟩
      · exact h.unique id id' other other' hversion hversion' heq
      · obtain rfl := Option.some.inj hrow'
        exact absurd (heq.trans hhash) (hfree id other hversion)
    · obtain rfl := Option.some.inj hrow
      rcases hversion'.of_write with hversion' | ⟨rfl, _⟩
      · exact absurd (heq.symm.trans hhash) (hfree id' other' hversion')
      · rfl
  · intro id t' other hwritten
    rw [Table.written_write] at hwritten
    split at hwritten
    · next hk =>
      subst hk
      change s.offers.committed row.id = none
      exact Option.eq_none_iff_forall_not_mem.mpr fun other hcommitted =>
        hnew other (.inl hcommitted)
    · exact h.fresh id t' other hwritten
  · intro id t' hwritten
    rw [Table.written_write] at hwritten
    split at hwritten
    · cases hwritten
    · have hlocking := h.deleter id t' hwritten
      change ((s.set t _).phase t').isLocking = true
      rw [DeleteRace.set_phase]
      split
      · next heq =>
        rw [heq, hphase] at hlocking
        cases hlocking
      · exact hlocking
  · intro p hp
    change p.2.id < s.nextOfferId + 1
    rcases List.mem_append.mp hp with hp | hp
    · exact (h.below p hp).trans (Nat.lt_succ_self _)
    · rw [List.mem_singleton.mp hp]
      exact Nat.lt_succ_of_le hid.le
  · intro t' id hawaits
    change ((s.set t _).phase t').awaits = some id at hawaits
    rw [DeleteRace.set_phase] at hawaits
    split at hawaits
    · next heq =>
      subst heq
      obtain rfl := Option.some.inj hawaits
      refine ⟨no_creator h.created hold, row, ?_,
        List.mem_append_right _ (List.mem_singleton_self _), ?_⟩
      · rw [Table.written_write, if_pos rfl]
      · intro dedupHash' calls' hselecting
        change (s.set t' _).phase t' = _ at hselecting
        rw [DeleteRace.set_phase, if_pos rfl] at hselecting
        obtain ⟨rfl, _, _⟩ := TaskPhase.selecting.inj hselecting
        exact hhash
    · next hne =>
      obtain ⟨hnone, other, hwritten, hinserted, hsame⟩ := h.awaited t' id hawaits
      refine ⟨hnone, other, ?_, List.mem_append_left _ hinserted, ?_⟩
      · rw [Table.written_write, if_neg]
        · exact hwritten
        · rintro rfl
          exact hold _ hinserted (h.keyed row.id other (.inr ⟨t', hwritten⟩)).1
      · intro dedupHash' calls' hselecting
        exact hsame dedupHash' calls' ((DeleteRace.set_phase_of_ne hne).symm.trans hselecting)
  · change ((s.inserted ++ [(t, row)]).map (·.2.id)).Nodup
    rw [List.map_append]
    refine List.nodup_append.mpr ⟨h.created.ids, List.nodup_singleton _, ?_⟩
    rintro id hid id' hid' rfl
    obtain ⟨p, hp, rfl⟩ := List.mem_map.mp hid
    exact hold p hp (List.mem_singleton.mp hid')
  · intro p hp
    change s.creators p.2.id = [p.1] ∨ s.creators p.2.id = [] ∧
      (((s.set t _).phase p.1).awaits = some p.2.id ∨ (s.set t _).phase p.1 = .ended false)
    rw [DeleteRace.set_phase]
    rcases List.mem_append.mp hp with hp | hp
    · refine (h.created.once p hp).imp_right fun hnone => ⟨hnone.1, ?_⟩
      rw [if_neg (hother hnone.2)]
      exact hnone.2
    · obtain rfl := List.mem_singleton.mp hp
      rw [if_pos rfl]
      exact .inr ⟨no_creator h.created hold, .inl rfl⟩
  · intro r hr hcreated
    exact List.mem_append_left _ (h.created.by_inserter r hr hcreated)

theorem RaceInv.creates {calls : List PersistCall} (h : RaceInv s)
    (hawaits : (s.phase t).awaits = some row.id)
    (hwritten : s.offers.written row.id = some (t, some row)) (hinserted : (t, row) ∈ s.inserted) :
    RaceInv { s.set t (.checking calls) with returned := s.returned ++ [(t, row, true)] } := by
  have hcreators : ∀ id, ({ s.set t (.checking calls) with
      returned := s.returned ++ [(t, row, true)] } : DeleteRace τ).creators id =
        if id = row.id then s.creators id ++ [t] else s.creators id := by
    intro id
    simp only [DeleteRace.creators, List.filter_append, List.map_append]
    by_cases hid : id = row.id
    · simp [hid]
    · simp [hid, Ne.symm hid]
  refine ⟨h.keyed, h.unique, h.fresh, ?_, h.below, ?_, h.created.ids, ?_, ?_⟩
  · intro id t' hdeleted
    have hlocking := h.deleter id t' hdeleted
    change ((s.set t _).phase t').isLocking = true
    rw [DeleteRace.set_phase, if_neg]
    · exact hlocking
    · rintro rfl
      unfold TaskPhase.isLocking at hlocking
      split at hlocking
      · next hphase =>
        rw [hphase] at hawaits
        cases hawaits
      · cases hlocking
  · intro t' id hawaits'
    change ((s.set t _).phase t').awaits = some id at hawaits'
    rw [DeleteRace.set_phase] at hawaits'
    split at hawaits'
    · cases hawaits'
    · next hne =>
      obtain ⟨hnone, other, hwritten', hinserted', hsame⟩ := h.awaited t' id hawaits'
      have hid : id ≠ row.id := by
        rintro rfl
        rw [hwritten] at hwritten'
        exact hne (Prod.mk.inj (Option.some.inj hwritten')).1.symm
      refine ⟨?_, other, hwritten', hinserted', ?_⟩
      · rw [hcreators, if_neg hid]
        exact hnone
      · intro dedupHash calls' hselecting
        exact hsame dedupHash calls' ((DeleteRace.set_phase_of_ne hne).symm.trans hselecting)
  · intro p hp
    rw [hcreators]
    by_cases hid : p.2.id = row.id
    · have hsame : p = (t, row) := List.inj_on_of_nodup_map h.created.ids hp hinserted hid
      left
      rw [if_pos hid, hid, (h.awaited t row.id hawaits).1, hsame]
      rfl
    · rw [if_neg hid]
      refine (h.created.once p hp).imp_right fun hnone => ⟨hnone.1, ?_⟩
      change ((s.set t _).phase p.1).awaits = some p.2.id ∨ (s.set t _).phase p.1 = .ended false
      rw [DeleteRace.set_phase, if_neg]
      · exact hnone.2
      · intro heq
        rcases hnone.2 with hawaits' | hended
        · rw [heq, hawaits] at hawaits'
          exact hid (Option.some.inj hawaits').symm
        · rw [heq] at hended
          rw [hended] at hawaits
          cases hawaits
  · intro r hr hcreated
    rcases List.mem_append.mp hr with hr | hr
    · exact h.created.by_inserter r hr hcreated
    · rw [List.mem_singleton.mp hr]
      exact hinserted

theorem RaceInv.locks {id : Nat} {left : List Nat} (h : RaceInv s)
    (hlocking : (s.phase t).isLocking = true) (hwaits : ¬ s.offers.waits t id = true) :
    RaceInv { s.set t (.locking left) with offers := s.offers.write t id none } := by
  have hversions : ∀ id' row, (s.offers.write t id none).HasVersion id' row →
      s.offers.HasVersion id' row := fun id' row hversion =>
    hversion.of_write.resolve_right fun hnew => by cases hnew.2
  have hother : ∀ {t' id}, Unanswered s t' id → t' ≠ t := by
    rintro t' id (hawaits | hended) rfl
    · unfold TaskPhase.isLocking at hlocking
      split at hlocking
      · next hphase =>
        rw [hphase] at hawaits
        cases hawaits
      · cases hlocking
    · rw [hended] at hlocking
      cases hlocking
  refine ⟨?_, ?_, ?_, ?_, h.below, ?_, ?_⟩
  · exact fun id' row hversion => h.keyed id' row (hversions id' row hversion)
  · exact fun id₁ id₂ row₁ row₂ h₁ h₂ =>
      h.unique id₁ id₂ row₁ row₂ (hversions _ _ h₁) (hversions _ _ h₂)
  · intro id' t' row hwritten
    rw [Table.written_write] at hwritten
    split at hwritten
    · cases hwritten
    · exact h.fresh id' t' row hwritten
  · intro id' t' hwritten
    change ((s.set t _).phase t').isLocking = true
    rw [DeleteRace.set_phase]
    split
    · rfl
    · next hne =>
      rw [Table.written_write] at hwritten
      split at hwritten
      · exact absurd (Prod.mk.inj (Option.some.inj hwritten)).1.symm hne
      · exact h.deleter id' t' hwritten
  · intro t' id' hawaits
    change ((s.set t _).phase t').awaits = some id' at hawaits
    rw [DeleteRace.set_phase] at hawaits
    split at hawaits
    · cases hawaits
    · next hne =>
      obtain ⟨hnone, row, hwritten, hinserted, hsame⟩ := h.awaited t' id' hawaits
      refine ⟨hnone, row, ?_, hinserted, ?_⟩
      · rw [Table.written_write, if_neg]
        · exact hwritten
        · rintro rfl
          exact hne (Table.eq_of_not_waits hwaits ⟨_, hwritten⟩)
      · intro dedupHash calls hselecting
        exact hsame dedupHash calls ((DeleteRace.set_phase_of_ne hne).symm.trans hselecting)
  · refine h.created.keep rfl (fun _ => rfl) (fun _ hr _ => hr) fun t' id' hunanswered => ?_
    exact hunanswered.of_ne (hother hunanswered)

/-- The end of a transaction: a commit of one that has nothing to read back, or a rollback. -/
theorem RaceInv.ends {rows : Nat → Option OfferRow} {committed : Bool} (h : RaceInv s)
    (hanswered : committed = false ∨ (s.phase t).awaits = none)
    (hgoing : (s.phase t).isEnded = false)
    (hversions : ∀ id row, rows id = some row → s.offers.HasVersion id row)
    (hrows : ∀ id, ¬ s.offers.Holds t id → rows id = s.offers.committed id) :
    RaceInv { s.set t (.ended committed) with offers := ⟨rows, s.offers.release t⟩ } := by
  have hversions : ∀ id row, (Table.mk rows (s.offers.release t)).HasVersion id row →
      s.offers.HasVersion id row := by
    rintro id row (hcommitted | ⟨t', hreleased⟩)
    · exact hversions id row hcommitted
    · exact .inr ⟨t', (Table.release_eq.mp hreleased).2⟩
  refine ⟨?_, ?_, ?_, ?_, h.below, ?_, ?_⟩
  · exact fun id row hversion => h.keyed id row (hversions id row hversion)
  · exact fun id₁ id₂ row₁ row₂ h₁ h₂ =>
      h.unique id₁ id₂ row₁ row₂ (hversions _ _ h₁) (hversions _ _ h₂)
  · intro id t' row hreleased
    obtain ⟨hne, hwritten⟩ := Table.release_eq.mp hreleased
    have hnot : ¬ s.offers.Holds t id := fun hholds =>
      hne (hholds.unique ⟨_, hwritten⟩)
    exact (hrows id hnot).trans (h.fresh id t' row hwritten)
  · intro id t' hreleased
    obtain ⟨hne, hwritten⟩ := Table.release_eq.mp hreleased
    change ((s.set t _).phase t').isLocking = true
    rw [DeleteRace.set_phase_of_ne hne]
    exact h.deleter id t' hwritten
  · intro t' id hawaits
    change ((s.set t _).phase t').awaits = some id at hawaits
    rw [DeleteRace.set_phase] at hawaits
    split at hawaits
    · cases hawaits
    · next hne =>
      obtain ⟨hnone, row, hwritten, hinserted, hsame⟩ := h.awaited t' id hawaits
      refine ⟨hnone, row, Table.release_eq.mpr ⟨hne, hwritten⟩, hinserted, ?_⟩
      intro dedupHash calls hselecting
      exact hsame dedupHash calls ((DeleteRace.set_phase_of_ne hne).symm.trans hselecting)
  · refine h.created.keep rfl (fun _ => rfl) (fun _ hr _ => hr) fun t' id hunanswered => ?_
    change ((s.set t _).phase t').awaits = some id ∨ (s.set t _).phase t' = .ended false
    rw [DeleteRace.set_phase]
    split
    · next heq =>
      subst heq
      right
      rcases hanswered with hrolled | hnothing
      · rw [hrolled]
      · rcases hunanswered with hawaits | hended
        · rw [hnothing] at hawaits
          cases hawaits
        · rw [hended] at hgoing
          cases hgoing
    · exact hunanswered

theorem Raced.inv (h : RaceInv s) (hraced : Raced db s e s') : RaceInv s' := by
  cases hraced with
  | moves hevent hmoves hlost hnotes hnext => exact h.moves hmoves hnotes hnext
  | inserts hphase hid hhash hwaits hfree =>
      obtain ⟨call, hphase⟩ := hphase
      exact h.inserts hphase hid hhash fun id other => no_version h hphase hwaits hfree
  | creates hawaits hwritten hinserted => exact h.creates hawaits hwritten hinserted
  | locks hlocking hwaits => exact h.locks hlocking hwaits
  | @commits t hphase =>
      refine h.ends (.inr ?_) ?_ (fun id row => .of_visible) fun id => Table.visible_of_not_holds
      · rcases hphase with hphase | hphase <;> rw [hphase] <;> rfl
      · rcases hphase with hphase | hphase <;> rw [hphase] <;> rfl
  | rollsBack hgoing => exact h.ends (.inl rfl) hgoing (fun id row => .inl) fun _ _ => rfl

/-! ## The last `SELECT` of a call that has lost its `INSERT` -/

/-- Each such call sees a row with its hash. -/
def LostFound (s : DeleteRace τ) : Prop :=
  ∀ t dedupHash, (s.phase t).lost = some dedupHash →
    ∃ id row, s.offers.visible t id = some row ∧ row.dedupHash = dedupHash

omit [DecidableEq τ] in
theorem lost_iff {phase : TaskPhase} {dedupHash : String} :
    phase.lost = some dedupHash ↔ ∃ calls, phase = .selecting dedupHash none calls := by
  constructor
  · intro hlost
    unfold TaskPhase.lost at hlost
    split at hlost
    · next calls =>
      obtain rfl := Option.some.inj hlost
      exact ⟨calls, rfl⟩
    · cases hlost
  · rintro ⟨calls, rfl⟩
    rfl

theorem found_iff (h : RaceInv s) :
    (∀ t s', raceStep env db s (.select t) = some s' → s'.phase t ≠ .asserted) ↔ LostFound s := by
  constructor
  · intro hfound t dedupHash hlost
    obtain ⟨calls, hphase⟩ := lost_iff.mp hlost
    cases hfind : (s.seen db t).offers.find? (·.dedupHash = dedupHash) with
    | none =>
        have hstep : raceStep env db s (.select t) = some (s.set t .asserted) := by
          simp only [raceStep, hphase, hfind]
        refine absurd ?_ (hfound t _ hstep)
        rw [DeleteRace.set_phase, if_pos rfl]
    | some row =>
        obtain ⟨id, hvisible⟩ := (mem_seen h).mp (List.mem_of_find?_eq_some hfind)
        exact ⟨id, row, hvisible, by simpa using List.find?_some hfind⟩
  · intro hlost t s' hstep
    simp only [raceStep] at hstep
    split at hstep
    · next dedupHash insertedId calls hphase =>
      split at hstep
      · obtain rfl := Option.some.inj hstep
        change (s.set t _).phase t ≠ .asserted
        rw [DeleteRace.set_phase, if_pos rfl]
        nofun
      · next hnone =>
        cases insertedId with
        | some id =>
            obtain ⟨row, hfind, _⟩ := find_awaited db h hphase
            cases hnone.symm.trans hfind
        | none =>
            obtain ⟨id, row, hvisible, hhash⟩ := hlost t dedupHash (lost_iff.mpr ⟨calls, hphase⟩)
            have hnot := List.find?_eq_none.mp hnone row ((mem_seen h).mpr ⟨id, hvisible⟩)
            exact absurd (decide_eq_true hhash) hnot
    · cases hstep

theorem ingestionSound_iff (h : RaceInv s) : IngestionSound env db s ↔ LostFound s := by
  constructor
  · exact fun hsound => (found_iff h).mp hsound.found
  · intro hlost
    refine ⟨(found_iff h).mpr hlost, h.created, ?_⟩
    exact fun id id' row row' hrow hrow' => h.unique id id' row row' (.inl hrow) (.inl hrow')

/-- A commit leaves the calls that have lost a row to read exactly when it deletes none of
the rows that they have lost to. -/
theorem lostFound_commit {committed : Bool} (h : RaceInv s) (hq : LostFound s)
    (hphase : (s.phase t).lost = none) :
    LostFound { s.set t (.ended committed) with offers := s.offers.commit t } ↔
      SparesLost s (.commit t) := by
  have hne : ∀ {t' dedupHash}, (s.phase t').lost = some dedupHash → t' ≠ t := by
    rintro t' dedupHash hlost rfl
    cases hphase.symm.trans hlost
  constructor
  · intro hafter t' dedupHash hlost id row hwritten hcommitted heq
    have hlost' : ((s.set t (.ended committed)).phase t').lost = some dedupHash := by
      rw [DeleteRace.set_phase, if_neg (hne hlost)]
      exact hlost
    obtain ⟨id', row', hvisible, hhash⟩ := hafter t' dedupHash hlost'
    have hversion : s.offers.HasVersion id' row' := .of_commit (.of_visible hvisible)
    obtain rfl := h.unique id' id row' row hversion (.inl hcommitted) (hhash.trans heq.symm)
    have hgone : (s.offers.commit t).visible t' id' = none := by
      rw [Table.visible_commit_of_holds (hne hlost) ⟨none, hwritten⟩]
      exact Table.visible_of_written hwritten
    cases hgone.symm.trans hvisible
  · intro hspares t' dedupHash hlost
    change ((s.set t _).phase t').lost = some dedupHash at hlost
    rw [DeleteRace.set_phase] at hlost
    split at hlost
    · cases hlost
    · next hother =>
      obtain ⟨id, row, hvisible, hhash⟩ := hq t' dedupHash hlost
      refine ⟨id, row, ?_, hhash⟩
      have hnot : ¬ s.offers.Holds t id := by
        rintro ⟨version, hwritten⟩
        have hcommitted : s.offers.committed id = some row := by
          rwa [Table.visible_of_not_holds] at hvisible
          exact fun hholds => hother (Table.Holds.unique ⟨version, hwritten⟩ hholds)
        cases version with
        | none => exact hspares t' dedupHash hlost id row hwritten hcommitted hhash
        | some other => cases hcommitted.symm.trans (h.fresh id t other hwritten)
      exact (Table.visible_commit_of_not_holds hother hnot).trans hvisible

omit [DecidableEq τ] in
theorem sparesLost_of_ne (hevent : ∀ t, e ≠ .commit t) : SparesLost s e := by
  cases e with
  | commit t => exact absurd rfl (hevent t)
  | _ => trivial

/-- A step that commits nothing leaves the calls a row to read. -/
theorem Raced.lostFound (h : RaceInv s) (hq : LostFound s) (hraced : Raced db s e s') :
    LostFound s' ↔ SparesLost s e := by
  cases hraced with
  | @moves _ t phase notes nextOfferId hevent hmoves hlost hnotes hnext =>
      refine iff_of_true (fun t' dedupHash hlost' => ?_) (sparesLost_of_ne hevent)
      change ((s.set t phase).phase t').lost = some dedupHash at hlost'
      rw [DeleteRace.set_phase] at hlost'
      split at hlost'
      · next heq =>
        obtain ⟨row, hrow, hhash⟩ := hlost dedupHash hlost'
        obtain ⟨id, hvisible⟩ := (mem_seen h).mp hrow
        exact ⟨id, row, heq ▸ hvisible, hhash⟩
      · exact hq t' dedupHash hlost'
  | @inserts t dedupHash calls row hphase hid hhash hwaits hfree =>
      refine iff_of_true (fun t' lost hlost => ?_) trivial
      change ((s.set t _).phase t').lost = some lost at hlost
      rw [DeleteRace.set_phase] at hlost
      split at hlost
      · cases hlost
      · obtain ⟨id, other, hvisible, hsame⟩ := hq t' lost hlost
        have hbelow := (h.keyed id other (.of_visible hvisible)).2
        refine ⟨id, other, ?_, hsame⟩
        rw [Table.visible_write_of_ne (by omega)]
        exact hvisible
  | @creates t row calls hawaits hwritten hinserted =>
      refine iff_of_true (fun t' lost hlost => ?_) trivial
      change ((s.set t _).phase t').lost = some lost at hlost
      rw [DeleteRace.set_phase] at hlost
      split at hlost
      · cases hlost
      · exact hq t' lost hlost
  | @locks t id left hlocking hwaits =>
      refine iff_of_true (fun t' lost hlost => ?_) trivial
      change ((s.set t _).phase t').lost = some lost at hlost
      rw [DeleteRace.set_phase] at hlost
      split at hlost
      · cases hlost
      · next hne =>
        obtain ⟨id', row, hvisible, hhash⟩ := hq t' lost hlost
        exact ⟨id', row, (Table.visible_write_other hwaits hne).trans hvisible, hhash⟩
  | @commits t hphase =>
      refine lostFound_commit h hq ?_
      rcases hphase with hphase | hphase <;> rw [hphase] <;> rfl
  | @rollsBack t hgoing =>
      refine iff_of_true (fun t' lost hlost => ?_) trivial
      change ((s.set t _).phase t').lost = some lost at hlost
      rw [DeleteRace.set_phase] at hlost
      split at hlost
      · cases hlost
      · next hne =>
        obtain ⟨id, row, hvisible, hhash⟩ := hq t' lost hlost
        exact ⟨id, row, (Table.visible_rollback hne).trans hvisible, hhash⟩

omit [DecidableEq τ] in
theorem RaceInv.start {task : τ → OfferTask} (hhashes : (db.offers.map (·.dedupHash)).Nodup)
    (hids : ∀ row ∈ db.offers, row.id < db.nextOfferId) : RaceInv (.start db task) := by
  have hstored : ∀ {id row}, (DeleteRace.start db task).offers.HasVersion id row →
      row ∈ db.offers ∧ row.id = id := by
    rintro id row (hcommitted | ⟨t, hwritten⟩)
    · exact ⟨List.mem_of_find?_eq_some hcommitted, by simpa using List.find?_some hcommitted⟩
    · cases hwritten
  have hquiet : ∀ t, ((DeleteRace.start db task).phase t).awaits = none := fun t => by
    change ((task t).begin).awaits = none
    cases task t <;> rfl
  exact
    { keyed := fun id row hversion => by
        obtain ⟨hrow, rfl⟩ := hstored hversion
        exact ⟨rfl, hids row hrow⟩
      unique := fun id id' row row' hversion hversion' heq => by
        obtain ⟨hrow, rfl⟩ := hstored hversion
        obtain ⟨hrow', rfl⟩ := hstored hversion'
        rw [List.inj_on_of_nodup_map hhashes hrow hrow' heq]
      fresh := fun id t row hwritten => by cases hwritten
      deleter := fun id t hwritten => by cases hwritten
      below := fun p hp => absurd hp List.not_mem_nil
      awaited := fun t id hawaits => by cases (hquiet t).symm.trans hawaits
      created :=
        { ids := List.nodup_nil
          once := fun p hp => absurd hp List.not_mem_nil
          by_inserter := fun r hr => absurd hr List.not_mem_nil } }

/-- Ingestion is sound all along a run exactly when no commit of the run deletes a row that a
call has lost its `INSERT` to and not read back. -/
theorem ingestion_sound_iff {task : τ → OfferTask} {es : List (RaceEvent τ)} {u : DeleteRace τ}
    (hhashes : (db.offers.map (·.dedupHash)).Nodup)
    (hids : ∀ row ∈ db.offers, row.id < db.nextOfferId)
    (hrun : exec (raceStep env db) (.start db task) es = some u) :
    (∀ s, Reaches (raceStep env db) (.start db task) es s → IngestionSound env db s) ↔
      Along (raceStep env db) SparesLost (.start db task) es := by
  have hstart : RaceInv (.start db task) := .start hhashes hids
  have hinv : ∀ (s : DeleteRace τ) e s', RaceInv s → raceStep env db s e = some s' → RaceInv s' :=
    fun s e s' h hstep => (raced_of_step h hstep).inv h
  have hnone : LostFound (.start db task) := fun t dedupHash hlost => by
    change ((task t).begin).lost = some dedupHash at hlost
    cases hbegin : task t <;> rw [hbegin] at hlost <;> cases hlost
  have hspares : ∀ (s : DeleteRace τ) e s', RaceInv s → LostFound s → raceStep env db s e = some s' →
      (LostFound s' ↔ SparesLost s e) :=
    fun s e s' h hq hstep => (raced_of_step h hstep).lostFound h hq
  rw [← everywhere_iff_along hinv hspares hstart hnone hrun]
  refine forall_congr' fun s => forall_congr' fun hreach => ingestionSound_iff ?_
  exact invariant hinv hstart hreach

/-! ## A posting that has come back with another salary -/

/-- The posting as it was stored. -/
def storedPosting : OfferRow :=
  { id := 1
    dedupHash := "45bea61968abc70597864c25a863e19aa7e03888dca7e43ff6461bb1de0bcef6"
    offer :=
      { sourceId := 1
        title := "a"
        company := "acme"
        salaryMin := some 100
        postedAt := some ⟨10, true⟩
        valid := by decide }
    rawPayload := acmeFields "a"
    createdAt := 0 }

def storedPostingDb : Database :=
  { offers := [storedPosting]
    nextOfferId := 2 }

/-- The posting comes back while an old offer is cleaned up. -/
def comesBack : Bool → OfferTask
  | false => .ingest [⟨firstOffer, acmeFields "a", 20⟩]
  | true => .cleanup 50

/-- The offer is deleted ahead of the content check. -/
def deletedBefore : List (RaceEvent Bool) :=
  [.partition true, .exclude true, .delete true, .lock true 1, .check false, .commit true,
    .insert false, .select false, .commit false]

/-- The offer is deleted when the `INSERT` has lost to it. -/
def deletedBetween : List (RaceEvent Bool) :=
  [.check false, .insert false, .partition true, .exclude true, .delete true, .lock true 1,
    .commit true]

theorem ingestion_sound_iff_deleted_before :
    ∃ u, exec (raceStep acmeEnv storedPostingDb) (.start storedPostingDb comesBack) deletedBefore =
        some u ∧
      ((∀ s, Reaches (raceStep acmeEnv storedPostingDb) (.start storedPostingDb comesBack)
          deletedBefore s → IngestionSound acmeEnv storedPostingDb s) ↔
        Along (raceStep acmeEnv storedPostingDb) SparesLost (.start storedPostingDb comesBack)
          deletedBefore) :=
  ⟨_, rfl, ingestion_sound_iff (by decide) (by decide) rfl⟩

/-- The call finds its `SELECT` empty. -/
theorem deleted_between_asserts :
    ∃ s s', exec (raceStep acmeEnv storedPostingDb) (.start storedPostingDb comesBack)
        deletedBetween = some s ∧
      raceStep acmeEnv storedPostingDb s (.select false) = some s' ∧ s'.phase false = .asserted ∧
      ¬ IngestionSound acmeEnv storedPostingDb s := by
  refine ⟨_, _, rfl, rfl, rfl, fun hsound => ?_⟩
  exact hsound.found false _ rfl rfl

end RecruFlow.Offers
