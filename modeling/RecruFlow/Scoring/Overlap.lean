import RecruFlow.Lib.Trace
import RecruFlow.Scoring.Batch

/-!
# Overlapping batches

Each caller runs its batch in a session of its own. The lock covers the batch up
to its flush; the caller commits after it has let the lock go. Under READ
COMMITTED a selection sees what is committed, and no flushed row of another
session.
-/

namespace RecruFlow.Scoring

open Db Lib.Trace

inductive Caller where
  | idle
  | locked
  | selected (batch : Option Batch)
  | flushed (writes : BatchWrites)
  /-- The lock is free again, and the rows are not committed yet. -/
  | released (writes : BatchWrites)
  | finished

structure Callers (τ : Type) where
  committed : Database
  lock : Option τ
  caller : τ → Caller

def Callers.start {τ : Type} (db : Database) : Callers τ :=
  ⟨db, none, fun _ => .idle⟩

inductive CallerEvent (τ : Type) where
  | acquire (t : τ)
  | select (t : τ)
  | score (t : τ)
  | release (t : τ)
  | commit (t : τ)
  /-- An exception of the batch, or a rollback of its caller. -/
  | rollback (t : τ)

variable {τ : Type} [DecidableEq τ] (env : τ → BatchEnv)

def Callers.set (s : Callers τ) (t : τ) (c : Caller) : Callers τ :=
  { s with caller := Function.update s.caller t c }

def callerStep (s : Callers τ) : CallerEvent τ → Option (Callers τ)
  | .acquire t => match s.caller t, s.lock with
      | .idle, none => some { s.set t .locked with lock := some t }
      | _, _ => none
  | .select t => match s.caller t with
      | .locked => match selectBatch (env t) s.committed with
          | .ok batch => some (s.set t (.selected batch))
          | .error _ => none
      | _ => none
  | .score t => match s.caller t with
      | .selected batch => match scoreBatch (env t) batch with
          | .ok (_, writes) => some (s.set t (.flushed writes))
          | .error _ => none
      | _ => none
  | .release t => match s.caller t with
      | .flushed writes => some { s.set t (.released writes) with lock := none }
      | _ => none
  | .commit t => match s.caller t with
      | .released writes => some { s.set t .finished with
          committed := writes.apply (env t).startedAt s.committed }
      | _ => none
  | .rollback t => match s.caller t with
      | .idle | .finished => none
      | _ => some { s.set t .finished with lock := if s.lock = some t then none else s.lock }

/-- The offer and profile of a score. -/
def scoreKey (score : MatchScore) : Nat × Nat :=
  (score.offerId, score.profileId)

/-- At most one score for an offer and a profile. -/
def ScoredOnce (db : Database) : Prop :=
  (db.matchScores.map scoreKey).Nodup

instance (db : Database) : Decidable (ScoredOnce db) :=
  inferInstanceAs (Decidable (List.Nodup _))

/-- A selection finds no offer that another caller has scored for the same
profile and has not committed. -/
def SelectsSettled (s : Callers τ) : CallerEvent τ → Prop
  | .select t => ∀ batch, selectBatch (env t) s.committed = .ok (some batch) →
      ∀ t' writes, s.caller t' = .released writes → ∀ score ∈ writes.scores,
        score.profileId = batch.profileRow.id →
        score.offerId ∉ batch.selection.selected.map (·.1.id)
  | _ => True

/-- A caller that nobody disturbs commits what `run_batch_scoring` makes of the tables. -/
theorem undisturbed_caller {db db' : Database} {t : τ} {summary : BatchScoringSummary}
    (h : runBatchScoring (env t) db = .ok (summary, db')) :
    ∃ s, exec (callerStep env) (Callers.start db)
        [.acquire t, .select t, .score t, .release t, .commit t] = some s ∧
      s.committed = db' := by
  obtain ⟨batch, hselect, h⟩ := bind_ok h
  obtain ⟨⟨_, writes⟩, hscore, h⟩ := bind_ok h
  obtain rfl : writes.apply (env t).startedAt db = db' := (Prod.mk.inj (Except.ok.inj h)).2
  simp [exec_cons, callerStep, Callers.start, Callers.set, hselect, hscore]

/-! ## The invariant -/

/-- The scores that a caller is going to commit, or may be. -/
def pending : Caller → List (Nat × Nat)
  | .selected (some batch) => batch.selection.selected.map fun p => (p.1.id, batch.profileRow.id)
  | .flushed writes | .released writes => writes.scores.map scoreKey
  | _ => []

def holdsLock : Caller → Bool
  | .locked | .selected _ | .flushed _ => true
  | _ => false

/-- No two of the committed and pending scores are for the same offer and profile. -/
structure NoOverlap (s : Callers τ) : Prop where
  offers : (s.committed.offers.map (·.id)).Nodup
  committed : ScoredOnce s.committed
  pending_nodup : ∀ t, (pending (s.caller t)).Nodup
  fresh : ∀ t, ∀ p ∈ pending (s.caller t), p ∉ s.committed.matchScores.map scoreKey
  apart : ∀ t t', t ≠ t' → ∀ p ∈ pending (s.caller t), p ∉ pending (s.caller t')
  holder : ∀ t, holdsLock (s.caller t) → s.lock = some t

variable {env} {s s' : Callers τ} {t : τ}

/-- A caller that is left with fewer pending scores disturbs nobody. -/
private theorem NoOverlap.shrink (h : NoOverlap s) {c : Caller} {lock : Option τ}
    (hsub : (pending c).Sublist (pending (s.caller t)))
    (hlock : ∀ t', holdsLock ((s.set t c).caller t') → lock = some t') :
    NoOverlap { s.set t c with lock := lock } := by
  have hsub' : ∀ t', (pending ((s.set t c).caller t')).Sublist (pending (s.caller t')) := by
    intro t'
    by_cases ht : t' = t
    · subst ht
      simpa [Callers.set] using hsub
    · simp [Callers.set, Function.update_of_ne ht]
  exact
    { offers := h.offers
      committed := h.committed
      pending_nodup := fun t' => (hsub' t').nodup (h.pending_nodup t')
      fresh := fun t' p hp => h.fresh t' p ((hsub' t').subset hp)
      apart := fun t₁ t₂ hne p hp hp' =>
        h.apart t₁ t₂ hne p ((hsub' t₁).subset hp) ((hsub' t₂).subset hp')
      holder := hlock }

/-- Another caller that holds the lock now held it before. -/
private theorem holds_of_set {c : Caller} {t' : τ} (hne : t' ≠ t)
    (h : holdsLock ((s.set t c).caller t')) : holdsLock (s.caller t') := by
  simpa [Callers.set, Function.update_of_ne hne] using h

private theorem NoOverlap.select (h : NoOverlap s) {batch : Option Batch}
    (hphase : s.caller t = .locked) (hbatch : selectBatch (env t) s.committed = .ok batch)
    (hsettled : SelectsSettled env s (.select t)) : NoOverlap (s.set t (.selected batch)) := by
  have hlock : s.lock = some t := h.holder t (by rw [hphase]; rfl)
  have hholder : ∀ t', holdsLock ((s.set t (.selected batch)).caller t') → s.lock = some t' := by
    intro t' hholds
    by_cases ht : t' = t
    · rw [ht, hlock]
    · exact h.holder t' (holds_of_set ht hholds)
  cases batch with
  | none => exact h.shrink (List.nil_sublist _) hholder
  | some batch =>
      obtain ⟨_, hselection⟩ := selectBatch_some hbatch
      obtain ⟨hnew, hnodup⟩ := selectScoringCandidates_ok hselection
      have hmem : ∀ p ∈ pending (.selected (some batch)),
          p.2 = batch.profileRow.id ∧ p.1 ∈ batch.selection.selected.map (·.1.id) := by
        intro p hp
        obtain ⟨q, hq, rfl⟩ := List.mem_map.mp hp
        exact ⟨rfl, List.mem_map.mpr ⟨q, hq, rfl⟩⟩
      -- nobody else is selecting or flushed, and the released scores are settled
      have hothers : ∀ t', t' ≠ t → ∀ p ∈ pending (.selected (some batch)),
          p ∉ pending (s.caller t') := by
        intro t' ht p hp hp'
        have hfree : ¬ holdsLock (s.caller t') := by
          intro hholds
          rw [h.holder t' hholds, Option.some.injEq] at hlock
          exact ht hlock
        cases hcaller : s.caller t' with
        | idle | finished | locked => simp [hcaller, pending] at hp'
        | selected b => simp [hcaller, holdsLock] at hfree
        | flushed w => simp [hcaller, holdsLock] at hfree
        | released writes =>
            rw [hcaller] at hp'
            obtain ⟨score, hscore, rfl⟩ := List.mem_map.mp hp'
            obtain ⟨hprofile, hoffer⟩ := hmem _ hp
            exact hsettled batch hbatch t' writes hcaller score hscore hprofile hoffer
      have hself : ∀ t', pending ((s.set t (.selected (some batch))).caller t') =
          if t' = t then pending (.selected (some batch)) else pending (s.caller t') := by
        intro t'
        by_cases ht : t' = t
        · subst ht
          simp [Callers.set]
        · simp [Callers.set, ht]
      refine
        { offers := h.offers
          committed := h.committed
          pending_nodup := fun t' => ?_
          fresh := fun t' p hp => ?_
          apart := fun t₁ t₂ hne p hp hp' => ?_
          holder := hholder }
      · rw [hself]
        split
        · refine List.Nodup.of_map Prod.fst ?_
          rw [pending, List.map_map]
          exact hnodup h.offers
        · exact h.pending_nodup t'
      · rw [hself] at hp
        split at hp
        · obtain ⟨q, hq, rfl⟩ := List.mem_map.mp hp
          intro hcommitted
          obtain ⟨score, hscore, hkey⟩ := List.mem_map.mp hcommitted
          obtain ⟨hoffer, hprofile⟩ := Prod.mk.inj hkey
          refine (hnew q hq).2 (List.mem_map.mpr ⟨score, List.mem_filter.mpr ⟨hscore, ?_⟩, hoffer⟩)
          simpa using hprofile
        · exact h.fresh t' p hp
      · rw [hself] at hp hp'
        split at hp
        · next ht₁ =>
          rw [if_neg fun ht₂ => hne (ht₁.trans ht₂.symm)] at hp'
          exact hothers t₂ (fun ht₂ => hne (ht₁.trans ht₂.symm)) p hp hp'
        · next ht₁ =>
          split at hp'
          · exact hothers t₁ ht₁ p hp' hp
          · exact h.apart t₁ t₂ hne p hp hp'

private theorem NoOverlap.commit (h : NoOverlap s) {writes : BatchWrites}
    (hphase : s.caller t = .released writes) (startedAt : Int) :
    NoOverlap { s.set t .finished with committed := writes.apply startedAt s.committed } := by
  obtain ⟨rows, hrows⟩ := apply_eq writes startedAt s.committed
  have hpending : pending (s.caller t) = writes.scores.map scoreKey := by rw [hphase]; rfl
  have hkeys : (writes.apply startedAt s.committed).matchScores.map scoreKey =
      s.committed.matchScores.map scoreKey ++ pending (s.caller t) := by
    rw [hrows, hpending, ← List.map_append]
  have hself : ∀ t', pending ((s.set t .finished).caller t') =
      if t' = t then [] else pending (s.caller t') := by
    intro t'
    by_cases ht : t' = t
    · subst ht
      simp [Callers.set, pending]
    · simp [Callers.set, ht]
  refine
    { offers := by rw [hrows]; exact h.offers
      committed := ?_
      pending_nodup := fun t' => ?_
      fresh := fun t' p hp => ?_
      apart := fun t₁ t₂ hne p hp hp' => ?_
      holder := fun t' hholds => ?_ }
  · rw [ScoredOnce, hkeys]
    refine List.nodup_append.mpr ⟨h.committed, h.pending_nodup t, fun p hp q hq heq => ?_⟩
    exact h.fresh t q hq (heq ▸ hp)
  · change (pending ((s.set t .finished).caller t')).Nodup
    rw [hself]
    split
    · exact List.nodup_nil
    · exact h.pending_nodup t'
  · change p ∈ pending ((s.set t .finished).caller t') at hp
    rw [hself] at hp
    split at hp
    · cases hp
    · next ht =>
      change p ∉ (writes.apply startedAt s.committed).matchScores.map scoreKey
      rw [hkeys, List.mem_append, not_or]
      exact ⟨h.fresh t' p hp, h.apart t' t ht p hp⟩
  · change p ∈ pending ((s.set t .finished).caller t₁) at hp
    change p ∈ pending ((s.set t .finished).caller t₂) at hp'
    rw [hself] at hp hp'
    split at hp
    · cases hp
    · split at hp'
      · cases hp'
      · exact h.apart t₁ t₂ hne p hp hp'
  · by_cases ht : t' = t
    · subst ht
      simp [Callers.set, holdsLock] at hholds
    · exact h.holder t' (holds_of_set ht hholds)

omit [DecidableEq τ] in
/-- While a caller holds the lock, no other does. -/
private theorem NoOverlap.lock_free (h : NoOverlap s) (hphase : holdsLock (s.caller t)) {t' : τ}
    (hne : t' ≠ t) : ¬ holdsLock (s.caller t') := by
  intro hholds
  have := (h.holder t hphase).symm.trans (h.holder t' hholds)
  exact hne (Option.some.inj this).symm

theorem noOverlap_step {e : CallerEvent τ} (h : NoOverlap s) (hsettled : SelectsSettled env s e)
    (hstep : callerStep env s e = some s') : NoOverlap s' := by
  cases e with
  | acquire t =>
      simp only [callerStep] at hstep
      split at hstep
      · next _ _ hphase hfree =>
        obtain rfl := Option.some.inj hstep
        refine h.shrink (List.nil_sublist _) fun t' hholds => ?_
        by_cases ht : t' = t
        · rw [ht]
        · have := h.holder t' (holds_of_set ht hholds)
          rw [hfree] at this
          cases this
      · cases hstep
  | select t =>
      simp only [callerStep] at hstep
      split at hstep
      · next hphase =>
        split at hstep
        · next batch hbatch =>
          obtain rfl := Option.some.inj hstep
          exact h.select hphase hbatch hsettled
        · cases hstep
      · cases hstep
  | score t =>
      simp only [callerStep] at hstep
      split at hstep
      · next batch hphase =>
        split at hstep
        · next summary writes hscore =>
          obtain rfl := Option.some.inj hstep
          have hlock : s.lock = some t := h.holder t (by rw [hphase]; rfl)
          refine NoOverlap.shrink h ?_ fun t' hholds => ?_
          · rw [hphase]
            rcases scoreBatch_scores hscore with hnil | ⟨b, rfl, hall, hsub⟩
            · rw [pending, hnil]
              exact List.nil_sublist _
            · have hkeys : writes.scores.map scoreKey =
                  (writes.scores.map (·.offerId)).map fun id => (id, b.profileRow.id) := by
                rw [List.map_map]
                refine List.map_congr_left fun score hscore => ?_
                rw [Function.comp_apply, scoreKey, (hall score hscore).1]
              change (writes.scores.map scoreKey).Sublist
                (b.selection.selected.map fun p => (p.1.id, b.profileRow.id))
              have hsub' := hsub.map fun id => (id, b.profileRow.id)
              rwa [← hkeys, List.map_map] at hsub'
          · by_cases ht : t' = t
            · rw [ht, hlock]
            · exact h.holder t' (holds_of_set ht hholds)
        · cases hstep
      · cases hstep
  | release t =>
      simp only [callerStep] at hstep
      split at hstep
      · next writes hphase =>
        obtain rfl := Option.some.inj hstep
        have hheld : holdsLock (s.caller t) := by rw [hphase]; rfl
        refine h.shrink (by rw [hphase]; exact List.Sublist.refl _) fun t' hholds => ?_
        by_cases ht : t' = t
        · subst ht
          simp [Callers.set, holdsLock] at hholds
        · exact absurd (holds_of_set ht hholds) (h.lock_free hheld ht)
      · cases hstep
  | commit t =>
      simp only [callerStep] at hstep
      split at hstep
      · next writes hphase =>
        obtain rfl := Option.some.inj hstep
        exact h.commit hphase _
      · cases hstep
  | rollback t =>
      simp only [callerStep] at hstep
      split at hstep
      · cases hstep
      · cases hstep
      · obtain rfl := Option.some.inj hstep
        refine h.shrink (List.nil_sublist _) fun t' hholds => ?_
        by_cases ht : t' = t
        · subst ht
          simp [Callers.set, holdsLock] at hholds
        · have hheld := h.holder t' (holds_of_set ht hholds)
          rw [hheld, if_neg fun heq => ht (Option.some.inj heq)]

/-- When every selection finds the scores of the other callers committed, no
offer is ever scored twice for a profile. -/
theorem batches_score_once {db : Database} {es : List (CallerEvent τ)}
    (hoffers : (db.offers.map (·.id)).Nodup) (hdb : ScoredOnce db)
    (hsettled : Along (callerStep env) (SelectsSettled env) (Callers.start db) es)
    (hreach : Reaches (callerStep env) (Callers.start db) es s) : ScoredOnce s.committed := by
  have hstart : NoOverlap (Callers.start db : Callers τ) :=
    { offers := hoffers
      committed := hdb
      pending_nodup := fun _ => List.nodup_nil
      fresh := fun _ p hp => by cases hp
      apart := fun _ _ _ p hp => by cases hp
      holder := fun _ hholds => by cases hholds }
  exact (along_invariant (fun _ _ _ h => noOverlap_step h) hstart hsettled hreach).committed

/-! ## Two callers -/

def oneUnscored : Database :=
  { sources := [remotiveSource]
    offers := [acmeOffer]
    profiles := [⟨1, "active-profile", .active, true, some juniorProfile⟩]
    nextOfferId := 2
    nextProfileId := 2 }

/-- The second caller selects after the first has committed. -/
def oneAfterTheOther : List (CallerEvent Bool) :=
  [.acquire false, .select false, .score false, .release false, .commit false,
    .acquire true, .select true, .score true, .release true, .commit true]

theorem batches_score_once_serial :
    ∃ s, exec (callerStep fun _ => sameScore) (Callers.start oneUnscored) oneAfterTheOther =
      some s ∧ ScoredOnce s.committed := by
  refine ⟨_, rfl, batches_score_once (by decide) (by decide) ?_
    (Reaches.last (show exec (callerStep fun _ => sameScore) (Callers.start oneUnscored)
      oneAfterTheOther = some _ from rfl))⟩
  unfold oneAfterTheOther
  rw [along_cons rfl, along_cons rfl, along_cons rfl, along_cons rfl, along_cons rfl,
    along_cons rfl, along_cons rfl, along_cons rfl, along_cons rfl, along_cons rfl]
  refine ⟨trivial, ?_, trivial, trivial, trivial, trivial, ?_, trivial, trivial, trivial, trivial⟩
  all_goals
    intro batch _ t' writes hcaller
    cases t' <;> cases hcaller

/-- The second caller selects between the first one's release and its commit:
the offer is scored twice. -/
def selectBeforeCommit : List (CallerEvent Bool) :=
  [.acquire false, .select false, .score false, .release false,
    .acquire true, .select true, .score true, .release true, .commit false, .commit true]

theorem batches_score_twice :
    ∃ s, exec (callerStep fun _ => sameScore) (Callers.start oneUnscored) selectBeforeCommit =
      some s ∧ ScoredOnce oneUnscored ∧ s.committed.matchScores.map scoreKey = [(1, 1), (1, 1)] ∧
      ¬ ScoredOnce s.committed :=
  ⟨_, rfl, by decide, rfl, fun h => absurd (show [(1, 1), (1, 1)].Nodup from h) (by decide)⟩

end RecruFlow.Scoring
