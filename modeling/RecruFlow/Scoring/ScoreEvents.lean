import RecruFlow.Lib.Broadcast
import RecruFlow.Lib.Ledger
import RecruFlow.Scoring.Overlap

/-!
# Score events

A batch builds one event for each row that it flushes. Its caller publishes them
after the commit, without giving way to another task in between, to the
subscribers that are connected at that moment.
-/

namespace RecruFlow.Scoring

open Db Lib.Broadcast Lib.Ledger Lib.Trace

structure ScoreEvent where
  scoreId : Nat
  offerId : Nat
  title : String
  company : String
  scorePercent : Nat
  deriving DecidableEq

/-- A row of `match_scores` with its `id` column. -/
abbrev StoredScore := Nat × MatchScore

/-- `offer_by_id`: of two rows with one id, the dict keeps the later. -/
def offerById (unscored : List (OfferRow × String)) (id : Nat) : Option OfferRow :=
  (unscored.map (·.1)).reverse.find? (·.id = id)

def scoreEvent (unscored : List (OfferRow × String)) (row : StoredScore) :
    Except PyError ScoreEvent :=
  match offerById unscored row.2.offerId with
  | none => .error .keyError
  | some offer => .ok
      { scoreId := row.1
        offerId := row.2.offerId
        title := offer.offer.title
        company := offer.offer.company
        scorePercent := row.2.scorePercent }

/-- `score_events` of a batch, from the rows that its flush has numbered. -/
def scoreEvents (unscored : List (OfferRow × String)) (rows : List StoredScore) :
    Except PyError (List ScoreEvent) :=
  rows.mapM (scoreEvent unscored)

/-- The batches, the table they fill and the streams that report it. -/
structure ScoringService (τ σ : Type) where
  callers : Callers τ
  matchScores : List StoredScore
  /-- The values that the sequence of `match_scores.id` has given out. -/
  drawn : List Nat
  /-- The rows in the session of a caller, flushed and not committed. -/
  flushed : τ → List StoredScore
  /-- The `score_events` of these rows. -/
  summary : τ → List ScoreEvent
  /-- What a caller has committed and is about to publish. -/
  unpublished : τ → List ScoreEvent
  hub : Hub σ ScoreEvent

inductive ServiceEvent (τ σ : Type) where
  /-- A step of a caller; a flush is given the ids `ids`. -/
  | batch (e : CallerEvent τ) (ids : List Nat)
  /-- The loop over `publish_score`. -/
  | publish (t : τ)
  | subscribe (c : σ)
  | unsubscribe (c : σ)
  /-- The event stream takes an event from its queue and sends it. -/
  | receive (c : σ)

def unscoredOf : Caller → List (OfferRow × String)
  | .selected (some batch) => batch.selection.selected
  | _ => []

/-- The scores in the session of a caller. -/
def sessionScores : Caller → List MatchScore
  | .flushed writes | .released writes => writes.scores
  | _ => []

variable {τ σ : Type} [DecidableEq τ]

namespace ScoringService

def start (τ σ : Type) (db : Database) (ids : List Nat) : ScoringService τ σ :=
  { callers := Callers.start db
    matchScores := ids.zip db.matchScores
    drawn := ids
    flushed := fun _ => []
    summary := fun _ => []
    unpublished := fun _ => []
    hub := .start σ ScoreEvent }

/-- A sequence gives no value twice. -/
def flush (s : ScoringService τ σ) (t : τ) (ids : List Nat) (callers : Callers τ) :
    Option (ScoringService τ σ) :=
  let scores := sessionScores (callers.caller t)
  if ids.length = scores.length ∧ ids.Nodup ∧ ∀ id ∈ ids, id ∉ s.drawn then
    match scoreEvents (unscoredOf (s.callers.caller t)) (ids.zip scores) with
    | .error _ => none
    | .ok events => some
        { s with
          callers := callers
          drawn := s.drawn ++ ids
          flushed := Function.update s.flushed t (ids.zip scores)
          summary := Function.update s.summary t events }
  else none

def commit (s : ScoringService τ σ) (t : τ) (callers : Callers τ) : ScoringService τ σ :=
  { s with
    callers := callers
    matchScores := s.matchScores ++ s.flushed t
    flushed := Function.update s.flushed t []
    summary := Function.update s.summary t []
    unpublished := Function.update s.unpublished t (s.summary t) }

def rollback (s : ScoringService τ σ) (t : τ) (callers : Callers τ) : ScoringService τ σ :=
  { s with
    callers := callers
    flushed := Function.update s.flushed t []
    summary := Function.update s.summary t [] }

def publish [DecidableEq σ] (s : ScoringService τ σ) (t : τ) : ScoringService τ σ :=
  { s with
    unpublished := Function.update s.unpublished t []
    hub := s.hub.publishAll (s.unpublished t) }

end ScoringService

variable (env : τ → BatchEnv)

def serviceStep [DecidableEq σ] (s : ScoringService τ σ) : ServiceEvent τ σ → Option (ScoringService τ σ)
  | .batch e ids => (callerStep env s.callers e).bind fun callers =>
      match e with
      | .score t => s.flush t ids callers
      | .commit t => some (s.commit t callers)
      | .rollback t => some (s.rollback t callers)
      | _ => some { s with callers := callers }
  | .publish t => some (s.publish t)
  | .subscribe c => (hubStep s.hub (.subscribe c)).map fun hub => { s with hub := hub }
  | .unsubscribe c => (hubStep s.hub (.unsubscribe c)).map fun hub => { s with hub := hub }
  | .receive c => (hubStep s.hub (.receive c)).map fun hub => { s with hub := hub }

/-- The event tells of the row, and of one of the offers by the row's id. -/
structure Announces (offers : List OfferRow) (row : StoredScore) (e : ScoreEvent) : Prop where
  scoreId : e.scoreId = row.1
  offerId : e.offerId = row.2.offerId
  scorePercent : e.scorePercent = row.2.scorePercent
  offer : ∃ offer ∈ offers, offer.id = row.2.offerId ∧
    e.title = offer.offer.title ∧ e.company = offer.offer.company

/-! ## The events of one batch -/

theorem offerById_mem {unscored : List (OfferRow × String)} {id : Nat} {offer : OfferRow}
    (h : offerById unscored id = some offer) :
    offer ∈ unscored.map (·.1) ∧ offer.id = id := by
  refine ⟨List.mem_reverse.mp (List.mem_of_find?_eq_some h), ?_⟩
  have := List.find?_some h
  simpa using this

theorem exists_offerById {unscored : List (OfferRow × String)} {id : Nat}
    (h : id ∈ unscored.map (·.1.id)) : ∃ offer, offerById unscored id = some offer := by
  rw [← Option.isSome_iff_exists, offerById, List.find?_isSome]
  obtain ⟨p, hp, rfl⟩ := List.mem_map.mp h
  exact ⟨p.1, List.mem_reverse.mpr (List.mem_map_of_mem hp), decide_eq_true rfl⟩

theorem scoreEvent_ok {unscored : List (OfferRow × String)} {row : StoredScore}
    (h : row.2.offerId ∈ unscored.map (·.1.id)) :
    ∃ e, scoreEvent unscored row = .ok e ∧ Announces (unscored.map (·.1)) row e := by
  obtain ⟨offer, hoffer⟩ := exists_offerById h
  obtain ⟨hmem, hid⟩ := offerById_mem hoffer
  rw [scoreEvent, hoffer]
  exact ⟨_, rfl, rfl, rfl, rfl, offer, hmem, hid, rfl, rfl⟩

/-- The lookups of `score_events` never fail, and each event tells of its row. -/
theorem scoreEvents_ok {unscored : List (OfferRow × String)} {rows : List StoredScore}
    (h : ∀ row ∈ rows, row.2.offerId ∈ unscored.map (·.1.id)) :
    ∃ events, scoreEvents unscored rows = .ok events ∧
      List.Forall₂ (Announces (unscored.map (·.1))) rows events := by
  induction rows with
  | nil => exact ⟨[], rfl, .nil⟩
  | cons row rows ih =>
      obtain ⟨events, hevents, hall⟩ := ih fun r hr => h r (List.mem_cons_of_mem _ hr)
      obtain ⟨e, he, hannounces⟩ := scoreEvent_ok (h row List.mem_cons_self)
      refine ⟨e :: events, ?_, .cons hannounces hall⟩
      rw [scoreEvents] at hevents ⊢
      rw [List.mapM_cons, he, hevents]
      rfl

theorem Announces.mono {offers offers' : List OfferRow} {row : StoredScore} {e : ScoreEvent}
    (h : Announces offers row e) (hsub : offers ⊆ offers') : Announces offers' row e := by
  obtain ⟨offer, hoffer, heq⟩ := h.offer
  exact ⟨h.scoreId, h.offerId, h.scorePercent, offer, hsub hoffer, heq⟩

/-! ## What one step of a caller does -/

section Callers

variable {env : τ → BatchEnv} {s s' : Callers τ} {t : τ} {e : CallerEvent τ}

theorem callerStep_score (h : callerStep env s (.score t) = some s') :
    ∃ batch summary writes, s.caller t = .selected batch ∧
      scoreBatch (env t) batch = .ok (summary, writes) ∧ s' = s.set t (.flushed writes) := by
  simp only [callerStep] at h
  split at h
  · next batch hphase =>
    split at h
    · next summary writes hscore => exact ⟨_, _, _, hphase, hscore, (Option.some.inj h).symm⟩
    · cases h
  · cases h

theorem callerStep_commit (h : callerStep env s (.commit t) = some s') :
    ∃ writes, s.caller t = .released writes ∧ s' = { s.set t .finished with
      committed := writes.apply (env t).startedAt s.committed } := by
  simp only [callerStep] at h
  split at h
  · next writes hphase => exact ⟨writes, hphase, (Option.some.inj h).symm⟩
  · cases h

theorem callerStep_rollback (h : callerStep env s (.rollback t) = some s') :
    s.caller t ≠ .finished ∧ s'.committed = s.committed ∧
      s'.caller = Function.update s.caller t .finished := by
  simp only [callerStep] at h
  split at h
  · cases h
  · cases h
  · next hfinished =>
    rw [← Option.some.inj h]
    exact ⟨hfinished, rfl, rfl⟩

/-- A step that neither flushes nor ends a session. -/
def Quiet : CallerEvent τ → Prop
  | .acquire _ | .select _ | .release _ => True
  | _ => False

/-- A quiet step moves a live caller on; what its session holds stays. -/
theorem callerStep_quiet (hquiet : Quiet e) (h : callerStep env s e = some s') :
    ∃ t c, s'.committed = s.committed ∧ s'.caller = Function.update s.caller t c ∧
      s.caller t ≠ .finished ∧ sessionScores c = sessionScores (s.caller t) ∧
      ∀ batch, c = .selected (some batch) →
        ∀ p ∈ batch.selection.selected, p.1 ∈ s.committed.offers := by
  cases e with
  | acquire t =>
      simp only [callerStep] at h
      split at h
      · next _ _ hphase _ =>
        rw [← Option.some.inj h]
        refine ⟨t, .locked, rfl, rfl, ?_, ?_, fun _ hc => by cases hc⟩
        · rw [hphase]
          exact fun hc => by cases hc
        · rw [hphase]
          rfl
      · cases h
  | select t =>
      simp only [callerStep] at h
      split at h
      · next hphase =>
        split at h
        · next selected hselect =>
          rw [← Option.some.inj h]
          refine ⟨t, .selected selected, rfl, rfl, ?_, ?_, fun batch hc p hp => ?_⟩
          · rw [hphase]
            exact fun hc => by cases hc
          · rw [hphase]
            rfl
          · obtain rfl : selected = some batch := Caller.selected.inj hc
            obtain ⟨_, hselection⟩ := selectBatch_some hselect
            exact ((selectScoringCandidates_ok hselection).1 p hp).1
        · cases h
      · cases h
  | release t =>
      simp only [callerStep] at h
      split at h
      · next writes hphase =>
        rw [← Option.some.inj h]
        refine ⟨t, .released writes, rfl, rfl, ?_, ?_, fun _ hc => by cases hc⟩
        · rw [hphase]
          exact fun hc => by cases hc
        · rw [hphase]
          rfl
      · cases h
  | score _ | commit _ | rollback _ => cases hquiet

end Callers

/-! ## What one step of the service does -/

section Steps

variable {env : τ → BatchEnv} {s s' : ScoringService τ σ}

/-- Every step of the service is one of six. -/
theorem serviceStep_cases [DecidableEq σ] {event : ServiceEvent τ σ} (h : serviceStep env s event = some s') :
    (∃ t ids callers, callerStep env s.callers (.score t) = some callers ∧
      s.flush t ids callers = some s') ∨
    (∃ t callers, callerStep env s.callers (.commit t) = some callers ∧ s' = s.commit t callers) ∨
    (∃ t callers, callerStep env s.callers (.rollback t) = some callers ∧
      s' = s.rollback t callers) ∨
    (∃ e callers, Quiet e ∧ callerStep env s.callers e = some callers ∧
      s' = { s with callers := callers }) ∨
    (∃ t, event = .publish t ∧ s' = s.publish t) ∨
    ∃ hub, hub.published = s.hub.published ∧ s' = { s with hub := hub } := by
  cases event with
  | batch e ids =>
      obtain ⟨callers, hcallers, h⟩ := Option.bind_eq_some_iff.mp h
      cases e with
      | score t => exact .inl ⟨t, ids, callers, hcallers, h⟩
      | commit t => exact .inr (.inl ⟨t, callers, hcallers, (Option.some.inj h).symm⟩)
      | rollback t =>
          exact .inr (.inr (.inl ⟨t, callers, hcallers, (Option.some.inj h).symm⟩))
      | acquire t | select t | release t =>
          refine .inr (.inr (.inr (.inl ⟨_, callers, ?_, hcallers, (Option.some.inj h).symm⟩)))
          exact trivial
  | publish t =>
      refine .inr (.inr (.inr (.inr (.inl ?_))))
      exact ⟨t, rfl, (Option.some.inj h).symm⟩
  | subscribe c =>
      obtain ⟨hub, hstep, h⟩ := Option.map_eq_some_iff.mp h
      refine .inr (.inr (.inr (.inr (.inr ⟨hub, ?_, h.symm⟩))))
      simp only [hubStep] at hstep
      split at hstep
      · cases hstep
      · rw [← Option.some.inj hstep]
        rfl
  | unsubscribe c =>
      refine .inr (.inr (.inr (.inr (.inr ⟨s.hub.unsubscribe c, rfl, ?_⟩))))
      exact (Option.some.inj h).symm
  | receive c =>
      obtain ⟨hub, hstep, h⟩ := Option.map_eq_some_iff.mp h
      refine .inr (.inr (.inr (.inr (.inr ⟨hub, ?_, h.symm⟩))))
      simp only [hubStep] at hstep
      split at hstep
      · exact (receive_published hstep).1
      · cases hstep

/-- A flush adds rows under new ids, and never fails on an event. -/
theorem flush_eq_some {t : τ} {ids : List Nat} {callers : Callers τ}
    (h : s.flush t ids callers = some s') :
    ids.length = (sessionScores (callers.caller t)).length ∧ ids.Nodup ∧
      (∀ id ∈ ids, id ∉ s.drawn) ∧
      ∃ events, scoreEvents (unscoredOf (s.callers.caller t))
          (ids.zip (sessionScores (callers.caller t))) = .ok events ∧
        s' = { s with
          callers := callers
          drawn := s.drawn ++ ids
          flushed := Function.update s.flushed t (ids.zip (sessionScores (callers.caller t)))
          summary := Function.update s.summary t events } := by
  simp only [ScoringService.flush] at h
  split at h
  · next hids =>
    split at h
    · cases h
    · next events hevents =>
      exact ⟨hids.1, hids.2.1, hids.2.2, events, hevents, (Option.some.inj h).symm⟩
  · cases h

end Steps

/-! ## The rows -/

/-- Every row is in the table or in one session, under an id of its own. -/
structure Accounted (db : Database) (s : ScoringService τ σ) : Prop where
  offers : s.callers.committed.offers = db.offers
  table : s.matchScores.map (·.2) = s.callers.committed.matchScores
  selected : ∀ t batch, s.callers.caller t = .selected (some batch) →
    ∀ p ∈ batch.selection.selected, p.1 ∈ db.offers
  session : ∀ t, (s.flushed t).map (·.2) = sessionScores (s.callers.caller t)
  summary : ∀ t, List.Forall₂ (Announces db.offers) (s.flushed t) (s.summary t)
  ids : HeldOnce Prod.fst (accounts s.matchScores s.flushed)
  drawn : ∀ i, ∀ row ∈ accounts s.matchScores s.flushed i, row.1 ∈ s.drawn

section Accounted

variable {env : τ → BatchEnv} {db : Database} {s s' : ScoringService τ σ} {t : τ}
  {callers : Callers τ}

theorem Accounted.flush (h : Accounted db s) {ids : List Nat}
    (hcallers : callerStep env s.callers (.score t) = some callers)
    (hstep : s.flush t ids callers = some s') : Accounted db s' := by
  obtain ⟨batch, summary, writes, hphase, hscore, rfl⟩ := callerStep_score hcallers
  obtain ⟨hlength, hnodup, hfresh, events, hevents, rfl⟩ := flush_eq_some hstep
  have hself : (s.callers.set t (.flushed writes)).caller t = .flushed writes :=
    Function.update_self _ _ _
  rw [hself] at hlength hevents ⊢
  rw [hphase] at hevents
  have hempty : s.flushed t = [] := by
    have hsession := h.session t
    rw [hphase] at hsession
    exact List.map_eq_nil_iff.mp hsession
  have hkeys : (ids.zip (sessionScores (.flushed writes))).map Prod.fst = ids :=
    List.map_fst_zip hlength.le
  have hnew : ∀ row ∈ ids.zip (sessionScores (.flushed writes)), row.1 ∈ ids :=
    fun row hrow => hkeys ▸ List.mem_map_of_mem hrow
  have hannounced : List.Forall₂ (Announces db.offers)
      (ids.zip (sessionScores (.flushed writes))) events := by
    rcases scoreBatch_scores hscore with hnil | ⟨b, rfl, -, hsub⟩
    · rw [sessionScores, hnil, List.zip_nil_right] at hevents ⊢
      rw [← Except.ok.inj hevents]
      exact .nil
    · obtain ⟨events', hevents', hall⟩ := @scoreEvents_ok
        b.selection.selected (ids.zip writes.scores) fun row hrow =>
          hsub.subset (List.mem_map_of_mem (List.of_mem_zip hrow).2)
      obtain rfl : events' = events := Except.ok.inj (hevents'.symm.trans hevents)
      refine hall.imp fun row e he => he.mono fun offer hoffer => ?_
      obtain ⟨p, hp, rfl⟩ := List.mem_map.mp hoffer
      exact h.selected t b hphase p hp
  exact
    { offers := h.offers
      table := h.table
      selected := fun t' b hb => by
        refine h.selected t' b ?_
        by_cases ht : t' = t
        · rw [ht, hself] at hb
          cases hb
        · exact (Function.update_of_ne ht _ _).symm.trans hb
      session := fun t' => by
        by_cases ht : t' = t
        · rw [ht, hself]
          change (Function.update s.flushed t _ t).map _ = _
          rw [Function.update_self]
          exact List.map_snd_zip hlength.ge
        · change (Function.update s.flushed t _ t').map _ =
            sessionScores (Function.update s.callers.caller t _ t')
          rw [Function.update_of_ne ht, Function.update_of_ne ht]
          exact h.session t'
      summary := fun t' => by
        change List.Forall₂ _ (Function.update s.flushed t _ t') (Function.update s.summary t _ t')
        by_cases ht : t' = t
        · rw [ht, Function.update_self, Function.update_self]
          exact hannounced
        · rw [Function.update_of_ne ht, Function.update_of_ne ht]
          exact h.summary t'
      ids := by
        refine h.ids.take hempty (by rwa [hkeys]) fun row hrow i row' hrow' heq => ?_
        exact hfresh row.1 (hnew row hrow) (heq ▸ h.drawn i row' hrow')
      drawn := fun i row hrow => by
        rw [accounts_update_own] at hrow
        by_cases hi : i = some t
        · rw [hi, Function.update_self] at hrow
          exact List.mem_append_right _ (hnew row hrow)
        · rw [Function.update_of_ne hi] at hrow
          exact List.mem_append_left _ (h.drawn i row hrow) }

/-- What a session holds leaves it when the session ends. -/
theorem session_ended (h : Accounted db s)
    (hcaller : callers.caller = Function.update s.callers.caller t .finished) :
    (∀ t' batch, callers.caller t' = .selected (some batch) →
      ∀ p ∈ batch.selection.selected, p.1 ∈ db.offers) ∧
    (∀ t', (Function.update s.flushed t [] t').map (·.2) = sessionScores (callers.caller t')) ∧
    ∀ t', List.Forall₂ (Announces db.offers) (Function.update s.flushed t [] t')
      (Function.update s.summary t [] t') := by
  rw [hcaller]
  refine ⟨fun t' b hb => ?_, fun t' => ?_, fun t' => ?_⟩
  · by_cases ht : t' = t
    · rw [ht, Function.update_self] at hb
      cases hb
    · rw [Function.update_of_ne ht] at hb
      exact h.selected t' b hb
  · by_cases ht : t' = t
    · rw [ht, Function.update_self, Function.update_self]
      rfl
    · rw [Function.update_of_ne ht, Function.update_of_ne ht]
      exact h.session t'
  · by_cases ht : t' = t
    · rw [ht, Function.update_self, Function.update_self]
      exact .nil
    · rw [Function.update_of_ne ht, Function.update_of_ne ht]
      exact h.summary t'

theorem Accounted.commit (h : Accounted db s)
    (hcallers : callerStep env s.callers (.commit t) = some callers) :
    Accounted db (s.commit t callers) := by
  obtain ⟨writes, hphase, rfl⟩ := callerStep_commit hcallers
  obtain ⟨rows, hrows⟩ := apply_eq writes (env t).startedAt s.callers.committed
  obtain ⟨hselected, hsession, hsummary⟩ := session_ended h
    (show ({ s.callers.set t .finished with
      committed := writes.apply (env t).startedAt s.callers.committed } : Callers τ).caller = _
      from rfl)
  exact
    { offers := by
        change (writes.apply _ _).offers = _
        rw [hrows]
        exact h.offers
      table := by
        change (s.matchScores ++ s.flushed t).map _ = (writes.apply _ _).matchScores
        rw [hrows, List.map_append, h.table, h.session t, hphase]
        rfl
      selected := hselected
      session := hsession
      summary := hsummary
      ids := h.ids.hand_over t
      drawn := fun i row hrow => by
        change row ∈ accounts (s.matchScores ++ s.flushed t) (Function.update s.flushed t []) i
          at hrow
        cases i with
        | none =>
            rcases List.mem_append.mp hrow with hrow | hrow
            · exact h.drawn none row hrow
            · exact h.drawn (some t) row hrow
        | some t' =>
            change row ∈ Function.update s.flushed t [] t' at hrow
            by_cases ht : t' = t
            · rw [ht, Function.update_self] at hrow
              cases hrow
            · rw [Function.update_of_ne ht] at hrow
              exact h.drawn (some t') row hrow }

theorem Accounted.rollback (h : Accounted db s)
    (hcallers : callerStep env s.callers (.rollback t) = some callers) :
    Accounted db (s.rollback t callers) := by
  obtain ⟨-, hcommitted, hcaller⟩ := callerStep_rollback hcallers
  obtain ⟨hselected, hsession, hsummary⟩ := session_ended h hcaller
  exact
    { offers := by
        change callers.committed.offers = _
        rw [hcommitted, h.offers]
      table := by
        change s.matchScores.map _ = callers.committed.matchScores
        rw [hcommitted, h.table]
      selected := hselected
      session := hsession
      summary := hsummary
      ids := h.ids.give_up t
      drawn := fun i row hrow => by
        change row ∈ accounts s.matchScores (Function.update s.flushed t []) i at hrow
        rw [accounts_update_own] at hrow
        by_cases hi : i = some t
        · rw [hi, Function.update_self] at hrow
          cases hrow
        · rw [Function.update_of_ne hi] at hrow
          exact h.drawn i row hrow }

theorem Accounted.quiet (h : Accounted db s) {e : CallerEvent τ} (hquiet : Quiet e)
    (hcallers : callerStep env s.callers e = some callers) :
    Accounted db { s with callers := callers } := by
  obtain ⟨t, c, hcommitted, hcaller, -, hscores, hbatch⟩ := callerStep_quiet hquiet hcallers
  exact
    { offers := by
        change callers.committed.offers = _
        rw [hcommitted, h.offers]
      table := by
        change s.matchScores.map _ = callers.committed.matchScores
        rw [hcommitted, h.table]
      selected := fun t' b hb => by
        change callers.caller t' = _ at hb
        rw [hcaller] at hb
        by_cases ht : t' = t
        · rw [ht, Function.update_self] at hb
          rw [← h.offers]
          exact hbatch b hb
        · rw [Function.update_of_ne ht] at hb
          exact h.selected t' b hb
      session := fun t' => by
        change (s.flushed t').map _ = sessionScores (callers.caller t')
        rw [hcaller]
        by_cases ht : t' = t
        · rw [ht, Function.update_self, hscores, h.session t]
        · rw [Function.update_of_ne ht, h.session t']
      summary := h.summary
      ids := h.ids
      drawn := h.drawn }

theorem accounted_step [DecidableEq σ] {event : ServiceEvent τ σ} (h : Accounted db s)
    (hstep : serviceStep env s event = some s') : Accounted db s' := by
  rcases serviceStep_cases hstep with ⟨t, ids, callers, hcallers, hflush⟩ |
    ⟨t, callers, hcallers, rfl⟩ | ⟨t, callers, hcallers, rfl⟩ |
    ⟨e, callers, hquiet, hcallers, rfl⟩ | ⟨t, -, rfl⟩ | ⟨hub, -, rfl⟩
  · exact h.flush hcallers hflush
  · exact h.commit hcallers
  · exact h.rollback hcallers
  · exact h.quiet hquiet hcallers
  · exact ⟨h.offers, h.table, h.selected, h.session, h.summary, h.ids, h.drawn⟩
  · exact ⟨h.offers, h.table, h.selected, h.session, h.summary, h.ids, h.drawn⟩

end Accounted

/-! ## The events -/

/-- The events that are out, and for each caller those it has yet to publish. -/
abbrev events (s : ScoringService τ σ) : Option τ → List ScoreEvent :=
  accounts s.hub.published s.unpublished

/-- Of the committed rows beyond `before`, each has one event, and no event is without a row. -/
structure Announced (db : Database) (before : List StoredScore) (s : ScoringService τ σ) :
    Prop where
  kept : before ⊆ s.matchScores
  ended : ∀ t, s.unpublished t ≠ [] → s.callers.caller t = .finished
  once : HeldOnce ScoreEvent.scoreId (events s)
  truthful : ∀ i, ∀ e ∈ events s i, ∃ row ∈ s.matchScores, Announces db.offers row e
  complete : ∀ row ∈ s.matchScores, row ∈ before ∨
    ∃ i, ∃ e ∈ events s i, Announces db.offers row e

section Announced

variable {env : τ → BatchEnv} {db : Database} {before : List StoredScore}
  {s s' : ScoringService τ σ} {t : τ} {callers : Callers τ}

theorem scoreIds_eq {rows : List StoredScore} {es : List ScoreEvent} {offers : List OfferRow}
    (h : List.Forall₂ (Announces offers) rows es) :
    es.map ScoreEvent.scoreId = rows.map Prod.fst := by
  induction h with
  | nil => rfl
  | cons hannounces _ ih => rw [List.map_cons, List.map_cons, hannounces.scoreId, ih]

theorem exists_announced {rows : List StoredScore} {es : List ScoreEvent}
    {offers : List OfferRow} (h : List.Forall₂ (Announces offers) rows es) :
    (∀ e ∈ es, ∃ row ∈ rows, Announces offers row e) ∧
      ∀ row ∈ rows, ∃ e ∈ es, Announces offers row e := by
  induction h with
  | nil => simp
  | cons hannounces _ ih =>
      refine ⟨List.forall_mem_cons.mpr ⟨⟨_, List.mem_cons_self, hannounces⟩, fun e he => ?_⟩,
        List.forall_mem_cons.mpr ⟨⟨_, List.mem_cons_self, hannounces⟩, fun row hrow => ?_⟩⟩
      · obtain ⟨row, hrow, hann⟩ := ih.1 e he
        exact ⟨row, List.mem_cons_of_mem _ hrow, hann⟩
      · obtain ⟨e, he, hann⟩ := ih.2 row hrow
        exact ⟨e, List.mem_cons_of_mem _ he, hann⟩

omit [DecidableEq τ] in
/-- A caller that has not ended its session has nothing to publish. -/
theorem Announced.unpublished_eq_nil (h : Announced db before s)
    (hlive : s.callers.caller t ≠ .finished) : s.unpublished t = [] := by
  by_contra hne
  exact hlive (h.ended t hne)

theorem Announced.commit (h : Announced db before s) (haccounted : Accounted db s)
    (hcallers : callerStep env s.callers (.commit t) = some callers) :
    Announced db before (s.commit t callers) := by
  obtain ⟨writes, hphase, rfl⟩ := callerStep_commit hcallers
  have hnone : s.unpublished t = [] := h.unpublished_eq_nil (by rw [hphase]; simp)
  obtain ⟨htruthful, hcomplete⟩ := exists_announced (haccounted.summary t)
  have hevents : events (s.commit t { s.callers.set t .finished with
      committed := writes.apply (env t).startedAt s.callers.committed }) =
      Function.update (events s) (some t) (s.summary t) := accounts_update_own
  constructor
  · exact fun row hrow => List.mem_append_left _ (h.kept hrow)
  · intro t' hne
    change Function.update s.unpublished t (s.summary t) t' ≠ [] at hne
    change Function.update s.callers.caller t Caller.finished t' = .finished
    by_cases ht : t' = t
    · rw [ht, Function.update_self]
    · rw [Function.update_of_ne ht] at hne ⊢
      exact h.ended t' hne
  · refine h.once.take hnone ?_ fun e he i e' he' heq => ?_
    · rw [scoreIds_eq (haccounted.summary t)]
      exact haccounted.ids.nodup (some t)
    · -- the new rows are not in the table yet, and the old events are of rows that are
      obtain ⟨row, hrow, hann⟩ := htruthful e he
      obtain ⟨row', hrow', hann'⟩ := h.truthful i e' he'
      refine haccounted.ids.apart (some t) none (Option.some_ne_none t) row hrow row' hrow' ?_
      rw [← hann.scoreId, ← hann'.scoreId, heq]
  · intro i e he
    rw [hevents] at he
    by_cases hi : i = some t
    · rw [hi, Function.update_self] at he
      obtain ⟨row, hrow, hann⟩ := htruthful e he
      exact ⟨row, List.mem_append_right _ hrow, hann⟩
    · rw [Function.update_of_ne hi] at he
      obtain ⟨row, hrow, hann⟩ := h.truthful i e he
      exact ⟨row, List.mem_append_left _ hrow, hann⟩
  · intro row hrow
    rw [hevents]
    rcases List.mem_append.mp hrow with hrow | hrow
    · rcases h.complete row hrow with hbefore | ⟨i, e, he, hann⟩
      · exact .inl hbefore
      · refine .inr ⟨i, e, ?_, hann⟩
        rwa [Function.update_of_ne]
        rintro rfl
        rw [show events s (some t) = [] from hnone] at he
        cases he
    · obtain ⟨e, he, hann⟩ := hcomplete row hrow
      exact .inr ⟨some t, e, by rwa [Function.update_self], hann⟩

theorem Announced.publish [DecidableEq σ] (h : Announced db before s) (t : τ) :
    Announced db before (s.publish t) := by
  have hmem : ∀ e, (∃ i, e ∈ events (s.publish t) i) ↔ ∃ i, e ∈ events s i := by
    intro e
    have hout : (s.publish t).hub.published = s.hub.published ++ s.unpublished t :=
      publishAll_published
    constructor
    · rintro ⟨_ | t', he⟩
      · rw [show events (s.publish t) none = _ from hout] at he
        rcases List.mem_append.mp he with he | he
        · exact ⟨none, he⟩
        · exact ⟨some t, he⟩
      · change e ∈ Function.update s.unpublished t [] t' at he
        by_cases ht : t' = t
        · rw [ht, Function.update_self] at he
          cases he
        · rw [Function.update_of_ne ht] at he
          exact ⟨some t', he⟩
    · rintro ⟨_ | t', he⟩
      · exact ⟨none, by
          rw [show events (s.publish t) none = _ from hout]
          exact List.mem_append_left _ he⟩
      · by_cases ht : t' = t
        · refine ⟨none, ?_⟩
          rw [show events (s.publish t) none = _ from hout]
          exact List.mem_append_right _ (ht ▸ he)
        · refine ⟨some t', ?_⟩
          change e ∈ Function.update s.unpublished t [] t'
          rwa [Function.update_of_ne ht]
  constructor
  · exact h.kept
  · intro t' hne
    change Function.update s.unpublished t [] t' ≠ [] at hne
    by_cases ht : t' = t
    · rw [ht, Function.update_self] at hne
      exact absurd rfl hne
    · rw [Function.update_of_ne ht] at hne
      exact h.ended t' hne
  · have hmoved := h.once.hand_over t
    rwa [← publishAll_published] at hmoved
  · intro i e he
    obtain ⟨i', he'⟩ := (hmem e).mp ⟨i, he⟩
    exact h.truthful i' e he'
  · intro row hrow
    rcases h.complete row hrow with hbefore | ⟨i, e, he, hann⟩
    · exact .inl hbefore
    · obtain ⟨i', he'⟩ := (hmem e).mpr ⟨i, he⟩
      exact .inr ⟨i', e, he', hann⟩

omit [DecidableEq τ] in
/-- A step that leaves the events and the table alone, and revives no caller. -/
theorem Announced.other (h : Announced db before s) (hrows : s'.matchScores = s.matchScores)
    (hpublished : s'.hub.published = s.hub.published) (hnone : s'.unpublished = s.unpublished)
    (hended : ∀ t, s.callers.caller t = .finished → s'.callers.caller t = .finished) :
    Announced db before s' := by
  have hevents : events s' = events s := by
    rw [events, hpublished, hnone]
  refine ⟨hrows ▸ h.kept, fun t hne => ?_, by rw [hevents]; exact h.once, ?_, ?_⟩
  · rw [hnone] at hne
    exact hended t (h.ended t hne)
  · rw [hevents, hrows]
    exact h.truthful
  · rw [hevents, hrows]
    exact h.complete

theorem announced_step [DecidableEq σ] {event : ServiceEvent τ σ} (h : Announced db before s)
    (haccounted : Accounted db s) (hstep : serviceStep env s event = some s') :
    Announced db before s' := by
  have hkeeps : ∀ {t : τ} {c : Caller}, s.callers.caller t ≠ .finished → ∀ t',
      s.callers.caller t' = .finished →
        Function.update s.callers.caller t c t' = .finished := by
    intro t c hlive t' hfinished
    rwa [Function.update_of_ne]
    rintro rfl
    exact hlive hfinished
  rcases serviceStep_cases hstep with ⟨t, ids, callers, hcallers, hflush⟩ |
    ⟨t, callers, hcallers, rfl⟩ | ⟨t, callers, hcallers, rfl⟩ |
    ⟨e, callers, hquiet, hcallers, rfl⟩ | ⟨t, -, rfl⟩ | ⟨hub, hpublished, rfl⟩
  · obtain ⟨-, -, -, events, -, rfl⟩ := flush_eq_some hflush
    obtain ⟨batch, _, writes, hphase, -, rfl⟩ := callerStep_score hcallers
    exact h.other rfl rfl rfl (hkeeps (by rw [hphase]; simp))
  · exact h.commit haccounted hcallers
  · obtain ⟨hlive, -, hcaller⟩ := callerStep_rollback hcallers
    refine h.other rfl rfl rfl fun t' hfinished => ?_
    change callers.caller t' = .finished
    rw [hcaller]
    by_cases ht : t' = t
    · rw [ht, Function.update_self]
    · rwa [Function.update_of_ne ht]
  · obtain ⟨t, c, -, hcaller, hlive, -⟩ := callerStep_quiet hquiet hcallers
    refine h.other rfl rfl rfl fun t' hfinished => ?_
    change callers.caller t' = .finished
    rw [hcaller]
    exact hkeeps hlive t' hfinished
  · exact h.publish t
  · exact h.other rfl hpublished rfl fun _ => id

end Announced

/-! ## Every subscriber hears of every score once -/

section Delivery

variable [DecidableEq σ] {env : τ → BatchEnv} {db : Database} {s s' : ScoringService τ σ} {c : σ}

/-- A step of the service is some steps of its hub. -/
theorem serviceStep_hub {event : ServiceEvent τ σ} (h : serviceStep env s event = some s') :
    ∃ events, exec hubStep s.hub events = some s'.hub ∧
      ∀ c, HubEvent.unsubscribe c ∈ events → event = .unsubscribe c := by
  have hsame : ∀ {hub : Hub σ ScoreEvent}, s.hub = hub → ∃ events,
      exec hubStep s.hub events = some hub ∧
        ∀ c, HubEvent.unsubscribe c ∈ events → event = .unsubscribe c :=
    fun heq => ⟨[], by rw [heq]; rfl, fun _ hc => by cases hc⟩
  cases event with
  | batch e ids =>
      obtain ⟨callers, hcallers, h⟩ := Option.bind_eq_some_iff.mp h
      cases e with
      | score t =>
          obtain ⟨-, -, -, _, -, rfl⟩ := flush_eq_some h
          exact hsame rfl
      | acquire t | select t | release t | commit t | rollback t =>
          rw [← Option.some.inj h]
          exact hsame rfl
  | publish t =>
      rw [← Option.some.inj h]
      refine ⟨_, exec_publish_map (s.unpublished t), fun c hc => ?_⟩
      obtain ⟨e, -, he⟩ := List.mem_map.mp hc
      cases he
  | subscribe c =>
      obtain ⟨hub, hstep, rfl⟩ := Option.map_eq_some_iff.mp h
      exact ⟨[.subscribe c], by rw [exec_cons, hstep]; rfl, fun c' hc => by simp at hc⟩
  | unsubscribe c =>
      rw [← Option.some.inj h]
      refine ⟨[.unsubscribe c], rfl, fun c' hc => ?_⟩
      rw [HubEvent.unsubscribe.inj (List.mem_singleton.mp hc)]
  | receive c =>
      obtain ⟨hub, hstep, rfl⟩ := Option.map_eq_some_iff.mp h
      exact ⟨[.receive c], by rw [exec_cons, hstep]; rfl, fun c' hc => by simp at hc⟩

theorem service_heardSince {past : List ScoreEvent} {events : List (ServiceEvent τ σ)}
    (h : HeardSince past c s.hub) (hstay : .unsubscribe c ∉ events)
    (hrun : exec (serviceStep env) s events = some s') : HeardSince past c s'.hub := by
  induction events generalizing s with
  | nil => exact Option.some.inj hrun ▸ h
  | cons event events ih =>
      obtain ⟨s₁, hstep, hrun⟩ := exec_cons_some.mp hrun
      rw [List.mem_cons, not_or] at hstay
      obtain ⟨hubEvents, hhub, hleaves⟩ := serviceStep_hub hstep
      exact ih (heardSince_exec h (fun hc => hstay.1 (hleaves c hc).symm) hhub) hstay.2 hrun

/-- What holds of the rows and of the events, together. -/
theorem service_exec {before : List StoredScore} {events : List (ServiceEvent τ σ)}
    (h : Accounted db s ∧ Announced db before s)
    (hrun : exec (serviceStep env) s events = some s') :
    Accounted db s' ∧ Announced db before s' :=
  invariant (I := fun s => Accounted db s ∧ Announced db before s)
    (fun _ _ _ hI hstep => ⟨accounted_step hI.1 hstep, announced_step hI.2 hI.1 hstep⟩)
    h (.last hrun)

omit [DecidableEq τ] [DecidableEq σ] in
theorem start_accounted {ids : List Nat} (hids : ids.Nodup)
    (hlength : ids.length = db.matchScores.length) :
    Accounted db (.start τ σ db ids) ∧
      Announced db (ids.zip db.matchScores) (.start τ σ db ids) := by
  have hkeys : (ids.zip db.matchScores).map Prod.fst = ids := List.map_fst_zip hlength.le
  constructor
  · exact
      { offers := rfl
        table := List.map_snd_zip hlength.ge
        selected := fun _ _ hc => by cases hc
        session := fun _ => rfl
        summary := fun _ => .nil
        ids :=
          { nodup := fun i => by
              cases i with
              | none =>
                  change ((ids.zip db.matchScores).map Prod.fst).Nodup
                  rwa [hkeys]
              | some t => exact List.nodup_nil
            apart := fun i j hij a ha b hb => by
              cases i with
              | none =>
                  cases j with
                  | none => exact absurd rfl hij
                  | some t => cases hb
              | some t => cases ha }
        drawn := fun i row hrow => by
          cases i with
          | none => exact (List.of_mem_zip hrow).1
          | some t => cases hrow }
  · exact
      { kept := List.Subset.refl _
        ended := fun _ hne => absurd rfl hne
        once :=
          { nodup := fun i => by cases i <;> exact List.nodup_nil
            apart := fun i _ _ a ha => by cases i <;> cases ha }
        truthful := fun i e he => by cases i <;> cases he
        complete := fun _ hrow => .inl hrow }

/-- While a stream is connected, it is handed what is published, in order; no
score twice, none that is not committed, and of the scores committed since it
connected every one whose caller has come to publish it. -/
theorem subscriber_hears_each_score_once {ids : List Nat} {s₁ : ScoringService τ σ}
    {earlier later : List (ServiceEvent τ σ)} (hids : ids.Nodup)
    (hlength : ids.length = db.matchScores.length)
    (hearlier : exec (serviceStep env) (.start τ σ db ids) earlier = some s₁)
    (hlater : exec (serviceStep env) s₁ (.subscribe c :: later) = some s)
    (hstay : .unsubscribe c ∉ later) :
    s.hub.published = s₁.hub.published ++ s.hub.heard c ∧
      ((s.hub.heard c).map ScoreEvent.scoreId).Nodup ∧
      (∀ e ∈ s.hub.heard c, ∃ row ∈ s.matchScores, Announces db.offers row e) ∧
      (∀ row ∈ s.matchScores, row ∉ s₁.matchScores → ∃ e, Announces db.offers row e ∧
        (e ∈ s.hub.heard c ∨ ∃ t, e ∈ s.unpublished t)) ∧
      s.matchScores.map (·.2) = s.callers.committed.matchScores := by
  obtain ⟨haccounted₁, hannounced₁⟩ := service_exec (start_accounted hids hlength) hearlier
  have hfrom₁ : Announced db s₁.matchScores s₁ :=
    { hannounced₁ with
      kept := List.Subset.refl _
      complete := fun _ hrow => .inl hrow }
  obtain ⟨haccounted, hannounced⟩ := service_exec ⟨haccounted₁, hfrom₁⟩ hlater
  have hheard : s.hub.published = s₁.hub.published ++ s.hub.heard c := by
    obtain ⟨s₂, hsubscribe, hrun⟩ := exec_cons_some.mp hlater
    obtain ⟨hub, hstep, rfl⟩ := Option.map_eq_some_iff.mp hsubscribe
    simp only [hubStep] at hstep
    split at hstep
    · cases hstep
    · rw [← Option.some.inj hstep] at hrun
      exact (service_heardSince (heardSince_subscribe s₁.hub c) hstay hrun).heard
  have hsub : s.hub.heard c ⊆ s.hub.published :=
    hheard ▸ List.subset_append_right _ _
  refine ⟨hheard, ?_, fun e he => hannounced.truthful none e (hsub he), ?_, haccounted.table⟩
  · have honce : (s.hub.published.map ScoreEvent.scoreId).Nodup := hannounced.once.nodup none
    rw [hheard, List.map_append] at honce
    exact (List.nodup_append.mp honce).2.1
  · intro row hrow hnew
    rcases hannounced.complete row hrow with hold | ⟨_ | t, e, he, hann⟩
    · exact absurd hold hnew
    · refine ⟨e, hann, .inl ?_⟩
      rw [show events s none = _ from hheard] at he
      rcases List.mem_append.mp he with he | he
      · -- an event that was out before is of a row that was there before
        obtain ⟨row', hrow', hann'⟩ := hannounced₁.truthful none e he
        have hsame : row' = row := List.inj_on_of_nodup_map (haccounted.ids.nodup none)
          (hannounced.kept hrow') hrow (hann'.scoreId.symm.trans hann.scoreId)
        exact absurd (hsame ▸ hrow') hnew
      · exact he
    · exact ⟨e, hann, .inr ⟨t, he⟩⟩

end Delivery

/-- A stream connects during the batch and reads the event of its score. -/
theorem subscriber_hears_each_score_once_acme :
    ∃ s : ScoringService Bool Unit,
      exec (serviceStep fun _ => sameScore) (.start Bool Unit oneUnscored [])
        [.batch (.acquire false) [], .batch (.select false) [], .subscribe (),
          .batch (.score false) [7], .batch (.release false) [], .batch (.commit false) [],
          .publish false, .receive ()] = some s ∧
      s.hub.heard () = [⟨7, 1, "Engineer", "Acme", 80⟩] ∧
      ((s.hub.heard ()).map ScoreEvent.scoreId).Nodup := by
  refine ⟨_, rfl, rfl, ?_⟩
  exact (@subscriber_hears_each_score_once Bool Unit _ _ (fun _ => sameScore) oneUnscored _ ()
    [] _ [.batch (.acquire false) [], .batch (.select false) []]
    [.batch (.score false) [7], .batch (.release false) [], .batch (.commit false) [],
      .publish false, .receive ()]
    (by decide) (by decide) rfl rfl (by simp)).2.1

end RecruFlow.Scoring
