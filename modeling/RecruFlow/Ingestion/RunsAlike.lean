import RecruFlow.Ingestion.OlderPageStop
import RecruFlow.Ingestion.RunInvariant
import RecruFlow.Ingestion.UndatedRecords
import RecruFlow.Lib.Lockstep

/-!
# Runs that differ in the recorded failures

Two runs that have stored the same, but for the failures, do the same with a
record. One that goes over a record, out of the fetch range or invalid, and one
that does not have it stay alike.
-/

namespace RecruFlow.Ingestion

open Connectors Db Dlq Lib.Lockstep Lib.Outcome Lib.Pages Lib.Transaction Schemas

/-! ## Sessions that differ in the recorded failures -/

/-- PostgreSQL judges a row without the failures: their unique key is the model's own. -/
structure BlindToFailures (postgres : Postgres) : Prop where
  offer : ∀ row db failures,
    postgres.offer row { db with ingestionFailures := failures } = postgres.offer row db
  ingestionFailure : ∀ row db failures,
    postgres.ingestionFailure row { db with ingestionFailures := failures } =
      postgres.ingestionFailure row db

/-- The offers and all other tables are the same, committed and not. -/
def SameButFailures (s s' : Session) : Prop :=
  ∃ failures, s' = { s with working := { s.working with ingestionFailures := failures } }

theorem SameButFailures.refl (s : Session) : SameButFailures s s :=
  ⟨s.working.ingestionFailures, rfl⟩

theorem SameButFailures.trans {s s' s'' : Session} (h : SameButFailures s s')
    (h' : SameButFailures s' s'') : SameButFailures s s'' := by
  obtain ⟨failures, rfl⟩ := h
  obtain ⟨failures', rfl⟩ := h'
  exact ⟨failures', rfl⟩

theorem SameButFailures.aborted_eq {s s' : Session} (h : SameButFailures s s') :
    s'.aborted = s.aborted := by
  obtain ⟨failures, rfl⟩ := h
  rfl

theorem SameButFailures.offers_eq {s s' : Session} (h : SameButFailures s s') :
    s'.working.offers = s.working.offers := by
  obtain ⟨failures, rfl⟩ := h
  rfl

/-- The exceptions are the same, with such sessions. -/
def RaisedAlike (e e' : Raised) : Prop :=
  e'.1 = e.1 ∧ SameButFailures e.2 e'.2

/-- The results are the same, with such sessions. -/
def ReturnedAlike {α : Type} (r r' : α × Session) : Prop :=
  r'.1 = r.1 ∧ SameButFailures r.2 r'.2

section Sessions

variable {env : IngestEnv} {s s' : Session} {offer : Offer} {mapped raw : Dict}
  {fields : IngestionFields}

theorem lift_alike {α : Type} {x : Except PyError α} (h : SameButFailures s s') :
    Alike Eq RaisedAlike (s.lift x) (s'.lift x) := by
  cases x with
  | error e => exact .error ⟨rfl, h⟩
  | ok a => exact .ok rfl

theorem select_alike {α : Type} {query : Database → α} (h : SameButFailures s s')
    (hquery : query s'.working = query s.working) :
    Alike Eq RaisedAlike (s.select query) (s'.select query) := by
  unfold Session.select
  rw [h.aborted_eq, hquery]
  cases s.aborted with
  | true => exact .error ⟨rfl, h⟩
  | false => exact .ok rfl

theorem insertOffer_alike (hblind : BlindToFailures env.postgres) (h : SameButFailures s s')
    (dedupHash : String) : Alike ReturnedAlike RaisedAlike
      (s.execute (insertOffer env offer raw dedupHash))
      (s'.execute (insertOffer env offer raw dedupHash)) := by
  obtain ⟨failures, rfl⟩ := h
  obtain ⟨base, db, aborted⟩ := s
  have hverdict := hblind.offer (newOfferRow env offer raw dedupHash db) db failures
  have hrow : newOfferRow env offer raw dedupHash { db with ingestionFailures := failures } =
      newOfferRow env offer raw dedupHash db := rfl
  cases aborted with
  | true => exact .error ⟨rfl, failures, rfl⟩
  | false =>
      simp only [Session.execute, insertOffer, hrow, hverdict]
      cases env.postgres.offer (newOfferRow env offer raw dedupHash db) db with
      | taken =>
          cases hany : db.offers.any (·.dedupHash = dedupHash) with
          | true => exact .ok ⟨rfl, failures, rfl⟩
          | false => exact .ok ⟨rfl, failures, rfl⟩
      | unsent => exact .error ⟨rfl, failures, rfl⟩
      | rejected => exact .error ⟨rfl, failures, rfl⟩

theorem persistOffer_alike (hblind : BlindToFailures env.postgres) (h : SameButFailures s s') :
    Alike ReturnedAlike RaisedAlike (persistOffer env offer raw s)
      (persistOffer env offer raw s') := by
  unfold persistOffer
  apply (select_alike h (by rw [findContentDuplicate, findContentDuplicate, h.offers_eq])).bind
  intro duplicate _ heq
  subst heq
  cases duplicate with
  | some row => exact .ok ⟨rfl, h⟩
  | none =>
      apply (lift_alike h).bind
      intro dedupHash _ heq
      subst heq
      apply (insertOffer_alike hblind h dedupHash).bind
      intro r r' hr
      obtain ⟨created, t⟩ := r
      obtain ⟨created', t'⟩ := r'
      obtain ⟨rfl, ht⟩ := hr
      apply (select_alike ht (by rw [ht.offers_eq])).bind
      intro found _ heq
      subst heq
      cases found with
      | some row => exact .ok ⟨rfl, ht⟩
      | none => exact .error ⟨rfl, ht⟩

theorem recordFailure_alike (hblind : BlindToFailures env.postgres) (h : SameButFailures s s') :
    SameButFailures (recordFailure env.postgres env.startedAt fields s)
      (recordFailure env.postgres env.startedAt fields s') := by
  obtain ⟨failures, rfl⟩ := h
  obtain ⟨base, db, aborted⟩ := s
  have hverdict := hblind.ingestionFailure (fields.new env.startedAt) db failures
  cases aborted with
  | true => exact ⟨failures, rfl⟩
  | false =>
      simp only [recordFailure, attempt, insertIngestionFailure, insertFailure, hverdict]
      cases env.postgres.ingestionFailure (fields.new env.startedAt) db with
      | unsent => exact ⟨failures, rfl⟩
      | rejected => exact ⟨failures, rfl⟩
      | taken =>
          cases storedKey fields.dedupKey with
          | none => exact ⟨failures, rfl⟩
          | some key => exact ⟨_, rfl⟩

theorem recordInvalid_alike (hblind : BlindToFailures env.postgres) (h : SameButFailures s s') :
    Alike SameButFailures RaisedAlike (recordInvalid env mapped s) (recordInvalid env mapped s') := by
  unfold recordInvalid
  apply (lift_alike h).bind
  intro dedupKey _ heq
  subst heq
  cases mapped.get "source_id" with
  | none => exact .error ⟨rfl, h⟩
  | some v =>
      cases v with
      | int sourceId => exact .ok (recordFailure_alike hblind h)
      | _ => exact .ok h

/-- A record is ingested alike in both sessions. -/
theorem ingestOffer_alike (hblind : BlindToFailures env.postgres) (h : SameButFailures s s') :
    Alike ReturnedAlike RaisedAlike (ingestOffer env mapped raw s)
      (ingestOffer env mapped raw s') := by
  cases hvalid : Offer.modelValidate env.pydantic mapped with
  | some offer =>
      rw [ingestOffer_valid hvalid, ingestOffer_valid hvalid]
      apply (persistOffer_alike hblind h).bind
      intro r r' hr
      exact .ok ⟨congrArg some hr.1, hr.2⟩
  | none =>
      rw [ingestOffer_invalid hvalid, ingestOffer_invalid hvalid]
      apply (recordInvalid_alike hblind h).bind
      intro t t' ht
      exact .ok ⟨rfl, ht⟩

end Sessions

/-! ## Turns -/

/-- The runs have stored the same, and count the same. -/
structure WalksAlike (w w' : Walk) : Prop where
  session : SameButFailures w.session w'.session
  totalCreated : w'.totalCreated = w.totalCreated
  consecutiveAlreadySeen : w'.consecutiveAlreadySeen = w.consecutiveAlreadySeen

/-- The exceptions are the same, with such walks. -/
def WalkRaisedAlike (e e' : PyError × Walk) : Prop :=
  e'.1 = e.1 ∧ WalksAlike e.2 e'.2

/-- The run whose records come at other instants. -/
def RunnerArgs.withClock (args : RunnerArgs) (now : Nat → DateTime) : RunnerArgs :=
  { args with now }

/-- The failure of an invalid record can be recorded: nothing raises ahead of the `try`
of `record_failure`, and the database does not reject its statement. -/
def Recordable (env : IngestEnv) (mapped : Dict) (s : Session) : Prop :=
  ∃ dedupKey v, validationFailureDedupKey env mapped = .ok dedupKey ∧
    mapped.get "source_id" = some v ∧
    ∀ sourceId, v = .int sourceId → s.aborted = true ∨
      insertIngestionFailure env.postgres env.startedAt
        (validationFields env mapped dedupKey sourceId) s.working ≠ .rejected

/-- A record out of the range, or an invalid one. -/
def Insertable (env : IngestEnv) (args : RunnerArgs) (turn : Nat) (raw : Dict) : Prop :=
  ∃ mapped, args.mapOffer args.sourceId raw = .ok mapped ∧
    (outsideRange args.since args.limit (effectiveDate args turn mapped) = .ok true ∨
      Offer.modelValidate env.pydantic mapped = none)

/-- A record out of the range, or an invalid one whose failure can be recorded. -/
def GoneOver (env : IngestEnv) (args : RunnerArgs) (turn : Nat) (raw : Dict) (s : Session) : Prop :=
  ∃ mapped, args.mapOffer args.sourceId raw = .ok mapped ∧
    (outsideRange args.since args.limit (effectiveDate args turn mapped) = .ok true ∨
      outsideRange args.since args.limit (effectiveDate args turn mapped) = .ok false ∧
        Offer.modelValidate env.pydantic mapped = none ∧ Recordable env mapped s)

section Turns

variable {env : IngestEnv} {args : RunnerArgs} {now : Nat → DateTime} {w w' w₁ : Walk}
  {raw mapped : Dict} {s s' : Session}

theorem walkLift_alike {α : Type} {x : Except PyError α} (h : WalksAlike w w') :
    Alike Eq WalkRaisedAlike (w.lift x) (w'.lift x) := by
  cases x with
  | error e => exact .error ⟨rfl, h⟩
  | ok a => exact .ok rfl

theorem count_alike (h : WalksAlike w w') (result : Option (OfferRow × Bool)) :
    WalksAlike (w.count result) (w'.count result) := by
  match result with
  | none => exact h
  | some (_, true) => exact ⟨h.session, congrArg (· + 1) h.totalCreated, rfl⟩
  | some (_, false) => exact ⟨h.session, h.totalCreated, congrArg (· + 1) h.consecutiveAlreadySeen⟩

/-- The turn of a record comes out alike at the same instant. -/
theorem step_alike (hblind : BlindToFailures env.postgres) (h : WalksAlike w w')
    (hnow : now w'.turn = args.now w.turn) :
    Alike WalksAlike WalkRaisedAlike (step env args w raw)
      (step env (args.withClock now) w' raw) := by
  have hdate (mapped : Dict) : effectiveDate (args.withClock now) w'.turn mapped =
      effectiveDate args w.turn mapped := by
    unfold effectiveDate RunnerArgs.withClock
    dsimp only
    rw [hnow]
  have hrecord : Alike (fun r r' => WalksAlike r.2 r'.2) WalkRaisedAlike
      (ingestRecord env args w raw) (ingestRecord env (args.withClock now) w' raw) := by
    unfold ingestRecord
    simp only [hdate]
    apply (walkLift_alike h).bind
    intro mapped _ heq
    subst heq
    apply (walkLift_alike h).bind
    intro recent _ heq
    subst heq
    apply (walkLift_alike h).bind
    intro outside _ heq
    subst heq
    cases outside with
    | true => exact .ok ⟨h.session, h.totalCreated, h.consecutiveAlreadySeen⟩
    | false =>
        have hingest := @ingestOffer_alike env _ _ mapped raw hblind h.session
        rw [if_neg Bool.false_ne_true, if_neg Bool.false_ne_true]
        generalize ingestOffer env mapped raw w.session = x at hingest
        generalize ingestOffer env mapped raw w'.session = x' at hingest
        cases hingest with
        | @ok r r' hr =>
            obtain ⟨result, t⟩ := r
            obtain ⟨result', t'⟩ := r'
            obtain ⟨rfl, ht⟩ := hr
            have hwalks : WalksAlike
                { w with turn := w.turn + 1, handed := w.handed ++ [raw], session := t }
                { w' with turn := w'.turn + 1, handed := w'.handed ++ [raw], session := t' } :=
              ⟨ht, h.totalCreated, h.consecutiveAlreadySeen⟩
            exact .ok (count_alike hwalks result')
        | @error e e' he =>
            obtain ⟨error, t⟩ := e
            obtain ⟨error', t'⟩ := e'
            obtain ⟨rfl, ht⟩ := he
            exact .error ⟨rfl, ht, h.totalCreated, h.consecutiveAlreadySeen⟩
  exact hrecord.map fun _ _ hr => hr

theorem recordFailure_same {fields : IngestionFields}
    (h : s.aborted = true ∨
      insertIngestionFailure env.postgres env.startedAt fields s.working ≠ .rejected) :
    SameButFailures s (recordFailure env.postgres env.startedAt fields s) := by
  unfold recordFailure attempt
  split
  · exact .refl s
  · next hgood =>
    cases hinsert : insertIngestionFailure env.postgres env.startedAt fields s.working with
    | done db =>
        obtain ⟨key, _, rfl⟩ := insertIngestionFailure_done hinsert
        exact ⟨_, rfl⟩
    | unsent => exact .refl s
    | rejected => exact (h.resolve_left hgood hinsert).elim

theorem recordInvalid_of_recordable (h : Recordable env mapped s) :
    ∃ t, recordInvalid env mapped s = .ok t ∧ SameButFailures s t := by
  obtain ⟨dedupKey, v, hkey, hsource, hrecord⟩ := h
  simp only [recordInvalid, hkey, hsource, Session.lift, Except.mapError, bind, Except.bind]
  cases v with
  | int sourceId => exact ⟨_, rfl, recordFailure_same (hrecord sourceId rfl)⟩
  | _ => exact ⟨s, rfl, .refl s⟩

theorem recordable_of_good {t : Session} (h : recordInvalid env mapped s = .ok t)
    (hgood : t.aborted = false) : Recordable env mapped s := by
  obtain ⟨dedupKey, hkey, h⟩ := bind_ok h
  have hkey := Session.lift_ok hkey
  cases hsource : mapped.get "source_id" with
  | none =>
      rw [hsource] at h
      cases h
  | some v =>
      refine ⟨dedupKey, v, hkey, hsource, ?_⟩
      intro sourceId hv
      subst hv
      rw [hsource] at h
      obtain rfl := Except.ok.inj h
      by_cases hs : s.aborted = true
      · exact .inl hs
      · refine .inr fun hrejected => ?_
        simp [recordFailure, attempt, hs, hrejected] at hgood

theorem step_turn (h : step env args w raw = .ok w₁) : w₁.turn = w.turn + 1 := by
  obtain ⟨recent, hrecord⟩ := step_ok h
  exact (ingestRecord_ok hrecord).2.1

/-- A record that is gone over leaves the run as it was. -/
theorem step_goneOver (hblind : BlindToFailures env.postgres) (h : WalksAlike w w')
    (hover : GoneOver env args w'.turn raw w.session) :
    ∃ w₁, step env args w' raw = .ok w₁ ∧ WalksAlike w w₁ := by
  obtain ⟨mapped, hmapped, houtside | ⟨hinside, hinvalid, hrecordable⟩⟩ := hover
  · exact ⟨_, step_outside hmapped houtside, h.session, h.totalCreated, h.consecutiveAlreadySeen⟩
  · obtain ⟨t, hrecord, ht⟩ := recordInvalid_of_recordable hrecordable
    have halike := @recordInvalid_alike env _ _ mapped hblind h.session
    rw [hrecord] at halike
    obtain ⟨t', hrecord', ht'⟩ := halike.of_ok
    rw [step_inside hmapped hinside, ingestOffer_invalid hinvalid, hrecord']
    exact ⟨_, rfl, ht.trans ht', h.totalCreated, h.consecutiveAlreadySeen⟩

/-- A run that has a good transaction after a record of the kind has gone over it. -/
theorem goneOver_of_good (hblind : BlindToFailures env.postgres) (h : WalksAlike w w')
    (hinsertable : Insertable env args w'.turn raw) (hstep : step env args w' raw = .ok w₁)
    (hgood : w₁.session.aborted = false) : GoneOver env args w'.turn raw w.session := by
  obtain ⟨mapped, hmapped, hkind⟩ := hinsertable
  obtain ⟨mapped', hmapped', hturned⟩ := step_turned hstep
  obtain rfl : mapped' = mapped := Except.ok.inj (hmapped'.symm.trans hmapped)
  refine ⟨mapped', hmapped, ?_⟩
  cases hturned with
  | skipped houtside => exact .inl houtside
  | @ingested result t' hinside hingest =>
      have hinvalid : Offer.modelValidate env.pydantic mapped' = none := by
        apply hkind.resolve_left
        rw [hinside]
        simp
      refine .inr ⟨hinside, hinvalid, ?_⟩
      rw [count_session] at hgood
      rw [ingestOffer_invalid hinvalid] at hingest
      obtain ⟨t₁', hrecord', hend⟩ := bind_ok hingest
      obtain ⟨rfl, rfl⟩ := Prod.mk.inj (Except.ok.inj hend)
      have halike := @recordInvalid_alike env _ _ mapped' hblind h.session
      rw [hrecord'] at halike
      generalize hrecord : recordInvalid env mapped' w.session = x at halike
      cases halike with
      | @ok t _ ht =>
          apply recordable_of_good hrecord
          rw [← ht.aborted_eq]
          exact hgood

/-- A transaction that is good after a turn was good before it. -/
theorem step_good (hstep : step env args w raw = .ok w₁) (hgood : w₁.session.aborted = false) :
    w.session.aborted = false := by
  have hkept : KeptFor env (fun _ => True) (fun _ => True) fun s => s.aborted = true :=
    { rejected := fun _ _ => rfl
      offer := fun _ _ _ h => h
      failure := fun _ _ _ h => h }
  by_contra haborted
  have hends := @step_kept env args _ _ _ raw w hkept (fun _ _ _ => trivial) admitsRecords_all
    (Bool.eq_true_of_not_eq_false haborted)
  rw [hstep] at hends
  exact absurd (hgood.symm.trans hends) Bool.false_ne_true

end Turns

end RecruFlow.Ingestion
