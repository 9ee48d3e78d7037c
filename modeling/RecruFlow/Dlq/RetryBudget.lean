import RecruFlow.Dlq.History

/-!
# The retry budget of an incident

An incident of a dead letter starts where its row is created, or reopened after it was
resolved. The counter of the row, which ticks raise and compare with the budget, goes on
from one incident to the next.
-/

namespace RecruFlow.Dlq

open Connectors Db Ingestion Lib.Trace Lib.Transaction

/-- The automatic attempts of an incident, and those that have not resolved the row. -/
structure Ledger where
  attempts : Nat := 0
  unsuccessful : Nat := 0
  deriving DecidableEq

/-- A tick retries the row. -/
def StepAction.Attempts (maxAttempts : Int) (key : String) : StepAction → Prop
  | turn _ row => row.dedupKey = key ∧ ¬ Exhausted maxAttempts row
  | _ => False

instance (maxAttempts : Int) (key : String) :
    (action : StepAction) → Decidable (action.Attempts maxAttempts key)
  | .turn _ _ => inferInstanceAs (Decidable (_ ∧ _))
  | .record _ _ => inferInstanceAs (Decidable False)
  | .retry _ _ => inferInstanceAs (Decidable False)

namespace HistoryStep

variable (key : String) (step : HistoryStep)

/-- The row is created, or goes from resolved to open. -/
def Opens : Prop :=
  (statusIn key step.before = none ∨ statusIn key step.before = some .resolved) ∧
    statusIn key step.after = some .open

instance : Decidable (step.Opens key) :=
  inferInstanceAs (Decidable (_ ∧ _))

def Abandons : Prop :=
  statusIn key step.before ≠ some .abandoned ∧ statusIn key step.after = some .abandoned

end HistoryStep

/-- The ledger of the row after a step. -/
def Ledger.next (maxAttempts : Int) (key : String) (ledger : Ledger) (step : HistoryStep) : Ledger :=
  if step.Opens key then {}
  else if step.action.Attempts maxAttempts key then
    { attempts := ledger.attempts + 1
      unsuccessful := ledger.unsuccessful +
        if statusIn key step.after = some .resolved then 0 else 1 }
  else ledger

/-- The step abandons the row only with the budget spent to the last attempt, and is not
an attempt beyond it. -/
def WithinBudget (maxAttempts : Nat) (key : String) (ledger : Ledger) (step : HistoryStep) : Prop :=
  (step.Abandons key → ledger.unsuccessful = maxAttempts) ∧
    (ledger.next maxAttempts key step).attempts ≤ maxAttempts

/-- The attempt comes to its commit in a good transaction. -/
def HistoryStep.AttemptCommits (maxAttempts : Int) (step : HistoryStep) : Prop :=
  match step.action with
  | .turn env row => ∃ t s, treatRow env maxAttempts row (.opened step.before) = .ok (t, s) ∧
      s.aborted = false
  | _ => True

/-- The row is reopened only with a counter of zero, and attempts on it commit. -/
structure StartsAfresh (maxAttempts : Int) (key : String) (step : HistoryStep) : Prop where
  reopened : statusIn key step.before = some .resolved → statusIn key step.after = some .open →
    countIn key step.before = some 0
  committed : step.action.Attempts maxAttempts key → step.AttemptCommits maxAttempts

/-- The counter of the row is that of its incident, and within the budget; as long as the
row is not resolved, every attempt was unsuccessful. -/
structure Balanced (maxAttempts : Nat) (key : String) (db : Database) (ledger : Ledger) : Prop where
  absent : statusIn key db = none → ledger = {}
  count : ∀ n, countIn key db = some n → n = ledger.attempts
  within : ledger.attempts ≤ maxAttempts
  unsuccessful : statusIn key db ≠ some .resolved → ledger.unsuccessful = ledger.attempts

section Steps

variable {maxAttempts : Nat} {key : String} {ledger : Ledger} {before after db : Database}
  {action : StepAction} {row : IngestionFailure} {env : RetryEnv}

theorem countIn_isSome : countIn key db = none ↔ statusIn key db = none := by
  rw [countIn, statusIn, Option.map_eq_none_iff, Option.map_eq_none_iff]

theorem next_opens {step : HistoryStep} (h : step.Opens key) :
    ledger.next maxAttempts key step = {} :=
  if_pos h

theorem next_quiet {step : HistoryStep} (hopens : ¬ step.Opens key)
    (hattempt : ¬ step.action.Attempts maxAttempts key) :
    ledger.next maxAttempts key step = ledger := by
  rw [Ledger.next, if_neg hopens, if_neg hattempt]

/-- A step that is no attempt, opens or resolves the row if anything, and leaves the counter. -/
theorem balanced_stays {moves : FailureStatus → FailureStatus → Prop}
    (hmoves : ∀ old new, moves old new → staysOpensOrResolves old new)
    (hattempt : ¬ action.Attempts maxAttempts key)
    (hstatus : StatusMoves moves key before after) (hcount : CountStays key before after)
    (hfresh : StartsAfresh maxAttempts key ⟨action, before, after⟩)
    (h : Balanced maxAttempts key before ledger) :
    WithinBudget maxAttempts key ledger ⟨action, before, after⟩ ∧
      Balanced maxAttempts key after (ledger.next maxAttempts key ⟨action, before, after⟩) := by
  by_cases hopens : (HistoryStep.mk action before after).Opens key
  · have hnext : ledger.next maxAttempts key ⟨action, before, after⟩ = {} := next_opens hopens
    obtain ⟨hbefore, hafter⟩ := hopens
    rw [WithinBudget, hnext]
    refine ⟨⟨fun habandons => ?_, Nat.zero_le _⟩, ?_⟩
    · cases habandons.2.symm.trans hafter
    · refine ⟨fun hnone => ?_, fun n hn => ?_, Nat.zero_le _, fun _ => rfl⟩
      · cases hnone.symm.trans hafter
      · rcases hbefore with hnone | hresolved
        · rcases hcount.fresh (countIn_isSome.mpr hnone) with hzero | hzero
          · cases hn.symm.trans hzero
          · exact Option.some.inj (hn.symm.trans hzero)
        · have hzero := hcount.stayed 0 (hfresh.reopened hresolved hafter)
          exact Option.some.inj (hn.symm.trans hzero)
  · have hnext : ledger.next maxAttempts key ⟨action, before, after⟩ = ledger :=
      next_quiet hopens hattempt
    rw [WithinBudget, hnext]
    cases hbefore : statusIn key before with
    | none =>
        have hnone : statusIn key after = none := by
          rcases hstatus.fresh hbefore with hnone | hopen
          · exact hnone
          · exact absurd ⟨.inl hbefore, hopen⟩ hopens
        refine ⟨⟨fun habandons => ?_, h.within⟩, ?_⟩
        · cases habandons.2.symm.trans hnone
        · refine ⟨fun _ => h.absent hbefore, fun n hn => ?_, h.within, fun _ => ?_⟩
          · cases hn.symm.trans (countIn_isSome.mpr hnone)
          · rw [h.absent hbefore]
    | some old =>
        obtain ⟨new, hafter, hmove⟩ := hstatus.moved old hbefore
        have hmove : staysOpensOrResolves old new := hmoves old new hmove
        refine ⟨⟨fun habandons => ?_, h.within⟩, ?_⟩
        · have habandoned : new = .abandoned :=
            Option.some.inj (hafter.symm.trans habandons.2)
          rcases hmove with hsame | hopen | hresolved
          · rw [← hsame, habandoned] at hbefore
            exact absurd hbefore habandons.1
          · cases habandoned.symm.trans hopen
          · cases habandoned.symm.trans hresolved
        · refine ⟨fun hnone => ?_, fun n hn => ?_, h.within, fun hnot => ?_⟩
          · cases hnone.symm.trans hafter
          · obtain ⟨m, hm⟩ : ∃ m, countIn key before = some m := by
              rw [← Option.ne_none_iff_exists', Ne, countIn_isSome, hbefore]
              exact nofun
            have hsame : m = n := Option.some.inj ((hcount.stayed m hm).symm.trans hn)
            rw [← hsame]
            exact h.count m hm
          · refine h.unsuccessful fun hresolved => ?_
            obtain rfl : old = .resolved := Option.some.inj (hbefore.symm.trans hresolved)
            rcases hmove with hsame | hopen | hstill
            · exact hnot (hsame ▸ hafter)
            · exact hopens ⟨.inr hbefore, hopen ▸ hafter⟩
            · exact hnot (hstill ▸ hafter)

/-- The turn of a row does not open it, and finds the counter of the incident. -/
theorem selected_balanced (hselected : StillSelected row db) (hkey : row.dedupKey = key)
    (h : Balanced maxAttempts key db ledger) :
    ¬ (HistoryStep.mk action db after).Opens key ∧ row.retryCount = ledger.attempts ∧
      ledger.unsuccessful = ledger.attempts := by
  obtain ⟨_, hstatus, hcount⟩ := hselected
  rw [hkey] at hstatus hcount
  refine ⟨?_, h.count _ hcount, h.unsuccessful ?_⟩
  · rintro ⟨hnone | hresolved, _⟩
    · cases hnone.symm.trans hstatus
    · cases hresolved.symm.trans hstatus
  · rw [hstatus]
    exact nofun

/-- An attempt on the row. -/
theorem balanced_attempt (hselected : StillSelected row db) (hkey : row.dedupKey = key)
    (hretried : ¬ Exhausted maxAttempts row)
    (hcommits : ∃ t s, treatRow env maxAttempts row (.opened db) = .ok (t, s) ∧ s.aborted = false)
    (h : Balanced maxAttempts key db ledger) :
    let step : HistoryStep :=
      ⟨.turn env row, db, afterRetry (treatRow env maxAttempts row (.opened db))⟩
    WithinBudget maxAttempts key ledger step ∧
      Balanced maxAttempts key step.after (ledger.next maxAttempts key step) := by
  intro step
  obtain ⟨hopens, hattempts, hunsuccessful⟩ :=
    @selected_balanced maxAttempts key ledger step.after db step.action row hselected hkey h
  have hleft : ledger.attempts + 1 ≤ maxAttempts := by
    unfold Exhausted at hretried
    omega
  have hthere : statusIn key db = some .open := hkey ▸ hselected.2.1
  -- the counter that is committed is the one that was raised
  have hcount : countIn key step.after = some (ledger.attempts + 1) := by
    obtain ⟨t, s, hturn, hgood⟩ := hcommits
    have hcounted := (treatRow_attempted hturn hretried hselected.2.2).2
    rw [hgood, if_neg Bool.false_ne_true, hkey, hattempts] at hcounted
    change countIn key (afterRetry (treatRow env maxAttempts row (.opened db))) = _
    rw [hturn]
    exact hcounted
  obtain ⟨new, hnew, hmove⟩ := (@attempt_status env maxAttempts key row db hkey hretried
    (by rw [hthere]; exact nofun)).moved .open hthere
  have hnext : ledger.next maxAttempts key step =
      { attempts := ledger.attempts + 1
        unsuccessful := ledger.unsuccessful +
          if statusIn key step.after = some .resolved then 0 else 1 } := by
    rw [Ledger.next, if_neg hopens, if_pos ⟨hkey, hretried⟩]
  rw [WithinBudget, hnext]
  refine ⟨⟨fun habandons => ?_, hleft⟩, ?_⟩
  · have habandoned : new = .abandoned := Option.some.inj (hnew.symm.trans habandons.2)
    rw [habandoned] at hmove
    rcases hmove with hsame | hopen | hresolved
    · cases hsame
    · cases hopen
    · cases hresolved
  · refine ⟨fun hnone => ?_, fun n hn => ?_, hleft, fun hnot => ?_⟩
    · cases hnone.symm.trans hnew
    · exact Option.some.inj (hn.symm.trans hcount)
    · rw [if_neg hnot, hunsuccessful]

/-- A turn that finds the budget spent. -/
theorem balanced_abandon (hselected : StillSelected row db) (hkey : row.dedupKey = key)
    (hexhausted : Exhausted maxAttempts row) (h : Balanced maxAttempts key db ledger) :
    let step : HistoryStep :=
      ⟨.turn env row, db, afterRetry (treatRow env maxAttempts row (.opened db))⟩
    WithinBudget maxAttempts key ledger step ∧
      Balanced maxAttempts key step.after (ledger.next maxAttempts key step) := by
  intro step
  obtain ⟨hopens, hattempts, hunsuccessful⟩ :=
    @selected_balanced maxAttempts key ledger step.after db step.action row hselected hkey h
  have hspent : ledger.attempts = maxAttempts := by
    have hwithin := h.within
    unfold Exhausted at hexhausted
    omega
  have hcount : countIn key db = some ledger.attempts := by
    rw [← hattempts, ← hkey]
    exact hselected.2.2
  have hstays : CountStays key db step.after := by
    rcases @exhausted_cases env maxAttempts row db hexhausted with hsame | hstored
    · change CountStays key db (afterRetry _)
      rw [hsame]
      exact countStays_refl
    · change CountStays key db (afterRetry _)
      rw [hstored]
      exact (own_countStays (by rw [hcount]; exact nofun)).row db (abandonedRow row)
        ⟨hkey, hkey, rfl⟩ countStays_refl
  have hafter : countIn key step.after = some ledger.attempts := hstays.stayed _ hcount
  have hnext : ledger.next maxAttempts key step = ledger :=
    next_quiet hopens fun hattempt => hattempt.2 hexhausted
  rw [WithinBudget, hnext]
  refine ⟨⟨fun _ => hunsuccessful.trans hspent, h.within⟩, ?_⟩
  refine ⟨fun hnone => ?_, fun n hn => ?_, h.within, fun _ => hunsuccessful⟩
  · cases (countIn_isSome.mpr hnone).symm.trans hafter
  · exact Option.some.inj (hn.symm.trans hafter)

end Steps

/-- Each incident has its own budget: a row is abandoned only after as many unsuccessful
attempts as the budget allows, and is never retried more often. -/
def BudgetPerIncident (maxAttempts : Nat) (key : String) (steps : List HistoryStep) : Prop :=
  Throughout (Ledger.next maxAttempts key) (WithinBudget maxAttempts key) {} steps

theorem staysOpensOrResolves_of_staysOrOpens (old new : FailureStatus) (h : staysOrOpens old new) :
    staysOpensOrResolves old new := by
  rcases h with h | h
  · exact .inl h
  · exact .inr (.inl h)

section History

variable {maxAttempts : Nat} {key : String} {start : Database} {events : List HistoryEvent}

/-- In a history that starts without the row, each incident has its own budget, as long as
the row is reopened only with a counter of zero and attempts on it commit. -/
theorem budget_per_incident (hunique : KeysUnique start) (habsent : storedFailure key start = none)
    (hfresh : ∀ step ∈ history maxAttempts start events, StartsAfresh maxAttempts key step) :
    BudgetPerIncident maxAttempts key (history maxAttempts start events) := by
  refine @history_keeps _ _ _ (Balanced maxAttempts key) (StartsAfresh maxAttempts key)
    maxAttempts start {} events ?_ ?_ ?_ hunique ?_ hfresh
  · intro now fields db ledger hbalanced hstep
    have hmoves : KeptByRetry (fun _ => True) (HoldsOther key)
        (StatusMoves staysOrOpens key db) := other_statusMoves
    have hstays : KeptByRetry (fun _ => True) (HoldsOther key) (CountStays key db) :=
      other_countStays
    exact balanced_stays staysOpensOrResolves_of_staysOrOpens id
      (hmoves.failure db now fields (statusMoves_refl fun _ => .inl rfl))
      (hstays.failure db now fields countStays_refl) hstep hbalanced
  · intro env key' db ledger hbalanced hstep
    by_cases hkey : key' = key
    · subst hkey
      exact balanced_stays (fun _ _ h => h) id manualRetry_own.1 manualRetry_own.2 hstep hbalanced
    · exact balanced_stays staysOpensOrResolves_of_staysOrOpens id (manualRetry_other hkey).1
        (manualRetry_other hkey).2 hstep hbalanced
  · intro env row db _ hselected ledger hbalanced hstep
    by_cases hkey : row.dedupKey = key
    · by_cases hexhausted : Exhausted maxAttempts row
      · exact balanced_abandon hselected hkey hexhausted hbalanced
      · exact balanced_attempt hselected hkey hexhausted (hstep.committed ⟨hkey, hexhausted⟩)
          hbalanced
    · exact balanced_stays staysOpensOrResolves_of_staysOrOpens (fun h => hkey h.1)
        (turn_other hkey).1 (turn_other hkey).2 hstep hbalanced
  · have hstatus : statusIn key start = none := by rw [statusIn, habsent]; rfl
    refine ⟨fun _ => rfl, fun n hn => ?_, Nat.zero_le _, fun _ => rfl⟩
    cases (countIn_isSome.mpr hstatus).symm.trans hn

end History

/-! ## A posting that is blocked, fetched, and blocked again -/

def postingRetryEnv : RetryEnv :=
  { acmeRunEnv with
    registry := quietRegistry
    detail := fun _ _ => .ok (some (acmeFields "a"))
    fetchedAt := 6
    retriedAt := 7 }

def bulldogjobDb : Database :=
  { sources :=
      [{ id := 1
         name := "bulldogjob"
         connector := some "bulldogjob"
         configJson := ⟨[]⟩
         lastFetchedAt := none }] }

def postingFields : IngestionFields :=
  blockedFields acmeRunEnv 1 "Bulldogjob" "https://bulldogjob.pl/a" 403

/-- A tick resolves the row, and the next one finds it blocked again. -/
def blockedTwice : List HistoryEvent :=
  [
    .record 0 postingFields, .tick (fun _ => postingRetryEnv) 5,
    .record 9 postingFields, .tick (fun _ => postingRetryEnv) 10
  ]

/-- With a budget of one attempt, the second block is abandoned without any. -/
theorem abandoned_unattempted :
    ¬ BudgetPerIncident 1 postingFields.dedupKey (history 1 bulldogjobDb blockedTwice) := by
  intro h
  obtain ⟨_, _, _, hlast, _⟩ := h
  have hspent := hlast.1 ⟨by decide, by decide⟩
  exact absurd hspent (by decide)

theorem budget_per_incident_posting :
    BudgetPerIncident 1 postingFields.dedupKey (history 1 bulldogjobDb (blockedTwice.take 2)) := by
  have hunique : KeysUnique bulldogjobDb := List.nodup_nil
  apply budget_per_incident hunique rfl
  intro step hstep
  have hsteps : step ∈ ([
      ⟨.record 0 postingFields, bulldogjobDb, _⟩,
      ⟨.turn postingRetryEnv (postingFields.new 0), _, _⟩] : List HistoryStep) := hstep
  rcases List.mem_cons.mp hsteps with rfl | hturn
  · exact ⟨fun h => absurd h (by decide), fun h => h.elim⟩
  · obtain rfl := List.mem_singleton.mp hturn
    exact ⟨fun h => absurd h (by decide), fun _ => ⟨_, _, rfl, rfl⟩⟩

end RecruFlow.Dlq
