import Mathlib.Logic.Function.Basic
import RecruFlow.Lib.Trace

/-!
# The progress of a batch

One record tells the status endpoint how far the running batch is. The tasks of
a batch report to it one by one; a task that outlives its batch, because another
task of the batch raised, reports to it as well.
-/

namespace RecruFlow.Scoring

open Lib.Trace

structure ScoringProgress where
  running : Bool := false
  processed : Nat := 0
  total : Nat := 0
  remainingBacklog : Nat := 0
  startedAt : Option Int := none
  finishedAt : Option Int := none
  lastScored : Nat := 0
  lastSkipped : Nat := 0
  lastFailed : Nat := 0
  deriving DecidableEq

inductive GroupPhase where
  | idle
  /-- The progress is reset, the tasks do not run yet. -/
  | started
  | gathering
  /-- The tasks are done and the rows are not flushed yet. -/
  | ended
  | over
  deriving DecidableEq

/-- One call of `run_batch_scoring` with the tasks that it gathers. -/
structure TaskGroup where
  phase : GroupPhase := .idle
  /-- `len(unscored)`. -/
  selected : Nat := 0
  totalUnscored : Nat := 0
  skipped : Nat := 0
  /-- The tasks that have neither returned nor raised. -/
  waiting : Nat := 0
  completed : Nat := 0
  /-- Those that returned a score. -/
  scored : Nat := 0
  raised : Bool := false
  deriving DecidableEq

structure ScoringLoop (τ : Type) where
  progress : ScoringProgress
  /-- The call that is inside `_scoring_lock`. -/
  holder : Option τ
  group : τ → TaskGroup

def ScoringLoop.start (τ : Type) : ScoringLoop τ :=
  ⟨{}, none, fun _ => {}⟩

inductive LoopEvent (τ : Type) where
  | begin (t : τ) (selected totalUnscored skipped : Nat) (now : Int)
  | spawn (t : τ)
  /-- A task returns; `scored` when it brings a score and not a `MatcherError`. -/
  | complete (t : τ) (scored : Bool)
  /-- Another exception leaves a task. -/
  | raise (t : τ)
  /-- An exception leaves `score_offers_with_langchain`. -/
  | leave (t : τ) (now : Int)
  | finish (t : τ) (now : Int)
  | summarise (t : τ)
  /-- The flush raises. -/
  | abort (t : τ)

variable {τ : Type} [DecidableEq τ]

def ScoringLoop.setGroup (s : ScoringLoop τ) (t : τ) (g : TaskGroup) : ScoringLoop τ :=
  { s with group := Function.update s.group t g }

/-- The `finally` clause. -/
def ScoringProgress.stop (p : ScoringProgress) (now : Int) : ScoringProgress :=
  { p with running := false, finishedAt := some now }

def loopStep (s : ScoringLoop τ) : LoopEvent τ → Option (ScoringLoop τ)
  | .begin t selected totalUnscored skipped now =>
      if s.holder = none ∧ (s.group t).phase = .idle then some
        { s.setGroup t
            { phase := .started
              selected := selected
              totalUnscored := totalUnscored
              skipped := skipped } with
          holder := some t
          progress := { s.progress with
            running := true
            processed := 0
            total := selected
            startedAt := some now
            finishedAt := none } }
      else none
  | .spawn t =>
      let g := s.group t
      if g.phase = .started then
        some (s.setGroup t { g with phase := .gathering, waiting := g.selected })
      else none
  | .complete t scored =>
      let g := s.group t
      if 0 < g.waiting then some
        { s.setGroup t { g with
            waiting := g.waiting - 1
            completed := g.completed + 1
            scored := g.scored + scored.toNat } with
          -- `_record_progress`, whoever runs at the moment
          progress := { s.progress with processed := g.completed + 1 } }
      else none
  | .raise t =>
      let g := s.group t
      if 0 < g.waiting then
        some (s.setGroup t { g with waiting := g.waiting - 1, raised := true })
      else none
  | .leave t now =>
      let g := s.group t
      if g.phase = .started ∨ g.phase = .gathering ∧ (g.raised ∨ g.waiting = 0) then some
        { s.setGroup t { g with phase := .over } with
          holder := none
          progress := s.progress.stop now }
      else none
  | .finish t now =>
      let g := s.group t
      if g.phase = .gathering ∧ g.waiting = 0 ∧ g.raised = false then some
        { s.setGroup t { g with phase := .ended } with
          progress := s.progress.stop now }
      else none
  | .summarise t =>
      let g := s.group t
      if g.phase = .ended then some
        { s.setGroup t { g with phase := .over } with
          holder := none
          progress := { s.progress with
            lastScored := g.scored
            lastSkipped := g.skipped
            lastFailed := g.selected - g.scored
            remainingBacklog := g.totalUnscored - g.selected } }
      else none
  | .abort t =>
      let g := s.group t
      if g.phase = .ended then
        some { s.setGroup t { g with phase := .over } with holder := none }
      else none

/-- A task that returns is one of the batch that runs. -/
def ReportsOwn (s : ScoringLoop τ) : LoopEvent τ → Prop
  | .complete t _ => 0 < (s.group t).waiting → s.holder = some t
  | _ => True

/-- What the progress says of the batch that runs. -/
structure Tells (p : ScoringProgress) (g : TaskGroup) : Prop where
  live : g.phase ≠ .idle ∧ g.phase ≠ .over
  running : p.running = true ↔ g.phase ≠ .ended
  total : p.total = g.selected
  processed : p.processed = g.completed
  scored : g.scored ≤ g.completed
  bound : g.waiting + g.completed ≤ g.selected
  none_yet : g.phase = .started → g.waiting = 0 ∧ g.completed = 0 ∧ g.raised = false
  all_counted : g.phase ≠ .started → g.raised = false → g.waiting + g.completed = g.selected
  done : g.phase = .ended → g.waiting = 0 ∧ g.raised = false

structure Progressing (s : ScoringLoop τ) : Prop where
  held : ∀ t, (s.group t).phase ≠ .idle → (s.group t).phase ≠ .over → s.holder = some t
  tells : ∀ t, s.holder = some t → Tells s.progress (s.group t)
  free : s.holder = none → s.progress.running = false
  bound : s.progress.processed ≤ s.progress.total

variable {s s' : ScoringLoop τ} {t : τ} {g : TaskGroup} {p : ScoringProgress}

/-- A step of the batch that runs. -/
theorem Progressing.advance (h : Progressing s) (hholder : s.holder = some t) (hg : Tells p g) :
    Progressing { s.setGroup t g with progress := p } := by
  constructor
  · intro t' hidle hover
    by_cases ht : t' = t
    · rw [ht]
      exact hholder
    · change (Function.update s.group t g t').phase ≠ .idle at hidle
      change (Function.update s.group t g t').phase ≠ .over at hover
      rw [Function.update_of_ne ht] at hidle hover
      exact h.held t' hidle hover
  · intro t' ht'
    obtain rfl : t = t' := Option.some.inj (hholder.symm.trans ht')
    change Tells p (Function.update s.group t g t)
    rwa [Function.update_self]
  · intro hnone
    exact absurd (hholder.symm.trans hnone) (by simp)
  · calc p.processed = g.completed := hg.processed
      _ ≤ g.waiting + g.completed := Nat.le_add_left _ _
      _ ≤ g.selected := hg.bound
      _ = p.total := hg.total.symm

/-- The batch that runs lets the lock go. -/
theorem Progressing.release (h : Progressing s) (hholder : s.holder = some t)
    (hover : g.phase = .over) (hstopped : p.running = false) (hbound : p.processed ≤ p.total) :
    Progressing { s.setGroup t g with holder := none, progress := p } := by
  constructor
  · intro t' hidle hlive
    change (Function.update s.group t g t').phase ≠ .idle at hidle
    change (Function.update s.group t g t').phase ≠ .over at hlive
    by_cases ht : t' = t
    · rw [ht, Function.update_self] at hlive
      exact absurd hover hlive
    · rw [Function.update_of_ne ht] at hidle hlive
      have := h.held t' hidle hlive
      rw [hholder] at this
      exact absurd (Option.some.inj this).symm ht
  · intro t' ht'
    cases ht'
  · exact fun _ => hstopped
  · exact hbound

/-- A batch that is over changes, and nothing that the progress tells of. -/
theorem Progressing.aside (h : Progressing s) (hholder : s.holder ≠ some t)
    (hphase : g.phase = (s.group t).phase) : Progressing (s.setGroup t g) := by
  have hgroup : ∀ t', ((s.setGroup t g).group t').phase = (s.group t').phase := by
    intro t'
    by_cases ht : t' = t
    · rw [ht]
      exact (congrArg TaskGroup.phase (Function.update_self _ _ _)).trans hphase
    · exact congrArg TaskGroup.phase (Function.update_of_ne ht _ _)
  constructor
  · intro t' hidle hover
    rw [hgroup] at hidle hover
    exact h.held t' hidle hover
  · intro t' ht'
    have hne : t' ≠ t := fun heq => hholder (heq ▸ ht')
    change Tells s.progress (Function.update s.group t g t')
    rw [Function.update_of_ne hne]
    exact h.tells t' ht'
  · exact h.free
  · exact h.bound

omit [DecidableEq τ] in
theorem Progressing.of_phase (h : Progressing s) {phase : GroupPhase}
    (hphase : (s.group t).phase = phase) (hidle : phase ≠ .idle) (hover : phase ≠ .over) :
    s.holder = some t ∧ Tells s.progress (s.group t) := by
  have hholder := h.held t (hphase ▸ hidle) (hphase ▸ hover)
  exact ⟨hholder, h.tells t hholder⟩

theorem progressing_step {e : LoopEvent τ} (h : Progressing s) (hown : ReportsOwn s e)
    (hstep : loopStep s e = some s') : Progressing s' := by
  cases e with
  | begin t selected totalUnscored skipped now =>
      simp only [loopStep] at hstep
      split at hstep
      · next hfree =>
        rw [← Option.some.inj hstep]
        constructor
        · intro t' hidle hover
          by_cases ht : t' = t
          · rw [ht]
          · change (Function.update s.group t _ t').phase ≠ .idle at hidle
            change (Function.update s.group t _ t').phase ≠ .over at hover
            rw [Function.update_of_ne ht] at hidle hover
            have := h.held t' hidle hover
            rw [hfree.1] at this
            cases this
        · intro t' ht'
          obtain rfl : t = t' := Option.some.inj ht'
          change Tells _ (Function.update s.group t _ t)
          rw [Function.update_self]
          constructor <;> simp
        · intro hnone
          cases hnone
        · exact Nat.zero_le _
      · cases hstep
  | spawn t =>
      simp only [loopStep] at hstep
      split at hstep
      · next hphase =>
        obtain ⟨hholder, htells⟩ := h.of_phase hphase (by simp) (by simp)
        obtain ⟨-, hnone, hraised⟩ := htells.none_yet hphase
        rw [← Option.some.inj hstep]
        refine h.advance hholder ?_
        exact
          { live := by simp
            running := by simp [htells.running, hphase]
            total := htells.total
            processed := htells.processed
            scored := htells.scored
            bound := by simp [hnone]
            none_yet := by simp
            all_counted := by simp [hnone]
            done := by simp }
      · cases hstep
  | complete t scored =>
      simp only [loopStep] at hstep
      split at hstep
      · next hwaiting =>
        have hholder := hown hwaiting
        have htells := h.tells t hholder
        have hstarted : (s.group t).phase ≠ .started := by
          intro hphase
          have := (htells.none_yet hphase).1
          omega
        have hended : (s.group t).phase ≠ .ended := by
          intro hphase
          have := (htells.done hphase).1
          omega
        have hscored : scored.toNat ≤ 1 := by cases scored <;> simp
        rw [← Option.some.inj hstep]
        refine h.advance hholder ?_
        exact
          { live := htells.live
            running := htells.running
            total := htells.total
            processed := rfl
            scored := by
              have := htells.scored
              change (s.group t).scored + scored.toNat ≤ (s.group t).completed + 1
              omega
            bound := by
              have := htells.bound
              change (s.group t).waiting - 1 + ((s.group t).completed + 1) ≤ (s.group t).selected
              omega
            none_yet := fun hphase => absurd hphase hstarted
            all_counted := fun _ hraised => by
              have := htells.all_counted hstarted hraised
              change (s.group t).waiting - 1 + ((s.group t).completed + 1) = (s.group t).selected
              omega
            done := fun hphase => absurd hphase hended }
      · cases hstep
  | raise t =>
      simp only [loopStep] at hstep
      split at hstep
      · next hwaiting =>
        rw [← Option.some.inj hstep]
        by_cases hholder : s.holder = some t
        · have htells := h.tells t hholder
          refine h.advance hholder ?_
          exact
            { live := htells.live
              running := htells.running
              total := htells.total
              processed := htells.processed
              scored := htells.scored
              bound := by
                have := htells.bound
                change (s.group t).waiting - 1 + (s.group t).completed ≤ (s.group t).selected
                omega
              none_yet := fun hphase => by
                have := (htells.none_yet hphase).1
                omega
              all_counted := fun _ hraised => by cases hraised
              done := fun hphase => by
                have := (htells.done hphase).1
                omega }
        · exact h.aside hholder rfl
      · cases hstep
  | leave t now =>
      simp only [loopStep] at hstep
      split at hstep
      · next hphase =>
        have hholder : s.holder = some t := by
          rcases hphase with hphase | hphase
          · exact (h.of_phase hphase (by simp) (by simp)).1
          · exact (h.of_phase hphase.1 (by simp) (by simp)).1
        rw [← Option.some.inj hstep]
        exact h.release hholder rfl rfl h.bound
      · cases hstep
  | finish t now =>
      simp only [loopStep] at hstep
      split at hstep
      · next hphase =>
        obtain ⟨hphase, hwaiting, hraised⟩ := hphase
        obtain ⟨hholder, htells⟩ := h.of_phase hphase (by simp) (by simp)
        rw [← Option.some.inj hstep]
        refine h.advance hholder ?_
        exact
          { live := by simp
            running := by simp [ScoringProgress.stop]
            total := htells.total
            processed := htells.processed
            scored := htells.scored
            bound := htells.bound
            none_yet := by simp
            all_counted := fun _ => htells.all_counted (by rw [hphase]; simp)
            done := fun _ => ⟨hwaiting, hraised⟩ }
      · cases hstep
  | summarise t =>
      simp only [loopStep] at hstep
      split at hstep
      · next hphase =>
        obtain ⟨hholder, htells⟩ := h.of_phase hphase (by simp) (by simp)
        have hstopped : s.progress.running = false := by
          rw [← Bool.not_eq_true, htells.running]
          exact fun hne => hne hphase
        rw [← Option.some.inj hstep]
        exact h.release hholder rfl hstopped h.bound
      · cases hstep
  | abort t =>
      simp only [loopStep] at hstep
      split at hstep
      · next hphase =>
        obtain ⟨hholder, htells⟩ := h.of_phase hphase (by simp) (by simp)
        have hstopped : s.progress.running = false := by
          rw [← Bool.not_eq_true, htells.running]
          exact fun hne => hne hphase
        rw [← Option.some.inj hstep]
        exact h.release hholder rfl hstopped h.bound
      · cases hstep

omit [DecidableEq τ] in
theorem progressing_start : Progressing (.start τ) :=
  { held := fun _ hidle => absurd rfl hidle
    tells := fun _ ht => by cases ht
    free := fun _ => rfl
    bound := Nat.le_refl _ }

/-- The tasks that still run are those of the batch inside the lock. -/
def NoStrays (s : ScoringLoop τ) : Prop :=
  ∀ t, 0 < (s.group t).waiting → (s.group t).phase = .gathering

/-- As long as no task raises, a batch ends with its last task. -/
theorem noStrays_step {e : LoopEvent τ} (h : NoStrays s ∧ ∀ t, (s.group t).raised = false)
    (hraise : ∀ t, e ≠ .raise t) (hstep : loopStep s e = some s') :
    NoStrays s' ∧ ∀ t, (s'.group t).raised = false := by
  have hset : ∀ {t : τ} {g : TaskGroup}, s'.group = Function.update s.group t g →
      (0 < g.waiting → g.phase = .gathering) → g.raised = false →
        NoStrays s' ∧ ∀ t, (s'.group t).raised = false := by
    intro t g hgroup hg hraised
    constructor
    · intro t'
      rw [hgroup]
      by_cases ht : t' = t
      · rw [ht, Function.update_self]
        exact hg
      · rw [Function.update_of_ne ht]
        exact h.1 t'
    · intro t'
      rw [hgroup]
      by_cases ht : t' = t
      · rw [ht, Function.update_self]
        exact hraised
      · rw [Function.update_of_ne ht]
        exact h.2 t'
  cases e with
  | begin t selected totalUnscored skipped now =>
      simp only [loopStep] at hstep
      split at hstep
      · rw [← Option.some.inj hstep] at hset ⊢
        exact hset rfl (fun hwaiting => absurd hwaiting (Nat.lt_irrefl 0)) rfl
      · cases hstep
  | spawn t =>
      simp only [loopStep] at hstep
      split at hstep
      · rw [← Option.some.inj hstep] at hset ⊢
        exact hset rfl (fun _ => rfl) (h.2 t)
      · cases hstep
  | complete t scored =>
      simp only [loopStep] at hstep
      split at hstep
      · next hwaiting =>
        rw [← Option.some.inj hstep] at hset ⊢
        exact hset rfl (fun _ => h.1 t hwaiting) (h.2 t)
      · cases hstep
  | raise t => exact absurd rfl (hraise t)
  | leave t now =>
      simp only [loopStep] at hstep
      split at hstep
      · next hphase =>
        rw [← Option.some.inj hstep] at hset ⊢
        refine hset rfl (fun hwaiting => ?_) (h.2 t)
        change 0 < (s.group t).waiting at hwaiting
        have hgathering := h.1 t hwaiting
        rcases hphase with hphase | ⟨-, hphase | hphase⟩
        · rw [hphase] at hgathering
          cases hgathering
        · rw [h.2 t] at hphase
          cases hphase
        · omega
      · cases hstep
  | finish t now =>
      simp only [loopStep] at hstep
      split at hstep
      · next hphase =>
        rw [← Option.some.inj hstep] at hset ⊢
        refine hset rfl (fun hwaiting => ?_) (h.2 t)
        change 0 < (s.group t).waiting at hwaiting
        omega
      · cases hstep
  | summarise t | abort t =>
      simp only [loopStep] at hstep
      split at hstep
      · next hphase =>
        rw [← Option.some.inj hstep] at hset ⊢
        refine hset rfl (fun hwaiting => ?_) (h.2 t)
        have hgathering := h.1 t hwaiting
        rw [hphase] at hgathering
        cases hgathering
      · cases hstep

/-- While `_process` raises nothing but a `MatcherError`, every report is the running batch's. -/
theorem reportsOwn_of_no_raise {es : List (LoopEvent τ)} (hraise : ∀ t, .raise t ∉ es) :
    Along loopStep ReportsOwn (.start τ) es := by
  have hall : ∀ (es : List (LoopEvent τ)) (s : ScoringLoop τ), (∀ t, .raise t ∉ es) →
      Progressing s → NoStrays s ∧ (∀ t, (s.group t).raised = false) →
        Along loopStep ReportsOwn s es := by
    intro es
    induction es with
    | nil => exact fun _ _ _ _ => trivial
    | cons e es ih =>
        intro s hraise hs hstrays
        have hown : ReportsOwn s e := by
          cases e with
          | complete t scored =>
              exact fun hwaiting => (hs.of_phase (hstrays.1 t hwaiting) (by simp) (by simp)).1
          | _ => trivial
        have hne : ∀ t, e ≠ .raise t := fun t heq => hraise t (heq ▸ List.mem_cons_self)
        refine ⟨hown, fun s' hstep => ih s' ?_ ?_ ?_⟩
        · exact fun t ht => hraise t (List.mem_cons_of_mem _ ht)
        · exact progressing_step hs hown hstep
        · exact noStrays_step hstrays hne hstep
  refine hall es _ hraise progressing_start ⟨fun t hwaiting => ?_, fun _ => rfl⟩
  exact absurd hwaiting (Nat.lt_irrefl 0)

/-- A task of a failed batch reports into the next one, which has one task. -/
example : (exec loopStep (.start Bool)
    [.begin false 3 3 0 0, .spawn false, .raise false, .leave false 1, .begin true 1 1 0 2,
      .spawn true, .complete false true, .complete false true]).map
    (fun s => (s.progress.processed, s.progress.total)) = some (2, 1) := rfl

end RecruFlow.Scoring
