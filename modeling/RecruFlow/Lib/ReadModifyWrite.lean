import RecruFlow.Lib.Trace
import Mathlib.Logic.Function.Basic

/-!
# Read-modify-write transactions on one shared record

Each transaction loads the whole record, changes one key of its copy, and
writes the whole copy back if the change is one. Under READ COMMITTED a load
sees what is committed, and a write holds the row lock until its transaction
commits, but nothing ties the write to the load. The record then says what the
last committed transactions meant exactly when no commit overwrites, with a
stale copy, a key that it did not mean to set.
-/

namespace RecruFlow.Lib.ReadModifyWrite

open Trace

variable {R κ ν τ : Type*} [DecidableEq κ] {get : R → κ → Option ν}

/-- A function on whole records that sets one key, for the records that `guard` accepts. -/
structure KeyUpdate (get : R → κ → Option ν) where
  key : κ
  value : ν
  guard : R → Bool
  apply : R → R
  get_apply : ∀ r k, get (apply r) k = if k = key then some value else get r k

/-- The update changes the record it is applied to; an unchanged one is not written. -/
def KeyUpdate.dirty [DecidableEq ν] (u : KeyUpdate get) (r : R) : Bool :=
  get r u.key ≠ some u.value

inductive Phase (R : Type*) where
  | idle
  | loaded (copy : R)
  | written (copy : R)
  | finished

structure Cell (R τ : Type*) where
  committed : R
  lock : Option τ
  phase : τ → Phase R
  /-- The finished transactions, in the order of their commits. -/
  order : List τ

def Cell.init (r : R) : Cell R τ := ⟨r, none, fun _ => .idle, []⟩

inductive Event (τ : Type*) where
  | read (t : τ)
  | write (t : τ)
  | commit (t : τ)

variable (txn : τ → KeyUpdate get)

/-- The value that the last of the transactions that set `k` gave it. -/
def meant (r₀ : R) (order : List τ) (k : κ) : Option ν :=
  match (order.filter fun t => (txn t).key = k).getLast? with
  | some t => some (txn t).value
  | none => get r₀ k

/-- Every key holds what the last committed transaction that set it meant. -/
def NoLostUpdate (r₀ : R) (s : Cell R τ) : Prop :=
  ∀ k, get s.committed k = meant txn r₀ s.order k

theorem meant_append {r₀ : R} (order : List τ) (t : τ) (k : κ) :
    meant txn r₀ (order ++ [t]) k =
      if k = (txn t).key then some (txn t).value else meant txn r₀ order k := by
  unfold meant
  by_cases h : (txn t).key = k
  · simp [h]
  · simp [h, Ne.symm h]

theorem noLostUpdate_init {r₀ : R} : NoLostUpdate txn r₀ (Cell.init r₀ : Cell R τ) :=
  fun _ => rfl

variable [DecidableEq ν] [DecidableEq τ]

def step (s : Cell R τ) : Event τ → Option (Cell R τ)
  | .read t => match s.phase t with
      | .idle => some { s with
          phase := Function.update s.phase t <|
            -- a transaction that refuses what it read ends without a write
            if (txn t).guard s.committed then .loaded s.committed else .finished }
      | _ => none
  | .write t => match s.phase t with
      | .loaded copy =>
          if (txn t).dirty copy then
            -- an update waits while another transaction holds the row
            if s.lock = none then
              some { s with
                lock := some t, phase := Function.update s.phase t (.written copy) }
            else none
          else some { s with phase := Function.update s.phase t (.written copy) }
      | _ => none
  | .commit t => match s.phase t with
      | .written copy => some
          { committed := if (txn t).dirty copy then (txn t).apply copy else s.committed
            lock := if s.lock = some t then none else s.lock
            phase := Function.update s.phase t .finished
            order := s.order ++ [t] }
      | _ => none

/-- The commit of a copy that was changed finds every other key as the copy has
it; the commit of an unchanged copy finds its own key as it was loaded. -/
def Fresh (s : Cell R τ) : Event τ → Prop
  | .commit t => ∀ copy, s.phase t = .written copy →
      if (txn t).dirty copy then ∀ k, k ≠ (txn t).key → get s.committed k = get copy k
      else get s.committed (txn t).key = get copy (txn t).key
  | _ => True

variable {txn} {r₀ : R} {s s' : Cell R τ} {t : τ}

/-- Only a commit changes the committed record and the commit order. -/
theorem step_cases {e : Event τ} (h : step txn s e = some s') :
    (s'.committed = s.committed ∧ s'.order = s.order ∧ ∀ t, e ≠ .commit t) ∨
    ∃ t copy, e = .commit t ∧ s.phase t = .written copy ∧ s'.order = s.order ++ [t] ∧
      s'.committed = if (txn t).dirty copy then (txn t).apply copy else s.committed := by
  cases e with
  | read t =>
      left
      simp only [step] at h
      split at h
      · obtain rfl := Option.some.inj h
        exact ⟨rfl, rfl, by simp⟩
      · cases h
  | write t =>
      left
      simp only [step] at h
      split at h
      · split at h
        · split at h
          · obtain rfl := Option.some.inj h
            exact ⟨rfl, rfl, by simp⟩
          · cases h
        · obtain rfl := Option.some.inj h
          exact ⟨rfl, rfl, by simp⟩
      · cases h
  | commit t =>
      right
      simp only [step] at h
      split at h
      · next copy hphase =>
        obtain rfl := Option.some.inj h
        exact ⟨t, copy, rfl, hphase, rfl, rfl⟩
      · cases h

/-- A step keeps every update exactly when it is fresh. -/
theorem step_noLostUpdate_iff {e : Event τ} (hs : NoLostUpdate txn r₀ s)
    (h : step txn s e = some s') : NoLostUpdate txn r₀ s' ↔ Fresh txn s e := by
  obtain ⟨hc, ho, hne⟩ | ⟨t, copy, rfl, hphase, ho, hc⟩ := step_cases h
  · have hfresh : Fresh txn s e := by
      cases e with
      | read t => trivial
      | write t => trivial
      | commit t => exact absurd rfl (hne t)
    refine iff_of_true (fun k => ?_) hfresh
    rw [hc, ho]
    exact hs k
  · have hmeant : ∀ k, meant txn r₀ s'.order k =
        if k = (txn t).key then some (txn t).value else get s.committed k := by
      intro k
      rw [ho, meant_append, hs k]
    have hfresh : Fresh txn s (.commit t) ↔
        if (txn t).dirty copy then ∀ k, k ≠ (txn t).key → get s.committed k = get copy k
        else get s.committed (txn t).key = get copy (txn t).key := by
      refine ⟨fun hf => hf copy hphase, fun hf copy' hphase' => ?_⟩
      obtain rfl : copy = copy' := by
        rw [hphase] at hphase'
        exact Phase.written.inj hphase'
      exact hf
    rw [hfresh, NoLostUpdate]
    by_cases hd : (txn t).dirty copy = true
    · simp only [hd, if_true] at hc ⊢
      constructor
      · intro hall k hk
        have := hall k
        rw [hmeant, hc, (txn t).get_apply, if_neg hk, if_neg hk] at this
        exact this.symm
      · intro hall k
        rw [hmeant, hc, (txn t).get_apply]
        by_cases hk : k = (txn t).key
        · rw [if_pos hk, if_pos hk]
        · rw [if_neg hk, if_neg hk, hall k hk]
    · have hclean : get copy (txn t).key = some (txn t).value := by
        simpa [KeyUpdate.dirty] using hd
      simp only [hd, if_false, Bool.false_eq_true] at hc ⊢
      rw [hclean]
      constructor
      · intro hall
        have := hall (txn t).key
        rwa [hmeant, hc, if_pos rfl] at this
      · intro hkey k
        rw [hmeant, hc]
        by_cases hk : k = (txn t).key
        · rw [if_pos hk, hk, hkey]
        · rw [if_neg hk]

/-- In an execution every state keeps every update exactly when every commit is fresh. -/
theorem noLostUpdate_iff_fresh {es : List (Event τ)}
    (hrun : exec (step txn) (Cell.init r₀) es = some s) :
    (∀ t, Reaches (step txn) (Cell.init r₀) es t → NoLostUpdate txn r₀ t) ↔
      Along (step txn) (Fresh txn) (Cell.init r₀) es :=
  everywhere_iff_along (I := fun _ => True) (fun _ _ _ _ _ => trivial)
    (fun _ _ _ _ hs h => step_noLostUpdate_iff hs h) trivial (noLostUpdate_init txn) hrun

end RecruFlow.Lib.ReadModifyWrite
