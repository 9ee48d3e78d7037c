import Mathlib.Data.List.Basic

/-!
# The last write wins

A write gives some keys of a store a new value and leaves the others. After any
writes a key holds what the last write to it gave it.
-/

namespace RecruFlow.Lib.LastWrite

variable {κ α ω : Type*} (target : ω → κ → Option α)

/-- What the last write to the key gave it. -/
def lastWrite (ws : List ω) (k : κ) : Option α :=
  ws.reverse.findSome? fun w => target w k

variable {target} {ws : List ω} {w : ω} {k : κ}

@[simp] theorem lastWrite_nil : lastWrite target [] k = none := rfl

theorem lastWrite_cons :
    lastWrite target (w :: ws) k = (lastWrite target ws k).or (target w k) := by
  unfold lastWrite
  rw [List.reverse_cons, List.findSome?_append]
  congr 1
  rw [List.findSome?_cons]
  cases target w k <;> rfl

/-- What a last write gave is what some write gives. -/
theorem exists_of_lastWrite {a : α} (h : lastWrite target ws k = some a) :
    ∃ w ∈ ws, target w k = some a := by
  obtain ⟨w, hw, ha⟩ := List.exists_of_findSome?_eq_some h
  exact ⟨w, List.mem_reverse.mp hw, ha⟩

/-- A store that each write changes as it says holds the last writes. -/
theorem foldl_eq_lastWrite {σ : Type*} {step : σ → ω → σ} {read : σ → κ → Option α}
    {Good : σ → Prop} (hgood : ∀ s w, Good s → Good (step s w))
    (hstep : ∀ s w, Good s → read (step s w) k = (target w k).or (read s k)) {s : σ}
    (hs : Good s) : read (ws.foldl step s) k = (lastWrite target ws k).or (read s k) := by
  induction ws generalizing s with
  | nil => rfl
  | cons w ws ih =>
      rw [List.foldl_cons, ih (hgood s w hs), hstep s w hs, lastWrite_cons, Option.or_assoc]

end RecruFlow.Lib.LastWrite
