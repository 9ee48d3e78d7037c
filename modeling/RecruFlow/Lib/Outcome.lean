import Mathlib.Data.List.Basic

/-!
# However a computation ends

A computation that may raise leaves a state behind in both cases. A property of
that state is followed through its steps.
-/

namespace RecruFlow.Lib.Outcome

universe u

variable {ε ε' σ : Type*} {α β : Type u}

/-- However the computation ends, the state that it leaves has the property. -/
def Ends (P : σ → Prop) (raised : ε → σ) (done : α → σ) : Except ε α → Prop
  | .error e => P (raised e)
  | .ok a => P (done a)

/-- The state that a computation leaves. -/
def left (raised : ε → σ) (done : α → σ) : Except ε α → σ
  | .error e => raised e
  | .ok a => done a

variable {P Q : σ → Prop} {raised : ε → σ} {done : α → σ} {done' : β → σ}

theorem ends_iff_left {x : Except ε α} : Ends P raised done x ↔ P (left raised done x) := by
  cases x <;> rfl

theorem ends_bind {x : Except ε α} {f : α → Except ε β} (hx : Ends P raised done x)
    (hf : ∀ a, P (done a) → Ends P raised done' (f a)) : Ends P raised done' (x >>= f) := by
  cases x with
  | error e => exact hx
  | ok a => exact hf a hx

/-- As `ends_bind`, with what the first part returned. -/
theorem ends_bind_of {x : Except ε α} {f : α → Except ε β} (hx : Ends P raised done x)
    (hf : ∀ a, x = .ok a → P (done a) → Ends P raised done' (f a)) :
    Ends P raised done' (x >>= f) := by
  cases x with
  | error e => exact hx
  | ok a => exact hf a rfl hx

/-- After a part that leaves the state alone. -/
theorem ends_bind_same {x : Except ε α} {f : α → Except ε β} {s : σ} (hs : P s)
    (hx : ∀ e, x = .error e → raised e = s) (hf : ∀ a, x = .ok a → Ends P raised done' (f a)) :
    Ends P raised done' (x >>= f) := by
  cases x with
  | error e =>
      have hstate := hx e rfl
      change P (raised e)
      rw [hstate]
      exact hs
  | ok a => exact hf a rfl

theorem ends_map {x : Except ε α} {f : α → β} (hx : Ends P raised done x)
    (hf : ∀ a, P (done a) → P (done' (f a))) : Ends P raised done' (x.map f) := by
  cases x with
  | error e => exact hx
  | ok a => exact hf a hx

theorem ends_mapError {x : Except ε α} {f : ε → ε'} {raised' : ε' → σ}
    (hx : Ends P raised done x) (hf : ∀ e, P (raised e) → P (raised' (f e))) :
    Ends P raised' done (x.mapError f) := by
  cases x with
  | error e => exact hf e hx
  | ok a => exact hx

theorem ends_mono {x : Except ε α} (hx : Ends P raised done x) (himp : ∀ s, P s → Q s) :
    Ends Q raised done x := by
  cases x with
  | error e => exact himp _ hx
  | ok a => exact himp _ hx

theorem ends_foldlM {f : β → α → Except ε β} {xs : List α} {b : β} (hb : P (done' b))
    (hf : ∀ b a, P (done' b) → Ends P raised done' (f b a)) :
    Ends P raised done' (xs.foldlM f b) := by
  induction xs generalizing b with
  | nil => exact hb
  | cons x xs ih =>
      rw [List.foldlM_cons]
      exact ends_bind (hf b x hb) fun b' hb' => ih hb'

theorem ends_ok {x : Except ε α} {a : α} (h : Ends P raised done x) (hx : x = .ok a) :
    P (done a) := by
  rw [hx] at h
  exact h

theorem ends_error {x : Except ε α} {e : ε} (h : Ends P raised done x) (hx : x = .error e) :
    P (raised e) := by
  rw [hx] at h
  exact h

end RecruFlow.Lib.Outcome
