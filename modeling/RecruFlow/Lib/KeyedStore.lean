import Mathlib.Data.List.Nodup
import Mathlib.Logic.Function.Basic

/-!
# Stores of keyed records

A store maps each key to its record, if it has one. Visiting the records of
distinct keys one after another changes each of them once and nothing else.
-/

namespace RecruFlow.Lib.KeyedStore

variable {κ α β ε : Type*} [DecidableEq κ]

/-- Change the record under `k`, which has to be there. -/
def modify (missing : ε) (k : κ) (f : α → α) (store : κ → Option α) :
    Except ε (κ → Option α) :=
  match store k with
  | none => .error missing
  | some a => .ok (Function.update store k (some (f a)))

variable {missing : ε} {store store' : κ → Option α}

theorem modify_ok {k : κ} {f : α → α} (h : modify missing k f store = .ok store') :
    ∃ a, store k = some a ∧ store' = Function.update store k (some (f a)) := by
  unfold modify at h
  split at h
  · cases h
  · next a ha => exact ⟨a, ha, (Except.ok.inj h).symm⟩

theorem modify_of_some {k : κ} {f : α → α} {a : α} (h : store k = some a) :
    modify missing k f store = .ok (Function.update store k (some (f a))) := by
  unfold modify
  rw [h]

theorem modify_error {k : κ} {f : α → α} {e : ε} (h : modify missing k f store = .error e) :
    e = missing := by
  unfold modify at h
  split at h
  · exact (Except.error.inj h).symm
  · cases h

/-- Change the record of every `x`, one after another. -/
def modifyAll (missing : ε) (key : β → κ) (f : β → α → α) :
    List β → (κ → Option α) → Except ε (κ → Option α)
  | [], store => .ok store
  | x :: xs, store => (modify missing (key x) (f x) store).bind (modifyAll missing key f xs)

variable {key : β → κ} {f : β → α → α} {xs : List β}

theorem modifyAll_cons_ok {x : β} (h : modifyAll missing key f (x :: xs) store = .ok store') :
    ∃ a, store (key x) = some a ∧
      modifyAll missing key f xs (Function.update store (key x) (some (f x a))) = .ok store' := by
  rw [modifyAll] at h
  cases hm : modify missing (key x) (f x) store with
  | error e =>
      rw [hm] at h
      cases h
  | ok middle =>
      obtain ⟨a, ha, rfl⟩ := modify_ok hm
      rw [hm] at h
      exact ⟨a, ha, h⟩

/-- The keys that are not visited keep their records. -/
theorem modifyAll_other {k : κ} (h : modifyAll missing key f xs store = .ok store')
    (hk : k ∉ xs.map key) : store' k = store k := by
  induction xs generalizing store with
  | nil => rw [← Except.ok.inj h]
  | cons x xs ih =>
      obtain ⟨a, _, htail⟩ := modifyAll_cons_ok h
      simp only [List.map_cons, List.mem_cons, not_or] at hk
      rw [ih htail hk.2, Function.update_of_ne hk.1]

/-- Every visited key had a record, and it is changed once. -/
theorem modifyAll_mem (hnodup : (xs.map key).Nodup)
    (h : modifyAll missing key f xs store = .ok store') :
    ∀ x ∈ xs, ∃ a, store (key x) = some a ∧ store' (key x) = some (f x a) := by
  induction xs generalizing store with
  | nil => simp
  | cons x xs ih =>
      obtain ⟨a, ha, htail⟩ := modifyAll_cons_ok h
      obtain ⟨hx, hrest⟩ := List.nodup_cons.mp hnodup
      intro y hy
      rcases List.mem_cons.mp hy with rfl | hy
      · refine ⟨a, ha, ?_⟩
        rw [modifyAll_other htail hx, Function.update_self]
      · have hne : key y ≠ key x := fun e => hx (e ▸ List.mem_map_of_mem hy)
        obtain ⟨b, hb, hb'⟩ := ih hrest htail y hy
        rw [Function.update_of_ne hne] at hb
        exact ⟨b, hb, hb'⟩

/-- A loop that changes one record in each turn is such a visit. -/
theorem foldlM_eq_modifyAll {g : (κ → Option α) → β → Except ε (κ → Option α)}
    (h : ∀ x ∈ xs, ∀ s, g s x = modify missing (key x) (f x) s) :
    xs.foldlM g store = modifyAll missing key f xs store := by
  induction xs generalizing store with
  | nil => rfl
  | cons x xs ih =>
      rw [List.foldlM_cons, modifyAll, h x List.mem_cons_self]
      have htail : ∀ s, xs.foldlM g s = modifyAll missing key f xs s :=
        fun s => ih fun y hy => h y (List.mem_cons_of_mem x hy)
      simp only [htail]
      rfl

end RecruFlow.Lib.KeyedStore
