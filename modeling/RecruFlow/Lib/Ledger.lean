import Mathlib.Data.List.Nodup
import Mathlib.Logic.Function.Basic

/-!
# Entries on accounts

Each account holds a list of entries, known by their keys. The rules below add
fresh entries to an account, move all of one account to another, and drop them;
no key is ever held twice.
-/

namespace RecruFlow.Lib.Ledger

variable {ι α κ : Type*}

/-- No key stands twice, on one account or on two. -/
structure HeldOnce (key : α → κ) (account : ι → List α) : Prop where
  nodup : ∀ i, ((account i).map key).Nodup
  apart : ∀ i j, i ≠ j → ∀ a ∈ account i, ∀ b ∈ account j, key a ≠ key b

variable [DecidableEq ι] {key : α → κ} {account : ι → List α} {i j : ι} {entries : List α}

theorem HeldOnce.clear (h : HeldOnce key account) (i : ι) :
    HeldOnce key (Function.update account i []) := by
  have hle : ∀ k, (Function.update account i [] k).Sublist (account k) := by
    intro k
    by_cases hk : k = i
    · rw [hk, Function.update_self]
      exact List.nil_sublist _
    · rw [Function.update_of_ne hk]
  exact
    { nodup := fun k => ((hle k).map key).nodup (h.nodup k)
      apart := fun k l hkl a ha b hb =>
        h.apart k l hkl a ((hle k).subset ha) b ((hle l).subset hb) }

/-- Entries whose keys no account holds go on one of them. -/
theorem HeldOnce.post (h : HeldOnce key account) (hnodup : (entries.map key).Nodup)
    (hfresh : ∀ a ∈ entries, ∀ k, ∀ b ∈ account k, key a ≠ key b) :
    HeldOnce key (Function.update account i (account i ++ entries)) := by
  have hmem : ∀ k, ∀ a ∈ Function.update account i (account i ++ entries) k,
      a ∈ account k ∨ k = i ∧ a ∈ entries := by
    intro k a ha
    by_cases hk : k = i
    · rw [hk, Function.update_self] at ha
      rcases List.mem_append.mp ha with hold | hnew
      · exact .inl (hk ▸ hold)
      · exact .inr ⟨hk, hnew⟩
    · rw [Function.update_of_ne hk] at ha
      exact .inl ha
  constructor
  · intro k
    by_cases hk : k = i
    · rw [hk, Function.update_self, List.map_append]
      refine List.nodup_append.mpr ⟨h.nodup i, hnodup, fun x hx y hy heq => ?_⟩
      obtain ⟨b, hb, rfl⟩ := List.mem_map.mp hx
      obtain ⟨a, ha, rfl⟩ := List.mem_map.mp hy
      exact hfresh a ha i b hb heq.symm
    · rw [Function.update_of_ne hk]
      exact h.nodup k
  · intro k l hkl a ha b hb
    rcases hmem k a ha with ha | ⟨hk, ha⟩
    · rcases hmem l b hb with hb | ⟨-, hb⟩
      · exact h.apart k l hkl a ha b hb
      · exact (hfresh b hb k a ha).symm
    · rcases hmem l b hb with hb | ⟨hl, -⟩
      · exact hfresh a ha l b hb
      · exact absurd (hk.trans hl.symm) hkl

/-- All of one account goes to another. -/
theorem HeldOnce.transfer (h : HeldOnce key account) (hne : j ≠ i) :
    HeldOnce key
      (Function.update (Function.update account i []) j (account j ++ account i)) := by
  have hposted := (h.clear i).post (i := j) (h.nodup i) fun a ha k b hb => by
    by_cases hi : k = i
    · rw [hi, Function.update_self] at hb
      cases hb
    · rw [Function.update_of_ne hi] at hb
      exact h.apart i k (Ne.symm hi) a ha b hb
  rwa [Function.update_of_ne hne] at hposted

/-! ## A common account and one for each owner -/

variable {τ : Type*} {common : List α} {own : τ → List α} {t : τ}

def accounts (common : List α) (own : τ → List α) : Option τ → List α
  | none => common
  | some t => own t

variable [DecidableEq τ]

theorem accounts_update_own :
    accounts common (Function.update own t entries) =
      Function.update (accounts common own) (some t) entries := by
  funext i
  cases i with
  | none => rfl
  | some t' =>
      by_cases ht : t' = t
      · rw [ht, Function.update_self]
        exact Function.update_self _ _ _
      · rw [Function.update_of_ne (fun h => ht (Option.some.inj h))]
        exact Function.update_of_ne ht _ _

theorem accounts_update_common :
    accounts entries own = Function.update (accounts common own) none entries := by
  funext i
  cases i with
  | none => rfl
  | some t => rfl

/-- An owner gives up its entries. -/
theorem HeldOnce.give_up (h : HeldOnce key (accounts common own)) (t : τ) :
    HeldOnce key (accounts common (Function.update own t [])) := by
  rw [accounts_update_own]
  exact h.clear (some t)

/-- An owner without entries takes fresh ones. -/
theorem HeldOnce.take (h : HeldOnce key (accounts common own)) (hempty : own t = [])
    (hnodup : (entries.map key).Nodup)
    (hfresh : ∀ a ∈ entries, ∀ k, ∀ b ∈ accounts common own k, key a ≠ key b) :
    HeldOnce key (accounts common (Function.update own t entries)) := by
  have hposted := h.post (i := some t) hnodup hfresh
  rw [accounts_update_own]
  rwa [show accounts common own (some t) = [] from hempty, List.nil_append] at hposted

/-- An owner's entries go on the common account. -/
theorem HeldOnce.hand_over (h : HeldOnce key (accounts common own)) (t : τ) :
    HeldOnce key (accounts (common ++ own t) (Function.update own t [])) := by
  have hmoved := h.transfer (i := some t) (j := none) (Option.some_ne_none t).symm
  rwa [← accounts_update_own, ← accounts_update_common] at hmoved

end RecruFlow.Lib.Ledger
