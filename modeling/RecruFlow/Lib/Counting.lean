import Mathlib.Algebra.BigOperators.Group.List.Basic
import Mathlib.Algebra.Ring.Nat
import Mathlib.Data.List.Nodup
import Mathlib.Data.List.Count

/-!
# Counting the items of a list

Counts by key add up to the count over the keys, and those of disjoint kinds to the
count of either kind.
-/

namespace RecruFlow.Lib.Counting

variable {α κ : Type} [DecidableEq κ] {key : α → κ} {p q : α → Bool} {xs : List α}

theorem countP_or (h : ∀ x ∈ xs, p x = true → q x = false) :
    xs.countP (fun x => p x || q x) = xs.countP p + xs.countP q := by
  induction xs with
  | nil => rfl
  | cons x xs ih =>
      have hrest := ih fun y hy => h y (List.mem_cons_of_mem _ hy)
      have hx := h x List.mem_cons_self
      rw [List.countP_cons, List.countP_cons, List.countP_cons, hrest]
      cases hp : p x with
      | true => simp only [hx hp, Bool.or_false, if_true, Bool.false_eq_true, if_false]; omega
      | false => simp only [Bool.false_or, Bool.false_eq_true, if_false]; omega

/-- What is counted is of one kind or of the other. -/
theorem countP_split : xs.countP p = xs.countP (fun x => p x && q x) +
    xs.countP (fun x => p x && !q x) := by
  have hor : xs.countP p = xs.countP fun x => (p x && q x) || (p x && !q x) := by
    congr 1
    funext x
    cases p x <;> cases q x <;> rfl
  rw [hor]
  apply countP_or
  intro x _ hx
  rw [(Bool.and_eq_true_iff.mp hx).2]
  exact Bool.and_false _

/-- Counts by key add up. -/
theorem sum_countP_keys {keys : List κ} (hkeys : keys.Nodup) :
    (keys.map fun k => xs.countP fun x => key x = k && p x).sum =
      xs.countP fun x => key x ∈ keys && p x := by
  induction keys with
  | nil =>
      rw [List.map_nil, List.sum_nil, eq_comm, List.countP_eq_zero]
      intro x _ hx
      exact List.not_mem_nil (of_decide_eq_true (Bool.and_eq_true_iff.mp hx).1)
  | cons k keys ih =>
      obtain ⟨hk, hrest⟩ := List.nodup_cons.mp hkeys
      rw [List.map_cons, List.sum_cons, ih hrest, ← countP_or]
      · congr 1
        funext x
        have hmem : decide (key x ∈ k :: keys) = (decide (key x = k) || decide (key x ∈ keys)) := by
          rw [← Bool.decide_or, decide_eq_decide]
          exact List.mem_cons
        rw [hmem, Bool.and_or_distrib_right]
      · intro x _ hx
        have hkey : key x = k := of_decide_eq_true (Bool.and_eq_true_iff.mp hx).1
        rw [hkey, decide_eq_false hk, Bool.false_and]

/-- Items without repetition are counted once each. -/
theorem countP_mem_eq_length {key : α → κ} {ks : List κ} (hxs : (xs.map key).Nodup)
    (hks : ks.Nodup) (hsub : ∀ k ∈ ks, ∃ x ∈ xs, key x = k) :
    xs.countP (fun x => key x ∈ ks) = ks.length := by
  have hperm : ((xs.filter fun x => key x ∈ ks).map key).Perm ks := by
    apply (List.perm_ext_iff_of_nodup ((List.filter_sublist.map key).nodup hxs) hks).mpr
    intro k
    rw [List.mem_map]
    constructor
    · rintro ⟨x, hx, rfl⟩
      exact of_decide_eq_true (List.mem_filter.mp hx).2
    · intro hk
      obtain ⟨x, hx, rfl⟩ := hsub k hk
      exact ⟨x, List.mem_filter.mpr ⟨hx, decide_eq_true hk⟩, rfl⟩
  rw [List.countP_eq_length_filter, ← hperm.length_eq, List.length_map]

end RecruFlow.Lib.Counting
