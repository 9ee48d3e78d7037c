import Mathlib.Data.List.Induction
import Mathlib.Data.List.Nodup

/-!
# Grouping by a key

A dictionary of lists, filled with one item after the other. Read in the order
of its keys, it holds the items once each, and those of one key in the order in
which they came.
-/

namespace RecruFlow.Lib.Grouping

variable {κ α β : Type*} [DecidableEq κ]

/-- `groups.setdefault(k, []).append(v)` -/
def append (k : κ) (v : β) : List (κ × List β) → List (κ × List β)
  | [] => [(k, [v])]
  | (k', vs) :: groups =>
      if k' = k then (k', vs ++ [v]) :: groups else (k', vs) :: append k v groups

variable {k k' : κ} {v : β} {groups : List (κ × List β)}

theorem lookup_cons_eq_ite {vs : List β} : ((k, vs) :: groups).lookup k' =
    if k' = k then some vs else groups.lookup k' := by
  rw [List.lookup_cons]
  by_cases h : k' = k
  · rw [if_pos h, beq_iff_eq.mpr h]
  · rw [if_neg h, beq_eq_false_iff_ne.mpr h]

theorem lookup_append : (append k v groups).lookup k' =
    if k' = k then some (((groups.lookup k').getD []) ++ [v]) else groups.lookup k' := by
  induction groups with
  | nil => exact lookup_cons_eq_ite
  | cons group groups ih =>
    obtain ⟨k₀, vs⟩ := group
    rw [append, lookup_cons_eq_ite]
    by_cases h₀ : k₀ = k
    · rw [if_pos h₀, lookup_cons_eq_ite, h₀]
      by_cases h : k' = k <;> simp [h]
    · rw [if_neg h₀, lookup_cons_eq_ite, ih]
      by_cases h : k' = k₀
      · simp [h, h₀]
      · simp [h]

theorem keys_append : (append k v groups).map Prod.fst =
    if k ∈ groups.map Prod.fst then groups.map Prod.fst else groups.map Prod.fst ++ [k] := by
  induction groups with
  | nil => rfl
  | cons group groups ih =>
    obtain ⟨k₀, vs⟩ := group
    rw [append]
    by_cases h₀ : k₀ = k
    · simp [h₀]
    · simp only [if_neg h₀, List.map_cons, ih, List.mem_cons, Ne.symm h₀, false_or]
      split <;> rfl

/-- The dictionary after the items. -/
def group (key : α → κ) (value : α → β) (items : List α) : List (κ × List β) :=
  items.foldl (fun groups a => append (key a) (value a) groups) []

variable {key : α → κ} {value : α → β} {items : List α}

theorem group_concat {a : α} :
    group key value (items ++ [a]) = append (key a) (value a) (group key value items) := by
  rw [group, List.foldl_append]
  rfl

theorem nodup_keys : ((group key value items).map Prod.fst).Nodup := by
  induction items using List.reverseRecOn with
  | nil => exact List.nodup_nil
  | append_singleton items a ih =>
    rw [group_concat, keys_append]
    split
    · exact ih
    · next h => exact List.concat_eq_append ▸ ih.concat h

theorem mem_keys : k ∈ (group key value items).map Prod.fst ↔ ∃ a ∈ items, key a = k := by
  induction items using List.reverseRecOn with
  | nil => simp [group]
  | append_singleton items a ih =>
    have hadd : k ∈ (group key value (items ++ [a])).map Prod.fst ↔
        k ∈ (group key value items).map Prod.fst ∨ key a = k := by
      rw [group_concat, keys_append]
      split
      · next h =>
        constructor
        · exact .inl
        · intro hk
          exact hk.elim id fun hk => hk ▸ h
      · rw [List.mem_append, List.mem_singleton, eq_comm (a := k)]
    rw [hadd, ih]
    simp only [List.mem_append, List.mem_singleton, or_and_right, exists_or, exists_eq_left]

/-- A key holds the values of its items, in their order. -/
theorem lookup_group : ((group key value items).lookup k).getD [] =
    (items.filter (key · = k)).map value := by
  induction items using List.reverseRecOn with
  | nil => rfl
  | append_singleton items a ih =>
    rw [group_concat, lookup_append, List.filter_append, List.map_append, ← ih]
    by_cases h : k = key a
    · simp [h]
    · simp [h, Ne.symm h]

theorem flatMap_filter_cons_of_ne {a : α} {keys : List κ} (h : key a ∉ keys) :
    (keys.flatMap fun k => (a :: items).filter (key · = k)) =
      keys.flatMap fun k => items.filter (key · = k) := by
  induction keys with
  | nil => rfl
  | cons k keys ih =>
    rw [List.mem_cons, not_or] at h
    rw [List.flatMap_cons, List.flatMap_cons, ih h.2, List.filter_cons_of_neg (by simpa using h.1)]

/-- Lists of the items of one key each hold all the items, if no key is left out. -/
theorem perm_flatMap_filter {keys : List κ} (hnodup : keys.Nodup)
    (hkeys : ∀ a ∈ items, key a ∈ keys) :
    (keys.flatMap fun k => items.filter (key · = k)).Perm items := by
  induction items with
  | nil => simp
  | cons a items ih =>
    obtain ⟨before, after, rfl⟩ := List.append_of_mem (hkeys a List.mem_cons_self)
    have hrest := ih fun b hb => hkeys b (.tail a hb)
    have hsplit := List.nodup_middle.mp hnodup
    have hbefore : key a ∉ before := fun h =>
      (List.nodup_cons.mp hsplit).1 (List.mem_append_left after h)
    have hafter : key a ∉ after := fun h =>
      (List.nodup_cons.mp hsplit).1 (List.mem_append_right before h)
    rw [List.flatMap_append, List.flatMap_cons] at hrest ⊢
    rw [flatMap_filter_cons_of_ne hbefore, flatMap_filter_cons_of_ne hafter,
      List.filter_cons_of_pos (by simp), List.cons_append]
    exact List.perm_middle.trans (hrest.cons a)

end RecruFlow.Lib.Grouping
