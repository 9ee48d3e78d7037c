import Mathlib.Data.List.DropRight

/-!
# Trimming

A list without the elements at its two ends that a predicate holds of.
-/

namespace RecruFlow.Lib.Trim

variable {α : Type*} {p : α → Bool} {xs ys : List α}

def trim (p : α → Bool) (xs : List α) : List α :=
  (xs.dropWhile p).rdropWhile p

/-- Neither end is an element that `p` holds of. -/
def Trimmed (p : α → Bool) (xs : List α) : Prop :=
  (∀ x ∈ xs.head?, p x = false) ∧ ∀ x ∈ xs.getLast?, p x = false

theorem head?_dropWhile : ∀ x ∈ (xs.dropWhile p).head?, p x = false := by
  induction xs with
  | nil =>
      intro x hx
      cases hx
  | cons y ys ih =>
      by_cases hy : p y
      · rwa [List.dropWhile_cons_of_pos hy]
      · rw [List.dropWhile_cons_of_neg hy]
        intro x hx
        rw [Option.some.inj hx] at hy
        exact Bool.eq_false_iff.mpr hy

theorem getLast?_rdropWhile : ∀ x ∈ (xs.rdropWhile p).getLast?, p x = false := by
  rw [List.rdropWhile, List.getLast?_reverse]
  exact head?_dropWhile

theorem dropWhile_eq_self (h : ∀ x ∈ xs.head?, p x = false) : xs.dropWhile p = xs := by
  cases xs with
  | nil => rfl
  | cons x xs =>
      rw [List.dropWhile_cons_of_neg]
      rw [h x rfl]
      exact Bool.false_ne_true

theorem rdropWhile_eq_self (h : ∀ x ∈ xs.getLast?, p x = false) : xs.rdropWhile p = xs := by
  rw [List.rdropWhile, dropWhile_eq_self, List.reverse_reverse]
  rwa [List.head?_reverse]

theorem trim_of_trimmed (h : Trimmed p xs) : trim p xs = xs := by
  rw [trim, dropWhile_eq_self h.1, rdropWhile_eq_self h.2]

theorem mem_head?_of_rdropWhile {q : α → Bool} {x : α} (hx : x ∈ (xs.rdropWhile q).head?) :
    x ∈ xs.head? := by
  obtain ⟨rest, hrest⟩ := List.rdropWhile_prefix q (l := xs)
  rw [← hrest, List.head?_append, Option.mem_def.mp hx]
  rfl

theorem head?_rdropWhile (h : ∀ x ∈ xs.head?, p x = false) :
    ∀ x ∈ (xs.rdropWhile p).head?, p x = false :=
  fun x hx => h x (mem_head?_of_rdropWhile hx)

theorem trimmed_trim : Trimmed p (trim p xs) :=
  ⟨head?_rdropWhile head?_dropWhile, getLast?_rdropWhile⟩

theorem trim_trim : trim p (trim p xs) = trim p xs :=
  trim_of_trimmed trimmed_trim

theorem trim_eq_nil_iff : trim p xs = [] ↔ ∀ x ∈ xs, p x := by
  rw [trim, List.rdropWhile_eq_nil_iff]
  constructor
  · intro h
    have hnil : xs.dropWhile p = [] := by
      cases hdrop : xs.dropWhile p with
      | nil => rfl
      | cons y ys =>
          have hy := head?_dropWhile y (by rw [hdrop]; rfl)
          rw [h y (by rw [hdrop]; exact List.mem_cons_self)] at hy
          cases hy
    exact List.dropWhile_eq_nil_iff.mp hnil
  · intro h x hx
    exact h x ((List.dropWhile_sublist p).subset hx)

theorem rdropWhile_append_of_forall (h : ∀ y ∈ ys, p y) :
    (xs ++ ys).rdropWhile p = xs.rdropWhile p := by
  rw [List.rdropWhile, List.reverse_append, List.dropWhile_append_of_pos, List.rdropWhile]
  intro y hy
  exact h y (List.mem_reverse.mp hy)

theorem rdropWhile_append_of_exists (h : ∃ y ∈ ys, p y = false) :
    (xs ++ ys).rdropWhile p = xs ++ ys.rdropWhile p := by
  have hdrop : ys.reverse.dropWhile p ≠ [] := by
    obtain ⟨y, hmem, hy⟩ := h
    intro hnil
    rw [List.dropWhile_eq_nil_iff.mp hnil y (List.mem_reverse.mpr hmem)] at hy
    cases hy
  rw [List.rdropWhile, List.reverse_append, List.dropWhile_append, if_neg (by simpa using hdrop),
    List.reverse_append, List.reverse_reverse, List.rdropWhile]

theorem rdropWhile_cons_of_neg {x : α} (h : p x = false) :
    (x :: xs).rdropWhile p = x :: xs.rdropWhile p := by
  by_cases hexists : ∃ y ∈ xs, p y = false
  · exact @rdropWhile_append_of_exists _ p [x] xs hexists
  · have hall : ∀ y ∈ xs, p y := by simpa using hexists
    have hsingle : [x].rdropWhile p = [x] := by
      rw [List.rdropWhile_singleton, if_neg (by rw [h]; decide)]
    rw [List.rdropWhile_eq_nil_iff.mpr hall, ← hsingle]
    exact @rdropWhile_append_of_forall _ p [x] xs hall

/-- What is trimmed anyway makes no difference at the ends. -/
theorem trim_append_of_forall {front back : List α} (hfront : ∀ x ∈ front, p x)
    (hback : ∀ x ∈ back, p x) : trim p (front ++ xs ++ back) = trim p xs := by
  rw [trim, trim, List.append_assoc, List.dropWhile_append_of_pos hfront, List.dropWhile_append]
  split
  · next hempty =>
    rw [List.isEmpty_iff.mp hempty, List.dropWhile_eq_nil_iff.mpr hback]
  · exact rdropWhile_append_of_forall hback

theorem Trimmed.append_between {zs : List α} (h : Trimmed p (xs ++ zs))
    (hys : ∀ y ∈ ys, p y = false) : Trimmed p (xs ++ ys ++ zs) := by
  obtain ⟨hfront, hback⟩ := h
  rw [List.head?_append] at hfront
  rw [List.getLast?_append] at hback
  constructor
  · intro x hx
    rw [List.head?_append, List.head?_append] at hx
    cases hxs : xs.head? with
    | some a =>
        rw [hxs] at hx hfront
        exact hfront x hx
    | none =>
        rw [hxs, Option.none_or] at hx hfront
        cases hy : ys.head? with
        | some y =>
            rw [hy] at hx
            rw [← Option.some.inj hx]
            exact hys y (List.mem_of_mem_head? hy)
        | none =>
            rw [hy, Option.none_or] at hx
            exact hfront x hx
  · intro x hx
    rw [List.getLast?_append, List.getLast?_append] at hx
    cases hzs : zs.getLast? with
    | some a =>
        rw [hzs] at hx hback
        exact hback x hx
    | none =>
        rw [hzs, Option.none_or] at hx hback
        cases hy : ys.getLast? with
        | some y =>
            rw [hy] at hx
            rw [← Option.some.inj hx]
            exact hys y (List.mem_of_mem_getLast? hy)
        | none =>
            rw [hy, Option.none_or] at hx
            exact hback x hx

end RecruFlow.Lib.Trim
