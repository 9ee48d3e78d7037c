import Mathlib.Data.List.Induction

/-!
# Catching up with a feed

A store takes up the items of a feed, unless it knows them. Whoever counts the
known items in a row takes itself for caught up after enough of them.
-/

namespace RecruFlow.Lib.CatchUp

/-- What a store knows, and how it takes up an item that it does not know. -/
structure Memory (S α : Type*) where
  Known : S → α → Prop
  decideKnown : ∀ s a, Decidable (Known s a)
  add : S → α → S

namespace Memory

variable {S α : Type*} (m : Memory S α)

instance (s : S) (a : α) : Decidable (m.Known s a) :=
  m.decideKnown s a

def learn (s : S) (a : α) : S :=
  if m.Known s a then s else m.add s a

def learnAll (s : S) (items : List α) : S :=
  items.foldl m.learn s

/-- One item, with the number of known ones in a row. -/
def count (c : S × Nat) (a : α) : S × Nat :=
  if m.Known c.1 a then (c.1, c.2 + 1) else (m.add c.1 a, 0)

/-- The last `threshold` items are known when their turn comes. -/
def CaughtUp (threshold : Nat) (items : List α) (s : S) : Prop :=
  ∃ before last, items = before ++ last ∧ last.length = threshold ∧
    ∀ a ∈ last, m.Known (m.learnAll s before) a

/-- Nothing is forgotten. -/
def Keeps : Prop :=
  ∀ s a b, m.Known s a → m.Known (m.add s b) a

variable {m} {s : S} {a : α} {items xs ys : List α} {threshold : Nat}

theorem learn_of_known (h : m.Known s a) : m.learn s a = s :=
  if_pos h

theorem learnAll_append : m.learnAll s (xs ++ ys) = m.learnAll (m.learnAll s xs) ys :=
  List.foldl_append

theorem learnAll_of_known (h : ∀ a ∈ items, m.Known s a) : m.learnAll s items = s := by
  induction items with
  | nil => rfl
  | cons a items ih =>
      calc m.learnAll s (a :: items)
          = m.learnAll (m.learn s a) items := rfl
        _ = m.learnAll s items := by rw [learn_of_known (h a List.mem_cons_self)]
        _ = s := ih fun b hb => h b (List.mem_cons_of_mem a hb)

theorem count_fst (c : S × Nat) : (m.count c a).1 = m.learn c.1 a := by
  rw [count, learn]
  split <;> rfl

/-- Counting does not change what is learned. -/
theorem foldl_count_fst (c : S × Nat) : (items.foldl m.count c).1 = m.learnAll c.1 items := by
  induction items generalizing c with
  | nil => rfl
  | cons a items ih =>
      rw [List.foldl_cons, ih, count_fst]
      rfl

/-- One more item keeps a walk caught up exactly when it is known. -/
theorem caughtUp_concat_iff :
    m.CaughtUp (threshold + 1) (items ++ [a]) s ↔
      m.Known (m.learnAll s items) a ∧ m.CaughtUp threshold items s := by
  constructor
  · rintro ⟨before, last, hsplit, hlength, hknown⟩
    cases last using List.reverseRecOn with
    | nil => cases hlength
    | append_singleton front b _ =>
        rw [← List.append_assoc] at hsplit
        obtain ⟨rfl, hb⟩ := List.append_inj' hsplit rfl
        obtain rfl : a = b := (List.cons.inj hb).1
        have hfront : ∀ c ∈ front, m.Known (m.learnAll s before) c :=
          fun c hc => hknown c (List.mem_append_left _ hc)
        refine ⟨?_, before, front, rfl, by simpa using hlength, hfront⟩
        rw [learnAll_append, learnAll_of_known hfront]
        exact hknown a (List.mem_append_right _ (List.mem_singleton_self a))
  · rintro ⟨ha, before, last, rfl, hlength, hknown⟩
    rw [learnAll_append, learnAll_of_known hknown] at ha
    refine ⟨before, last ++ [a], List.append_assoc .., by simp [hlength], fun c hc => ?_⟩
    rcases List.mem_append.mp hc with hold | hnew
    · exact hknown c hold
    · obtain rfl := List.mem_singleton.mp hnew
      exact ha

theorem caughtUp_zero : m.CaughtUp 0 items s :=
  ⟨items, [], (List.append_nil items).symm, rfl, fun _ h => absurd h List.not_mem_nil⟩

/-- The counter says whether a walk is caught up. -/
theorem le_count_iff : threshold ≤ (items.foldl m.count (s, 0)).2 ↔ m.CaughtUp threshold items s := by
  induction items using List.reverseRecOn generalizing threshold with
  | nil =>
      constructor
      · intro h
        obtain rfl : threshold = 0 := Nat.le_zero.mp h
        exact caughtUp_zero
      · rintro ⟨before, last, hsplit, hlength, _⟩
        have hlast : last = [] := (List.append_eq_nil_iff.mp hsplit.symm).2
        rw [← hlength, hlast]
        exact Nat.le_refl 0
  | append_singleton items a ih =>
      cases threshold with
      | zero => exact ⟨fun _ => caughtUp_zero, fun _ => Nat.zero_le _⟩
      | succ threshold =>
          rw [caughtUp_concat_iff, ← ih, List.foldl_append, List.foldl_cons, List.foldl_nil, count,
            foldl_count_fst]
          split
          · next hknown => simp [hknown]
          · next hknown => simp [hknown]

section Keeps

variable (hm : m.Keeps)
include hm

theorem Keeps.learn {b : α} (h : m.Known s a) : m.Known (m.learn s b) a := by
  rw [Memory.learn]
  split
  · exact h
  · exact hm s a b h

theorem Keeps.learnAll (h : m.Known s a) : m.Known (m.learnAll s items) a := by
  induction items generalizing s with
  | nil => exact h
  | cons b items ih => exact ih (hm.learn h)

/-- What has been gone through is known, if an item is once it has been added. -/
theorem Keeps.known_learnAll (hadd : ∀ s, m.Known (m.add s a) a) (h : a ∈ items) :
    m.Known (m.learnAll s items) a := by
  induction items generalizing s with
  | nil => cases h
  | cons b items ih =>
      rcases List.mem_cons.mp h with rfl | htail
      · have hlearned : m.Known (m.learn s a) a := by
          rw [Memory.learn]
          split
          · next hknown => exact hknown
          · exact hadd s
        change m.Known (m.learnAll (m.learn s a) items) a
        exact hm.learnAll hlearned
      · exact ih htail

end Keeps

end Memory

end RecruFlow.Lib.CatchUp
