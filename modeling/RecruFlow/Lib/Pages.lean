import Mathlib.Data.List.Basic

/-!
# Walking pages until told to stop

A walk goes through pages in order, each of which may fail, and looks after
each page whether to stop. It goes through a prefix of the pages, and does on
it what going through all of that prefix does.
-/

namespace RecruFlow.Lib.Pages

variable {P S E : Type*}

section Fold

variable {f : S → P → Except E S} {xs ys : List P} {s s' t : S} {e : E}

theorem foldlM_append_of_ok (hxs : xs.foldlM f s = .ok t) :
    (xs ++ ys).foldlM f s = ys.foldlM f t := by
  rw [List.foldlM_append, hxs]
  rfl

/-- What goes through a list goes through the prefixes of it. -/
theorem foldlM_prefix (h : (xs ++ ys).foldlM f s = .ok t) :
    ∃ m, xs.foldlM f s = .ok m ∧ ys.foldlM f m = .ok t := by
  rw [List.foldlM_append] at h
  cases hxs : xs.foldlM f s with
  | error e =>
      rw [hxs] at h
      cases h
  | ok m =>
      rw [hxs] at h
      exact ⟨m, rfl, h⟩

/-- What every step does to the state, going through a list does. -/
theorem foldlM_related {R : S → S → Prop} (hrefl : ∀ s, R s s)
    (htrans : ∀ s m t, R s m → R m t → R s t) (hstep : ∀ s x t, f s x = .ok t → R s t)
    (h : xs.foldlM f s = .ok t) : R s t := by
  induction xs generalizing s with
  | nil =>
      obtain rfl : s = t := Except.ok.inj h
      exact hrefl s
  | cons x xs ih =>
      rw [List.foldlM_cons] at h
      cases hx : f s x with
      | error e =>
          rw [hx] at h
          cases h
      | ok m =>
          rw [hx] at h
          exact htrans s m t (hstep s x m hx) (ih h)

/-- An error is the error of one element, which the elements before it lead to. -/
theorem foldlM_error (h : xs.foldlM f s = .error e) :
    ∃ i x m, xs[i]? = some x ∧ (xs.take i).foldlM f s = .ok m ∧ f m x = .error e := by
  induction xs generalizing s with
  | nil => cases h
  | cons x xs ih =>
      rw [List.foldlM_cons] at h
      cases hx : f s x with
      | error e' =>
          rw [hx] at h
          have he : e' = e := Except.error.inj h
          exact ⟨0, x, s, rfl, rfl, by rw [hx, he]⟩
      | ok m =>
          rw [hx] at h
          obtain ⟨i, y, m', hy, htake, herror⟩ := ih h
          refine ⟨i + 1, y, m', hy, ?_, herror⟩
          rw [List.take_succ_cons, List.foldlM_cons, hx]
          exact htake

/-- What goes through some elements comes before the first one that raises. -/
theorem le_of_raises {i j : Nat} {x : P} (h : (xs.take j).foldlM f s = .ok t)
    (hx : xs[i]? = some x) (htake : (xs.take i).foldlM f s = .ok s') (hraises : f s' x = .error e) :
    j ≤ i := by
  by_contra hlt
  have hij : i < j := Nat.lt_of_not_le hlt
  have hsplit : xs.take j = xs.take i ++ x :: (xs.take j).drop (i + 1) := by
    have hget : (xs.take j)[i]? = some x := by rw [List.getElem?_take_of_lt hij, hx]
    have hlt : i < (xs.take j).length := (List.getElem?_eq_some_iff.mp hget).1
    have hcons : (xs.take j).drop i = x :: (xs.take j).drop (i + 1) := by
      rw [List.drop_eq_getElem_cons hlt, (List.getElem?_eq_some_iff.mp hget).2]
    have htakes : (xs.take j).take i = xs.take i := by
      rw [List.take_take, Nat.min_eq_left (Nat.le_of_lt hij)]
    rw [← hcons, ← htakes, List.take_append_drop]
  rw [hsplit, foldlM_append_of_ok htake, List.foldlM_cons, hraises] at h
  cases h

end Fold

variable (go : S → P → Except E S) (stop : S → Bool)

/-- Go through the pages; the flag says whether the walk was told to stop. -/
def walk : List P → S → Except E (Bool × S)
  | [], s => .ok (false, s)
  | page :: pages, s =>
      match go s page with
      | .error e => .error e
      | .ok s => if stop s then .ok (true, s) else walk pages s

/-- The number of pages that the walk goes through, or tries to. -/
def reach : List P → S → Nat
  | [], _ => 0
  | page :: pages, s =>
      match go s page with
      | .error _ => 1
      | .ok s => if stop s then 1 else reach pages s + 1

variable {go stop} {pages : List P} {s s' : S} {stopped : Bool}

theorem reach_le : reach go stop pages s ≤ pages.length := by
  induction pages generalizing s with
  | nil => exact Nat.le_refl 0
  | cons page pages ih =>
      rw [reach, List.length_cons]
      split
      · omega
      · split
        · omega
        · exact Nat.succ_le_succ ih

theorem reach_pos (h : pages ≠ []) : 0 < reach go stop pages s := by
  cases pages with
  | nil => exact absurd rfl h
  | cons page pages =>
      rw [reach]
      split
      · omega
      · split <;> omega

/-- A walk does what going through the pages that it reaches does. -/
theorem walk_eq_foldlM : (walk go stop pages s).map (·.2) =
    (pages.take (reach go stop pages s)).foldlM go s := by
  induction pages generalizing s with
  | nil => rfl
  | cons page pages ih =>
      rw [walk, reach]
      cases hgo : go s page with
      | error e =>
          rw [List.take_succ_cons, List.foldlM_cons, hgo]
          rfl
      | ok s₁ =>
          dsimp only
          split
          · rw [List.take_succ_cons, List.foldlM_cons, hgo]
            rfl
          · rw [List.take_succ_cons, List.foldlM_cons, hgo]
            exact ih

theorem foldlM_of_walk (h : walk go stop pages s = .ok (stopped, s')) :
    (pages.take (reach go stop pages s)).foldlM go s = .ok s' := by
  rw [← walk_eq_foldlM, h]
  rfl

/-- A walk that was told to stop was told so after the last page that it reached. -/
theorem stop_of_walk (h : walk go stop pages s = .ok (true, s')) : stop s' = true := by
  induction pages generalizing s with
  | nil => cases h
  | cons page pages ih =>
      rw [walk] at h
      split at h
      · cases h
      · next s₁ hgo =>
        split at h
        · next hstop =>
          obtain rfl : s₁ = s' := (Prod.mk.inj (Except.ok.inj h)).2
          exact hstop
        · exact ih h

/-- A walk that was not told to stop goes through all pages. -/
theorem reach_of_walk (h : walk go stop pages s = .ok (false, s')) :
    reach go stop pages s = pages.length := by
  induction pages generalizing s with
  | nil => rfl
  | cons page pages ih =>
      rw [walk] at h
      rw [reach]
      split at h
      · cases h
      · next s₁ hgo =>
        split at h
        · cases h
        · next hstop =>
          rw [if_neg hstop, ih h, List.length_cons]

/-- Before the end of what a walk reaches, nothing tells it to stop. -/
theorem not_stop_of_lt_reach {j : Nat} (hpos : 0 < j) (hj : j < reach go stop pages s) :
    ∃ m, (pages.take j).foldlM go s = .ok m ∧ stop m = false := by
  induction pages generalizing s j with
  | nil => exact absurd hj (Nat.not_lt_zero j)
  | cons page pages ih =>
      cases j with
      | zero => omega
      | succ i =>
        rw [reach] at hj
        cases hgo : go s page with
        | error e =>
            rw [hgo] at hj
            dsimp only at hj
            omega
        | ok s₁ =>
            rw [hgo] at hj
            dsimp only at hj
            rw [List.take_succ_cons, List.foldlM_cons, hgo]
            split at hj
            · omega
            · next hstop =>
              cases i with
              | zero => exact ⟨s₁, rfl, by simpa using hstop⟩
              | succ i => exact ih (by omega) (by omega)

/-- Where no page raises, a walk reaches a page exactly when nothing before it
tells it to stop. -/
theorem lt_reach_iff {t : S} (hpages : pages.foldlM go s = .ok t) {j : Nat} :
    j < reach go stop pages s ↔ j < pages.length ∧
      ∀ i m, 0 < i → i ≤ j → (pages.take i).foldlM go s = .ok m → stop m = false := by
  constructor
  · intro hj
    refine ⟨Nat.lt_of_lt_of_le hj reach_le, fun i m hpos hi htake => ?_⟩
    obtain ⟨m', htake', hstop⟩ := not_stop_of_lt_reach hpos (Nat.lt_of_le_of_lt hi hj)
    obtain rfl : m = m' := Except.ok.inj (htake.symm.trans htake')
    exact hstop
  · rintro ⟨hlength, hstops⟩
    cases hwalk : walk go stop pages s with
    | error e =>
        have hfold : (pages.take (reach go stop pages s)).foldlM go s = .error e := by
          rw [← walk_eq_foldlM, hwalk]
          rfl
        rw [← List.take_append_drop (reach go stop pages s) pages] at hpages
        obtain ⟨m, hok, _⟩ := foldlM_prefix hpages
        rw [hfold] at hok
        cases hok
    | ok r =>
        obtain ⟨stopped, s'⟩ := r
        cases stopped with
        | false => rwa [reach_of_walk hwalk]
        | true =>
            by_contra hnot
            have hpos : 0 < reach go stop pages s := reach_pos (List.ne_nil_of_length_pos (by omega))
            have hstop := hstops _ s' hpos (Nat.le_of_not_lt hnot) (foldlM_of_walk hwalk)
            rw [stop_of_walk hwalk] at hstop
            cases hstop

end RecruFlow.Lib.Pages
