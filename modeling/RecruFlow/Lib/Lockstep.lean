import RecruFlow.Lib.Pages

/-!
# Two computations that end alike

Two computations that may raise are related by how they end: both return, or
both raise, and what they return or raise is related. Two walks whose pages are
related in that way reach as many pages.
-/

namespace RecruFlow.Lib.Lockstep

open Pages

universe u v

variable {ε ε' : Type*} {α β : Type u} {α' β' : Type v}

/-- Both return, or both raise, what is related. -/
inductive Alike (R : α → α' → Prop) (E : ε → ε' → Prop) : Except ε α → Except ε' α' → Prop
  | ok {a : α} {a' : α'} (h : R a a') : Alike R E (.ok a) (.ok a')
  | error {e : ε} {e' : ε'} (h : E e e') : Alike R E (.error e) (.error e')

variable {R : α → α' → Prop} {R' : β → β' → Prop} {E : ε → ε' → Prop} {x : Except ε α}
  {x' : Except ε' α'}

theorem Alike.bind {f : α → Except ε β} {f' : α' → Except ε' β'} (hx : Alike R E x x')
    (hf : ∀ a a', R a a' → Alike R' E (f a) (f' a')) : Alike R' E (x >>= f) (x' >>= f') := by
  cases hx with
  | ok h => exact hf _ _ h
  | error h => exact .error h

theorem Alike.map {f : α → β} {f' : α' → β'} (hx : Alike R E x x')
    (hf : ∀ a a', R a a' → R' (f a) (f' a')) : Alike R' E (x.map f) (x'.map f') := by
  cases hx with
  | ok h => exact .ok (hf _ _ h)
  | error h => exact .error h

/-- As `Alike`, with what the two computations return. -/
theorem Alike.returned (hx : Alike R E x x') :
    Alike (fun a a' => R a a' ∧ x = .ok a ∧ x' = .ok a') E x x' := by
  cases hx with
  | ok h => exact .ok ⟨h, rfl, rfl⟩
  | error h => exact .error h

theorem Alike.of_ok {a : α} (hx : Alike R E (.ok a) x') : ∃ a', x' = .ok a' ∧ R a a' := by
  cases hx with
  | ok h => exact ⟨_, rfl, h⟩

section Walk

variable {X P S P' S' : Type*} {go : S → P → Except ε S} {go' : S' → P' → Except ε' S'}
  {stop : S → Bool} {stop' : S' → Bool} {f : X → P} {f' : X → P'} {R : ℕ → S → S' → Prop}

/-- Two walks over the same pages, each in a form of its own. Where the pages
that the first one reaches are gone through alike, the second one reaches as
many of them. -/
theorem walk_alike {xs : List X} {s : S} {s' : S'}
    (hstop : ∀ i s s', R i s s' → stop' s' = stop s)
    (hgo : ∀ i x m m', xs[i]? = some x → i < reach go stop (xs.map f) s →
      ((xs.map f).take i).foldlM go s = .ok m → R i m m' →
        Alike (R (i + 1)) E (go m (f x)) (go' m' (f' x)))
    (h : R 0 s s') :
    reach go' stop' (xs.map f') s' = reach go stop (xs.map f) s ∧
      Alike (fun r r' => r'.1 = r.1 ∧ R (reach go stop (xs.map f) s) r.2 r'.2) E
        (walk go stop (xs.map f) s) (walk go' stop' (xs.map f') s') := by
  induction xs generalizing s s' R with
  | nil => exact ⟨rfl, .ok ⟨rfl, h⟩⟩
  | cons x xs ih =>
      have hfirst := hgo 0 x s s' rfl (reach_pos (by simp)) rfl h
      simp only [List.map_cons, walk, reach]
      generalize hx : go s (f x) = out at hfirst
      generalize go' s' (f' x) = out' at hfirst
      cases hfirst with
      | error he => exact ⟨rfl, .error he⟩
      | @ok m m' hm =>
          dsimp only
          rw [hstop 1 m m' hm]
          cases hend : stop m with
          | true => exact ⟨rfl, .ok ⟨rfl, hm⟩⟩
          | false =>
              have hreach : reach go stop ((x :: xs).map f) s =
                  reach go stop (xs.map f) m + 1 := by
                rw [List.map_cons, reach, hx]
                dsimp only
                rw [if_neg (by rw [hend]; exact Bool.false_ne_true)]
              obtain ⟨hsame, hwalk⟩ := @ih (fun i => R (i + 1)) m m'
                (fun i => hstop (i + 1))
                (fun i y t t' hy hi ht => hgo (i + 1) y t t' hy (by rw [hreach]; omega) (by
                  rw [List.map_cons, List.take_succ_cons, List.foldlM_cons, hx]
                  exact ht)) hm
              exact ⟨by rw [if_neg Bool.false_ne_true, if_neg Bool.false_ne_true, hsame], hwalk⟩

end Walk

end RecruFlow.Lib.Lockstep
