import Mathlib.Logic.Function.Basic
import RecruFlow.Lib.Trace

/-!
# Callers that take turns at something shared

Each caller is somewhere in a computation of its own. An action of one of them
reads and writes what is shared and moves that caller on; actions of different
callers come in any order.
-/

namespace RecruFlow.Lib.Interleaving

open Trace

variable {τ σ κ ε : Type*}

structure Sharing (τ σ κ : Type*) where
  shared : σ
  caller : τ → κ

variable [DecidableEq τ] (act : σ → κ → ε → Option (σ × κ))

/-- One action of the caller `e.1`. -/
def turn (s : Sharing τ σ κ) (e : τ × ε) : Option (Sharing τ σ κ) :=
  (act s.shared (s.caller e.1) e.2).map fun r => ⟨r.1, Function.update s.caller e.1 r.2⟩

/-- What the actions of one caller add up to, each with its effect on the shared part. -/
def tally (t : τ) (weight : σ → ε → σ → Nat) : Sharing τ σ κ → List (τ × ε) → Nat
  | _, [] => 0
  | s, e :: es =>
      match turn act s e with
      | none => 0
      | some s' =>
          (if e.1 = t then weight s.shared e.2 s'.shared else 0) + tally t weight s' es

variable {act} {s u : Sharing τ σ κ} {t : τ} {e : τ × ε} {es : List (τ × ε)}

theorem turn_eq_some : turn act s e = some u ↔ ∃ x k,
    act s.shared (s.caller e.1) e.2 = some (x, k) ∧ u = ⟨x, Function.update s.caller e.1 k⟩ := by
  unfold turn
  rw [Option.map_eq_some_iff]
  constructor
  · intro h
    obtain ⟨⟨x, k⟩, hact, hu⟩ := h
    exact ⟨x, k, hact, hu.symm⟩
  · intro h
    obtain ⟨x, k, hact, hu⟩ := h
    exact ⟨(x, k), hact, hu.symm⟩

/-- What every action keeps of the shared part holds in every order of actions. -/
theorem shared_invariant {I : σ → Prop} (hs : I s.shared)
    (hact : ∀ x k e x' k', I x → act x k e = some (x', k') → I x')
    (hrun : exec (turn act) s es = some u) : I u.shared := by
  apply invariant (I := fun s : Sharing τ σ κ => I s.shared) _ hs (.last hrun)
  intro s e s' hI hturn
  obtain ⟨x, k, hk, rfl⟩ := turn_eq_some.mp hturn
  exact hact _ _ _ _ _ hI hk

/-- What the own actions of a caller keep of where it is and of what they add up to,
is kept in every order of actions. -/
theorem tally_invariant {J : κ → Nat → Prop} {weight : σ → ε → σ → Nat} {n : Nat}
    (hs : J (s.caller t) n)
    (hact : ∀ x k e x' k' n, J k n → act x k e = some (x', k') → J k' (n + weight x e x'))
    (hrun : exec (turn act) s es = some u) :
    J (u.caller t) (n + tally act t weight s es) := by
  induction es generalizing s n with
  | nil =>
      obtain rfl : s = u := Option.some.inj hrun
      exact hs
  | cons e es ih =>
      obtain ⟨m, hturn, hrest⟩ := exec_cons_some.mp hrun
      rw [tally, hturn]
      obtain ⟨x, k, hk, rfl⟩ := turn_eq_some.mp hturn
      dsimp only
      rw [← Nat.add_assoc]
      refine ih ?_ hrest
      dsimp only
      by_cases he : e.1 = t
      · subst he
        rw [if_pos rfl, Function.update_self]
        exact hact _ _ _ _ _ n hs hk
      · rw [if_neg he, Function.update_of_ne (Ne.symm he)]
        exact hs

/-- A caller that has come somewhere has done so by an action of its own. -/
theorem exists_turn {K : κ → Prop} (hs : ¬ K (s.caller t)) (hu : K (u.caller t))
    (hrun : exec (turn act) s es = some u) :
    ∃ before e after m x k, es = before ++ (t, e) :: after ∧
      exec (turn act) s before = some m ∧ act m.shared (m.caller t) e = some (x, k) ∧
      ¬ K (m.caller t) ∧ K k := by
  induction es generalizing s with
  | nil =>
      obtain rfl : s = u := Option.some.inj hrun
      exact absurd hu hs
  | cons e es ih =>
      obtain ⟨m, hturn, hrest⟩ := exec_cons_some.mp hrun
      by_cases hm : K (m.caller t)
      · obtain ⟨x, k, hk, rfl⟩ := turn_eq_some.mp hturn
        dsimp only at hm
        by_cases he : e.1 = t
        · subst he
          rw [Function.update_self] at hm
          exact ⟨[], e.2, es, s, x, k, rfl, rfl, hk, hs, hm⟩
        · rw [Function.update_of_ne (Ne.symm he)] at hm
          exact absurd hm hs
      · obtain ⟨before, e', after, m', x, k, rfl, hbefore, hk, hnot, hcome⟩ := ih hm hrest
        exact ⟨e :: before, e', after, m', x, k, rfl, exec_cons_some.mpr ⟨m, hturn, hbefore⟩, hk,
          hnot, hcome⟩

end RecruFlow.Lib.Interleaving
