import Mathlib.Data.List.Basic

/-!
# Executions of a partial step function

A system is a function `step : σ → ε → Option σ`; `none` means that the event
cannot happen in that state. The rules below turn facts about one step into
facts about every state that an execution reaches.
-/

namespace RecruFlow.Lib.Trace

variable {σ ε : Type*} (step : σ → ε → Option σ)

/-- Run the events one after another. -/
def exec : σ → List ε → Option σ
  | s, [] => some s
  | s, e :: es => (step s e).bind fun t => exec t es

/-- Every event happens in a state that `P` allows it in. -/
def Along (P : σ → ε → Prop) : σ → List ε → Prop
  | _, [] => True
  | s, e :: es => P s e ∧ ∀ t, step s e = some t → Along P t es

/-- `t` is one of the states that the execution of `es` from `s` goes through. -/
def Reaches (s : σ) (es : List ε) (t : σ) : Prop :=
  ∃ before, before <+: es ∧ exec step s before = some t

variable {step} {P : σ → ε → Prop} {I Q : σ → Prop} {s t u : σ} {e : ε} {es fs : List ε}

theorem along_cons (h : step s e = some t) :
    Along step P s (e :: es) ↔ P s e ∧ Along step P t es := by
  rw [Along, h]
  simp

theorem Along.mono {P' : σ → ε → Prop} (h : ∀ s e, P s e → P' s e) :
    Along step P s es → Along step P' s es := by
  induction es generalizing s with
  | nil => exact id
  | cons e es ih => exact fun hP => ⟨h s e hP.1, fun t hst => ih (hP.2 t hst)⟩

@[simp] theorem exec_nil : exec step s [] = some s := rfl

theorem exec_cons : exec step s (e :: es) = (step s e).bind fun t => exec step t es := rfl

theorem exec_cons_some :
    exec step s (e :: es) = some u ↔ ∃ t, step s e = some t ∧ exec step t es = some u := by
  rw [exec_cons, Option.bind_eq_some_iff]

/-- `P` allows each event in the state that it happens in. -/
theorem Along.at_event (h : Along step P s (es ++ e :: fs)) (hrun : exec step s es = some t) :
    P t e := by
  induction es generalizing s with
  | nil =>
      obtain rfl : s = t := Option.some.inj hrun
      exact h.1
  | cons e' es ih =>
      obtain ⟨t', hst, hrest⟩ := exec_cons_some.mp hrun
      exact ih (h.2 t' hst) hrest

theorem exec_append :
    exec step s (es ++ fs) = (exec step s es).bind fun t => exec step t fs := by
  induction es generalizing s with
  | nil => rfl
  | cons e es ih =>
      simp only [List.cons_append, exec_cons, Option.bind_assoc]
      congr 1
      funext t
      exact ih

theorem Reaches.refl : Reaches step s es s :=
  ⟨[], List.nil_prefix, rfl⟩

theorem Reaches.last (h : exec step s es = some t) : Reaches step s es t :=
  ⟨es, List.prefix_rfl, h⟩

theorem Reaches.cons (hst : step s e = some t) (h : Reaches step t es u) :
    Reaches step s (e :: es) u := by
  obtain ⟨before, hbefore, hu⟩ := h
  exact ⟨e :: before, (List.prefix_cons_inj e).mpr hbefore, exec_cons_some.mpr ⟨t, hst, hu⟩⟩

/-- Past the initial state, a reached state is reached from the first step's result. -/
theorem Reaches.cases_cons (h : Reaches step s (e :: es) u) :
    u = s ∨ ∃ t, step s e = some t ∧ Reaches step t es u := by
  obtain ⟨before, hbefore, hu⟩ := h
  cases before with
  | nil =>
      left
      exact (Option.some.inj hu).symm
  | cons e' before =>
      obtain ⟨rfl, htail⟩ := List.cons_prefix_cons.mp hbefore
      obtain ⟨t, hst, hu⟩ := exec_cons_some.mp hu
      exact .inr ⟨t, hst, before, htail, hu⟩

/-- An invariant of the step is an invariant of the execution. -/
theorem invariant (hstep : ∀ s e t, I s → step s e = some t → I t) (hs : I s)
    (h : Reaches step s es t) : I t := by
  induction es generalizing s with
  | nil =>
      obtain ⟨before, hbefore, ht⟩ := h
      rw [List.prefix_nil.mp hbefore] at ht
      exact Option.some.inj ht ▸ hs
  | cons e es ih =>
      obtain rfl | ⟨t', hst, ht⟩ := h.cases_cons
      · exact hs
      · exact ih (hstep s e t' hs hst) ht

/-- A property that one step keeps when `P` allows the event holds in every
state of an execution whose events `P` allows. -/
theorem along_invariant (hstep : ∀ s e t, I s → P s e → step s e = some t → I t)
    (hs : I s) (hP : Along step P s es) (h : Reaches step s es t) : I t := by
  induction es generalizing s with
  | nil =>
      obtain ⟨before, hbefore, ht⟩ := h
      rw [List.prefix_nil.mp hbefore] at ht
      exact Option.some.inj ht ▸ hs
  | cons e es ih =>
      obtain rfl | ⟨t', hst, ht⟩ := h.cases_cons
      · exact hs
      · exact ih (hstep s e t' hs hP.1 hst) (hP.2 t' hst) ht

/-- What holds at the end of an execution and not at its start came about at one of its events. -/
theorem exists_switch (hrun : exec step s es = some u) (hs : ¬ Q s) (hu : Q u) :
    ∃ before e after t t', es = before ++ e :: after ∧ exec step s before = some t ∧
      step t e = some t' ∧ exec step t' after = some u ∧ ¬ Q t ∧ Q t' := by
  induction es generalizing s with
  | nil =>
      obtain rfl : s = u := Option.some.inj hrun
      exact absurd hu hs
  | cons e es ih =>
      obtain ⟨t', hst, hrest⟩ := exec_cons_some.mp hrun
      by_cases hQ : Q t'
      · exact ⟨[], e, es, s, t', rfl, rfl, hst, hrest, hs, hQ⟩
      · obtain ⟨before, e', after, t, t'', rfl, hbefore, hswitch⟩ := ih hrest hQ
        exact ⟨e :: before, e', after, t, t'', rfl, exec_cons_some.mpr ⟨t', hst, hbefore⟩, hswitch⟩

/-- When `P` is exactly what one step needs in order to keep `Q`, the states of
an execution all satisfy `Q` exactly when its events all satisfy `P`. -/
theorem everywhere_iff_along
    (hinv : ∀ s e t, I s → step s e = some t → I t)
    (hstep : ∀ s e t, I s → Q s → step s e = some t → (Q t ↔ P s e))
    (hs : I s) (hq : Q s) (hrun : exec step s es = some u) :
    (∀ t, Reaches step s es t → Q t) ↔ Along step P s es := by
  induction es generalizing s with
  | nil =>
      refine ⟨fun _ => trivial, fun _ t ht => ?_⟩
      obtain ⟨before, hbefore, ht⟩ := ht
      rw [List.prefix_nil.mp hbefore] at ht
      exact Option.some.inj ht ▸ hq
  | cons e es ih =>
      obtain ⟨t, hst, hrun⟩ := exec_cons_some.mp hrun
      constructor
      · intro hall
        have ht : Q t := hall t (.cons hst .refl)
        refine ⟨(hstep s e t hs hq hst).mp ht, fun t' hst' => ?_⟩
        obtain rfl : t = t' := Option.some.inj (hst.symm.trans hst')
        exact (ih (hinv s e t hs hst) ht hrun).mp fun v hv => hall v (.cons hst hv)
      · rintro ⟨hP, hrest⟩ v hv
        obtain rfl | ⟨t', hst', hv⟩ := hv.cases_cons
        · exact hq
        · obtain rfl : t = t' := Option.some.inj (hst.symm.trans hst')
          have ht : Q t := (hstep s e t hs hq hst).mpr hP
          exact (ih (hinv s e t hs hst) ht hrun).mpr (hrest t hst) v hv

/-! ## What is counted along the events -/

/-- Every event has the property, at what was counted ahead of it. -/
def Throughout {γ : Type*} (next : γ → ε → γ) (P : γ → ε → Prop) : γ → List ε → Prop
  | _, [] => True
  | c, e :: es => P c e ∧ Throughout next P (next c e) es

theorem throughout_append {γ : Type*} {next : γ → ε → γ} {P : γ → ε → Prop} {c : γ} :
    Throughout next P c (es ++ fs) ↔
      Throughout next P c es ∧ Throughout next P (es.foldl next c) fs := by
  induction es generalizing c with
  | nil => exact (true_and _).to_iff.symm
  | cons e es ih => rw [List.cons_append, Throughout, Throughout, ih, List.foldl_cons, and_assoc]

theorem Throughout.of_mem {γ : Type*} {next : γ → ε → γ} {R : ε → Prop} {c : γ}
    (h : Throughout next (fun _ e => R e) c es) : ∀ e ∈ es, R e := by
  induction es generalizing c with
  | nil => exact fun e he => absurd he List.not_mem_nil
  | cons e es ih =>
      intro e' he'
      rcases List.mem_cons.mp he' with rfl | hlater
      · exact h.1
      · exact ih h.2 e' hlater

end RecruFlow.Lib.Trace
