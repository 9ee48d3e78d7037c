import RecruFlow.Lib.Trace
import Mathlib.Data.List.Basic

/-!
# Calls to a server

A client makes calls to a server, which others change too. The server answers a call when
it comes to it, and the answers are handed over in any order. A call may fail for the client
at any time: the server may have answered it, or may answer it afterwards.
-/

namespace RecruFlow.Lib.Calls

open Trace

/-- What was asked, the answer that the server gave and what the client was handed. -/
structure Call (κ φ α : Type*) where
  asked : κ
  answer : Option α := none
  result : Option (Except φ α) := none

structure Protocol (σ κ φ α γ ε : Type*) where
  /-- How the server answers. -/
  handle : κ → σ → α × σ
  /-- What the client does at an event; a call that it makes has the number given. -/
  act : Nat → γ → ε → Option (γ × Option κ)
  /-- What the client does with the result of a call. -/
  settle : Nat → κ → Except φ α → γ → γ

structure Exchange (σ κ φ α γ : Type*) where
  server : σ
  client : γ
  calls : List (Call κ φ α) := []

inductive ExchangeEvent (σ φ ε : Type*) where
  | act (e : ε)
  | serve (i : Nat)
  | deliver (i : Nat)
  | fail (i : Nat) (failure : φ)
  /-- What others do to the server. -/
  | change (server : σ)

variable {σ κ φ α γ ε : Type*} (p : Protocol σ κ φ α γ ε)

def Exchange.settle (s : Exchange σ κ φ α γ) (i : Nat) (call : Call κ φ α)
    (result : Except φ α) : Exchange σ κ φ α γ :=
  { s with
    client := p.settle i call.asked result s.client
    calls := s.calls.set i { call with result := some result } }

def exchangeStep (s : Exchange σ κ φ α γ) : ExchangeEvent σ φ ε → Option (Exchange σ κ φ α γ)
  | .act e => (p.act s.calls.length s.client e).map fun acted =>
      { s with
        client := acted.1
        calls := s.calls ++ (acted.2.map fun asked => { asked }).toList }
  | .serve i => s.calls[i]?.bind fun call =>
      if call.answer.isSome then none
      else
        let served := p.handle call.asked s.server
        some { s with
          server := served.2
          calls := s.calls.set i { call with answer := some served.1 } }
  | .deliver i => s.calls[i]?.bind fun call => call.answer.bind fun answer =>
      if call.result.isSome then none else some (s.settle p i call (.ok answer))
  | .fail i failure => s.calls[i]?.bind fun call =>
      if call.result.isSome then none else some (s.settle p i call (.error failure))
  | .change server => some { s with server }

/-- A call is still what it was, but for an answer and a result that it did not have. -/
structure Call.Onward (call call' : Call κ φ α) : Prop where
  asked : call'.asked = call.asked
  answer : ∀ a, call.answer = some a → call'.answer = some a
  result : ∀ r, call.result = some r → call'.result = some r

/-- What the client is handed is what the server has answered. -/
def Exchange.Genuine (s : Exchange σ κ φ α γ) : Prop :=
  ∀ (i : Nat) (call : Call κ φ α), s.calls[i]? = some call →
    ∀ a, call.result = some (.ok a) → call.answer = some a

variable {p} {s t u : Exchange σ κ φ α γ} {i j : Nat} {call call' : Call κ φ α}
  {e : ExchangeEvent σ φ ε} {es : List (ExchangeEvent σ φ ε)}

/-! ## What a step does -/

theorem act_some {a : ε} (h : exchangeStep p s (.act a) = some t) :
    ∃ client asked, p.act s.calls.length s.client a = some (client, asked) ∧
      t = { s with client, calls := s.calls ++ (asked.map fun asked => { asked }).toList } := by
  obtain ⟨⟨client, asked⟩, hact, rfl⟩ := Option.map_eq_some_iff.mp h
  exact ⟨client, asked, hact, rfl⟩

theorem serve_some (h : exchangeStep p s (.serve i) = some t) :
    ∃ call, s.calls[i]? = some call ∧ call.answer = none ∧
      t = { s with
        server := (p.handle call.asked s.server).2
        calls := s.calls.set i
          { call with answer := some (p.handle call.asked s.server).1 } } := by
  obtain ⟨call, hcall, h⟩ := Option.bind_eq_some_iff.mp h
  split at h
  · cases h
  · next hnone =>
    exact ⟨call, hcall, Option.not_isSome_iff_eq_none.mp hnone, (Option.some.inj h).symm⟩

theorem deliver_some (h : exchangeStep p s (.deliver i) = some t) :
    ∃ call answer, s.calls[i]? = some call ∧ call.answer = some answer ∧ call.result = none ∧
      t = s.settle p i call (.ok answer) := by
  obtain ⟨call, hcall, h⟩ := Option.bind_eq_some_iff.mp h
  obtain ⟨answer, hanswer, h⟩ := Option.bind_eq_some_iff.mp h
  split at h
  · cases h
  · next hnone =>
    exact ⟨call, answer, hcall, hanswer, Option.not_isSome_iff_eq_none.mp hnone,
      (Option.some.inj h).symm⟩

theorem fail_some {failure : φ} (h : exchangeStep p s (.fail i failure) = some t) :
    ∃ call, s.calls[i]? = some call ∧ call.result = none ∧
      t = s.settle p i call (.error failure) := by
  obtain ⟨call, hcall, h⟩ := Option.bind_eq_some_iff.mp h
  split at h
  · cases h
  · next hnone =>
    exact ⟨call, hcall, Option.not_isSome_iff_eq_none.mp hnone, (Option.some.inj h).symm⟩

/-! ## The calls after a step -/

theorem act_calls {asked : Option κ}
    (h : (s.calls ++ (asked.map fun asked => ({ asked } : Call κ φ α)).toList)[i]? = some call) :
    s.calls[i]? = some call ∨
      (i = s.calls.length ∧ asked = some call.asked ∧ call.answer = none ∧ call.result = none) := by
  rcases Nat.lt_or_ge i s.calls.length with hlt | hge
  · exact .inl ((List.getElem?_append_left hlt).symm.trans h)
  · rw [List.getElem?_append_right hge] at h
    cases asked with
    | none => cases h
    | some asked =>
        have hlast : i - s.calls.length < 1 := (List.getElem?_eq_some_iff.mp h).1
        have hi : i = s.calls.length := by omega
        rw [hi, Nat.sub_self] at h
        obtain rfl := Option.some.inj h
        exact .inr ⟨hi, rfl, rfl, rfl⟩

theorem serve_calls {answer : α} (hi : s.calls[i]? = some call)
    (hj : (s.calls.set i { call with answer := some answer })[j]? = some call') :
    (i = j ∧ call' = { call with answer := some answer }) ∨ (i ≠ j ∧ s.calls[j]? = some call') := by
  rcases eq_or_ne i j with rfl | hne
  · rw [List.getElem?_set_self (List.getElem?_eq_some_iff.mp hi).1] at hj
    exact .inl ⟨rfl, (Option.some.inj hj).symm⟩
  · exact .inr ⟨hne, (List.getElem?_set_ne hne).symm.trans hj⟩

/-- A result is that of one call, and is not an answer. -/
theorem settle_calls {result : Except φ α} (hi : s.calls[i]? = some call)
    (hj : (s.settle p i call result).calls[j]? = some call') :
    ∃ before, s.calls[j]? = some before ∧ call'.asked = before.asked ∧
      call'.answer = before.answer ∧
      ((i = j ∧ call'.result = some result) ∨ (i ≠ j ∧ call' = before)) := by
  change (s.calls.set i _)[j]? = some call' at hj
  rcases eq_or_ne i j with rfl | hne
  · rw [List.getElem?_set_self (List.getElem?_eq_some_iff.mp hi).1] at hj
    obtain rfl := Option.some.inj hj
    exact ⟨call, hi, rfl, rfl, .inl ⟨rfl, rfl⟩⟩
  · rw [List.getElem?_set_ne hne] at hj
    exact ⟨call', hj, rfl, rfl, .inr ⟨hne, rfl⟩⟩

/-! ## What becomes of a call -/

theorem Call.Onward.refl : call.Onward call :=
  ⟨rfl, fun _ h => h, fun _ h => h⟩

theorem Call.Onward.trans {call'' : Call κ φ α} (h : call.Onward call')
    (h' : call'.Onward call'') : call.Onward call'' :=
  ⟨h'.asked.trans h.asked, fun a ha => h'.answer a (h.answer a ha),
    fun r hr => h'.result r (h.result r hr)⟩

/-- Of two calls with one number, a later one is what an earlier one became. -/
theorem getElem?_set_onward {calls : List (Call κ φ α)} (hj : calls[j]? = some call)
    (hi : calls[i]? = some call') {new : Call κ φ α} (hnew : call'.Onward new) :
    ∃ later, (calls.set i new)[j]? = some later ∧ call.Onward later := by
  rcases eq_or_ne i j with rfl | hne
  · have hlt : i < calls.length := (List.getElem?_eq_some_iff.mp hi).1
    have hsame : call' = call := Option.some.inj (hi.symm.trans hj)
    exact ⟨new, List.getElem?_set_self hlt, hsame ▸ hnew⟩
  · exact ⟨call, (List.getElem?_set_ne hne).trans hj, .refl⟩

theorem calls_onward (hstep : exchangeStep p s e = some t) (hcall : s.calls[i]? = some call) :
    ∃ later, t.calls[i]? = some later ∧ call.Onward later := by
  cases e with
  | act a =>
      obtain ⟨client, asked, -, rfl⟩ := act_some hstep
      have hlt : i < s.calls.length := (List.getElem?_eq_some_iff.mp hcall).1
      exact ⟨call, (List.getElem?_append_left hlt).trans hcall, .refl⟩
  | serve j =>
      obtain ⟨served, hserved, hnone, rfl⟩ := serve_some hstep
      apply getElem?_set_onward hcall hserved
      exact ⟨rfl, fun a ha => (Option.some_ne_none a (ha.symm.trans hnone)).elim, fun _ h => h⟩
  | deliver j =>
      obtain ⟨served, answer, hserved, -, hnone, rfl⟩ := deliver_some hstep
      apply getElem?_set_onward hcall hserved
      exact ⟨rfl, fun _ h => h, fun r hr => (Option.some_ne_none r (hr.symm.trans hnone)).elim⟩
  | fail j failure =>
      obtain ⟨served, hserved, hnone, rfl⟩ := fail_some hstep
      apply getElem?_set_onward hcall hserved
      exact ⟨rfl, fun _ h => h, fun r hr => (Option.some_ne_none r (hr.symm.trans hnone)).elim⟩
  | change server =>
      obtain rfl := Option.some.inj hstep
      exact ⟨call, hcall, .refl⟩

theorem reaches_onward (h : Reaches (exchangeStep p) s es t) (hcall : s.calls[i]? = some call) :
    ∃ later, t.calls[i]? = some later ∧ call.Onward later := by
  refine invariant (I := fun t : Exchange σ κ φ α γ =>
    ∃ later, t.calls[i]? = some later ∧ call.Onward later) ?_ ⟨call, hcall, .refl⟩ h
  intro s e t hs hstep
  obtain ⟨later, hlater, honward⟩ := hs
  obtain ⟨last, hlast, h⟩ := calls_onward hstep hlater
  exact ⟨last, hlast, honward.trans h⟩

/-! ## Where an answer comes from -/

theorem genuine_step (h : s.Genuine) (hstep : exchangeStep p s e = some t) : t.Genuine := by
  have hsettle : ∀ {i call} {result : Except φ α}, s.calls[i]? = some call →
      (∀ a, result = .ok a → call.answer = some a) → (s.settle p i call result).Genuine := by
    intro i call result hi hgenuine j call' hj a ha
    obtain ⟨before, hbefore, -, hanswer, ⟨rfl, hresult⟩ | ⟨-, rfl⟩⟩ := settle_calls hi hj
    · obtain rfl : call = before := Option.some.inj (hi.symm.trans hbefore)
      rw [hanswer]
      exact hgenuine a (Option.some.inj (hresult.symm.trans ha))
    · exact h j call' hbefore a ha
  cases e with
  | act a =>
      obtain ⟨client, asked, -, rfl⟩ := act_some hstep
      intro i call hcall a ha
      rcases act_calls hcall with hold | ⟨-, -, -, hnone⟩
      · exact h i call hold a ha
      · rw [hnone] at ha
        cases ha
  | serve i =>
      obtain ⟨served, hserved, hnone, rfl⟩ := serve_some hstep
      intro j call hcall a ha
      rcases serve_calls hserved hcall with ⟨rfl, rfl⟩ | ⟨-, hold⟩
      · have hanswer := h i served hserved a ha
        rw [hnone] at hanswer
        cases hanswer
      · exact h j call hold a ha
  | deliver i =>
      obtain ⟨call, answer, hcall, hanswer, -, rfl⟩ := deliver_some hstep
      exact hsettle hcall fun a ha => hanswer.trans (congrArg some (Except.ok.inj ha))
  | fail i failure =>
      obtain ⟨call, hcall, -, rfl⟩ := fail_some hstep
      exact hsettle hcall fun a ha => by cases ha
  | change server =>
      obtain rfl := Option.some.inj hstep
      exact h

/-- A call comes by an answer when the server serves it. -/
theorem serve_of_answered {a : α} (hstep : exchangeStep p s e = some t)
    (hcall : t.calls[i]? = some call) (hanswer : call.answer = some a)
    (hnot : ∀ before, s.calls[i]? = some before → before.answer ≠ some a) :
    e = .serve i ∧ ∃ before, s.calls[i]? = some before ∧ before.asked = call.asked ∧
      p.handle call.asked s.server = (a, t.server) := by
  have hsettle : ∀ {j settled} {result : Except φ α}, s.calls[j]? = some settled →
      (s.settle p j settled result).calls[i]? = some call → False := by
    intro j settled result hj hi
    obtain ⟨before, hbefore, -, hsame, -⟩ := settle_calls hj hi
    exact hnot before hbefore (hsame.symm.trans hanswer)
  cases e with
  | act e =>
      obtain ⟨client, asked, -, rfl⟩ := act_some hstep
      rcases act_calls hcall with hold | ⟨-, -, hnone, -⟩
      · exact absurd hanswer (hnot call hold)
      · rw [hnone] at hanswer
        cases hanswer
  | serve j =>
      obtain ⟨served, hserved, -, rfl⟩ := serve_some hstep
      rcases serve_calls hserved hcall with ⟨rfl, rfl⟩ | ⟨-, hold⟩
      · exact ⟨rfl, served, hserved, rfl, Prod.ext (Option.some.inj hanswer) rfl⟩
      · exact absurd hanswer (hnot call hold)
  | deliver j =>
      obtain ⟨settled, answer, hsettled, -, -, rfl⟩ := deliver_some hstep
      exact (hsettle hsettled hcall).elim
  | fail j failure =>
      obtain ⟨settled, hsettled, -, rfl⟩ := fail_some hstep
      exact (hsettle hsettled hcall).elim
  | change server =>
      obtain rfl := Option.some.inj hstep
      exact absurd hanswer (hnot call hcall)

/-- The answer of a call is what the server gave at one moment of the execution. -/
theorem served_at (hrun : exec (exchangeStep p) s es = some u) (hstart : s.calls = [])
    {a : α} (hcall : u.calls[i]? = some call) (hanswer : call.answer = some a) :
    ∃ before after t t', es = before ++ .serve i :: after ∧
      exec (exchangeStep p) s before = some t ∧ exchangeStep p t (.serve i) = some t' ∧
      exec (exchangeStep p) t' after = some u ∧
      (∃ asked, t.calls[i]? = some asked ∧ asked.asked = call.asked) ∧
      p.handle call.asked t.server = (a, t'.server) := by
  let Answered (s : Exchange σ κ φ α γ) : Prop :=
    ∃ call, s.calls[i]? = some call ∧ call.answer = some a
  have hnone : ¬ Answered s := by
    rintro ⟨call, hcall, -⟩
    rw [hstart] at hcall
    cases hcall
  obtain ⟨before, e, after, t, t', rfl, hbefore, hswitch, hafter, hnot, later, hlater, hgiven⟩ :=
    exists_switch (Q := Answered) hrun hnone ⟨call, hcall, hanswer⟩
  obtain ⟨last, hlast, honward⟩ := reaches_onward (.last hafter) hlater
  obtain rfl : call = last := Option.some.inj (hcall.symm.trans hlast)
  obtain ⟨rfl, asked, hasked, hsame, hhandled⟩ := serve_of_answered hswitch hlater hgiven
    fun before hbefore hanswered => hnot ⟨before, hbefore, hanswered⟩
  rw [honward.asked]
  exact ⟨before, after, t, t', rfl, hbefore, hswitch, hafter, ⟨asked, hasked, hsame⟩, hhandled⟩

end RecruFlow.Lib.Calls
