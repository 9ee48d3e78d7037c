import Mathlib.Data.List.Nodup
import RecruFlow.Lib.Interleaving

/-!
# The proxy pool

Worker threads draw proxies from one pool, evict those that fail, and top the pool
up. The lock covers single looks at the pool and changes of it. It is free while
`top_up` scrapes a candidate, so that the calls interleave in any way.
-/

namespace RecruFlow.Connectors

open Lib.Interleaving Lib.Trace

/-- What `_scrape_one` comes to; it catches `FreeProxyException` only. -/
inductive Scrape where
  | candidate (proxy : String)
  | nothing
  | raises

/-- The variables of `top_up`. -/
structure TopUp where
  attemptsBudget : Int
  admitted : Nat := 0
  attempts : Nat := 0

inductive PoolCall where
  | getProxy
  | topUp (maxAttempts : Option Int)
  | reportFailure (proxy : String)

/-- Where a call is; a `top_up` may be one that `get_proxy` has called. -/
inductive PoolCaller where
  | choosing
  | looking (inGetProxy : Bool) (v : TopUp)
  | scraping (inGetProxy : Bool) (v : TopUp)
  | admitting (inGetProxy : Bool) (v : TopUp) (candidate : String)
  /-- The log line of `top_up` reads the size of the pool. -/
  | logging (inGetProxy : Bool) (v : TopUp)
  | choosingAgain (admitted : Nat)
  | evicting (proxy : String)
  | gotProxy (proxy : Option String)
  | toppedUp (admitted : Nat)
  | reported
  | raised

inductive PoolAction where
  /-- `self._rand.choice(self._good)`, with the index that it picks. -/
  | choose (i : Nat)
  | look
  | scrape (outcome : Scrape)
  /-- The second look at the pool, which appends the candidate if it may. -/
  | append
  | log
  | evict

variable (targetSize : Nat)

/-- `top_up` returns. -/
def TopUp.returned (inGetProxy : Bool) (v : TopUp) : PoolCaller :=
  if inGetProxy then .choosingAgain v.admitted else .toppedUp v.admitted

/-- Behind the loop of `top_up`. -/
def TopUp.afterLoop (inGetProxy : Bool) (v : TopUp) : PoolCaller :=
  if v.admitted ≠ 0 then .logging inGetProxy v else v.returned inGetProxy

/-- The attempts that a call may make in its `top_up`. -/
def PoolCall.attemptsBudget : PoolCall → Int
  | .getProxy => targetSize * 4
  | .topUp maxAttempts => maxAttempts.getD (targetSize * 4)
  | .reportFailure _ => 0

def PoolCall.start : PoolCall → PoolCaller
  | .getProxy => .choosing
  | .topUp maxAttempts => .looking false ⟨(topUp maxAttempts).attemptsBudget targetSize, 0, 0⟩
  | .reportFailure proxy => .evicting proxy

/-- One step of a call, on the good pool. -/
def poolAct (good : List String) : PoolCaller → PoolAction → Option (List String × PoolCaller)
  | .choosing, .choose i =>
      if good = [] then
        some (good, .looking true ⟨PoolCall.getProxy.attemptsBudget targetSize, 0, 0⟩)
      else good[i]?.map fun proxy => (good, .gotProxy (some proxy))
  | .looking inGetProxy v, .look =>
      if v.attempts < v.attemptsBudget then
        if targetSize ≤ good.length then some (good, v.afterLoop inGetProxy)
        else some (good, .scraping inGetProxy { v with attempts := v.attempts + 1 })
      else some (good, v.afterLoop inGetProxy)
  | .scraping inGetProxy v, .scrape (.candidate proxy) =>
      some (good, .admitting inGetProxy v proxy)
  | .scraping inGetProxy v, .scrape .nothing => some (good, .looking inGetProxy v)
  | .scraping _ _, .scrape .raises => some (good, .raised)
  | .admitting inGetProxy v candidate, .append =>
      if candidate ∉ good ∧ good.length < targetSize then
        some (good ++ [candidate], .looking inGetProxy { v with admitted := v.admitted + 1 })
      else some (good, .looking inGetProxy v)
  | .logging inGetProxy v, .log => some (good, v.returned inGetProxy)
  | .choosingAgain _, .choose i =>
      if good = [] then some (good, .gotProxy none)
      else good[i]?.map fun proxy => (good, .gotProxy (some proxy))
  | .evicting proxy, .evict =>
      some (if proxy ∈ good then good.erase proxy else good, .reported)
  | _, _ => none

/-- The pool as it is constructed, and the calls that are made of it. -/
def openPool {τ : Type} (calls : τ → PoolCall) : Sharing τ (List String) PoolCaller :=
  ⟨[], fun t => (calls t).start targetSize⟩

/-- What a `top_up` that has just returned, to its caller or inside `get_proxy`, has returned. -/
def PoolCaller.returnsAdmitted : PoolCaller → Option Nat
  | .choosingAgain admitted => some admitted
  | .toppedUp admitted => some admitted
  | _ => none

def countsScrape (_ : List String) : PoolAction → List String → Nat
  | .scrape _, _ => 1
  | _, _ => 0

def countsAddition (good : List String) (_ : PoolAction) (good' : List String) : Nat :=
  good'.length - good.length

variable {targetSize} {good good' : List String} {k k' : PoolCaller} {e : PoolAction}

/-! ## What a step can do -/

inductive PoolStep (targetSize : Nat) (good : List String) :
    PoolCaller → PoolAction → List String → PoolCaller → Prop
  | chooses {k : PoolCaller} {i : Nat} {proxy : String}
      (hk : k = .choosing ∨ ∃ admitted, k = .choosingAgain admitted)
      (hpick : good[i]? = some proxy) :
      PoolStep targetSize good k (.choose i) good (.gotProxy (some proxy))
  | topsUp {i : Nat} : PoolStep targetSize good .choosing (.choose i) good
      (.looking true ⟨PoolCall.getProxy.attemptsBudget targetSize, 0, 0⟩)
  | givesUp {admitted i : Nat} :
      PoolStep targetSize good (.choosingAgain admitted) (.choose i) good (.gotProxy none)
  | leaves {inGetProxy : Bool} {v : TopUp} :
      PoolStep targetSize good (.looking inGetProxy v) .look good (v.afterLoop inGetProxy)
  | attempts {inGetProxy : Bool} {v : TopUp} (hbudget : v.attempts < v.attemptsBudget) :
      PoolStep targetSize good (.looking inGetProxy v) .look good
        (.scraping inGetProxy { v with attempts := v.attempts + 1 })
  | scraped {inGetProxy : Bool} {v : TopUp} {proxy : String} :
      PoolStep targetSize good (.scraping inGetProxy v) (.scrape (.candidate proxy)) good
        (.admitting inGetProxy v proxy)
  | scrapedNothing {inGetProxy : Bool} {v : TopUp} :
      PoolStep targetSize good (.scraping inGetProxy v) (.scrape .nothing) good
        (.looking inGetProxy v)
  | raises {inGetProxy : Bool} {v : TopUp} :
      PoolStep targetSize good (.scraping inGetProxy v) (.scrape .raises) good .raised
  | admits {inGetProxy : Bool} {v : TopUp} {candidate : String} (hnew : candidate ∉ good)
      (hroom : good.length < targetSize) :
      PoolStep targetSize good (.admitting inGetProxy v candidate) .append (good ++ [candidate])
        (.looking inGetProxy { v with admitted := v.admitted + 1 })
  | refuses {inGetProxy : Bool} {v : TopUp} {candidate : String} :
      PoolStep targetSize good (.admitting inGetProxy v candidate) .append good
        (.looking inGetProxy v)
  | logs {inGetProxy : Bool} {v : TopUp} :
      PoolStep targetSize good (.logging inGetProxy v) .log good (v.returned inGetProxy)
  | evicts {proxy : String} :
      PoolStep targetSize good (.evicting proxy) .evict (good.erase proxy) .reported

theorem poolStep_of_act (h : poolAct targetSize good k e = some (good', k')) :
    PoolStep targetSize good k e good' k' := by
  unfold poolAct at h
  split at h
  · split at h
    · obtain ⟨rfl, rfl⟩ := Prod.mk.inj (Option.some.inj h)
      exact .topsUp
    · obtain ⟨proxy, hpick, heq⟩ := Option.map_eq_some_iff.mp h
      obtain ⟨rfl, rfl⟩ := Prod.mk.inj heq
      exact .chooses (.inl rfl) hpick
  · split at h
    · next hbudget =>
      split at h
      · obtain ⟨rfl, rfl⟩ := Prod.mk.inj (Option.some.inj h)
        exact .leaves
      · obtain ⟨rfl, rfl⟩ := Prod.mk.inj (Option.some.inj h)
        exact .attempts hbudget
    · obtain ⟨rfl, rfl⟩ := Prod.mk.inj (Option.some.inj h)
      exact .leaves
  · obtain ⟨rfl, rfl⟩ := Prod.mk.inj (Option.some.inj h)
    exact .scraped
  · obtain ⟨rfl, rfl⟩ := Prod.mk.inj (Option.some.inj h)
    exact .scrapedNothing
  · obtain ⟨rfl, rfl⟩ := Prod.mk.inj (Option.some.inj h)
    exact .raises
  · split at h
    · next hadmitted =>
      obtain ⟨rfl, rfl⟩ := Prod.mk.inj (Option.some.inj h)
      exact .admits hadmitted.1 hadmitted.2
    · obtain ⟨rfl, rfl⟩ := Prod.mk.inj (Option.some.inj h)
      exact .refuses
  · obtain ⟨rfl, rfl⟩ := Prod.mk.inj (Option.some.inj h)
    exact .logs
  · split at h
    · obtain ⟨rfl, rfl⟩ := Prod.mk.inj (Option.some.inj h)
      exact .givesUp
    · obtain ⟨proxy, hpick, heq⟩ := Option.map_eq_some_iff.mp h
      obtain ⟨rfl, rfl⟩ := Prod.mk.inj heq
      exact .chooses (.inr ⟨_, rfl⟩) hpick
  · next proxy =>
    obtain ⟨rfl, rfl⟩ := Prod.mk.inj (Option.some.inj h)
    have hevicts := @PoolStep.evicts targetSize good proxy
    split
    · exact hevicts
    · next hno => rwa [List.erase_of_not_mem hno] at hevicts
  · cases h

/-! ## What holds in any order of the steps -/

def WellFormed (targetSize : Nat) (good : List String) : Prop :=
  good.Nodup ∧ good.length ≤ targetSize

theorem PoolStep.wellFormed (h : PoolStep targetSize good k e good' k')
    (hgood : WellFormed targetSize good) : WellFormed targetSize good' := by
  cases h with
  | admits hnew hroom =>
      constructor
      · rw [List.nodup_append]
        refine ⟨hgood.1, List.nodup_singleton _, ?_⟩
        intro a ha b hb hab
        rw [List.mem_singleton.mp hb] at hab
        exact hnew (hab ▸ ha)
      · rw [List.length_append, List.length_singleton]
        exact hroom
  | evicts => exact ⟨hgood.1.erase _, Nat.le_trans List.length_erase_le hgood.2⟩
  | _ => exact hgood

/-- The pool grows at its end, or the reported proxy goes. -/
theorem PoolStep.changes (h : PoolStep targetSize good k e good' k') :
    good <+: good' ∨ ∃ proxy, k = .evicting proxy ∧ good' = good.erase proxy := by
  cases h with
  | admits hnew hroom => exact .inl (List.prefix_append _ _)
  | evicts => exact .inr ⟨_, rfl, rfl⟩
  | _ => exact .inl List.prefix_rfl

/-- How many scrapes a call has ahead of it at most. -/
def PoolCaller.scrapesLeft (targetSize : Nat) : PoolCaller → Nat
  | .choosing => targetSize * 4
  | .looking _ v | .admitting _ v _ => (v.attemptsBudget - v.attempts).toNat
  | .scraping _ v => (v.attemptsBudget - v.attempts).toNat + 1
  | _ => 0

theorem TopUp.scrapesLeft_afterLoop {inGetProxy : Bool} {v : TopUp} :
    (v.afterLoop inGetProxy).scrapesLeft targetSize = 0 := by
  unfold TopUp.afterLoop TopUp.returned
  split
  · rfl
  · split <;> rfl

theorem PoolStep.scrapes (h : PoolStep targetSize good k e good' k') :
    countsScrape good e good' + k'.scrapesLeft targetSize ≤ k.scrapesLeft targetSize := by
  cases h with
  | chooses hk hpick =>
      change 0 + 0 ≤ _
      omega
  | topsUp =>
      change 0 + ((targetSize * 4 : Int) - 0).toNat ≤ targetSize * 4
      omega
  | givesUp => exact Nat.le_refl 0
  | leaves =>
      rw [TopUp.scrapesLeft_afterLoop]
      exact Nat.zero_le _
  | attempts hbudget =>
      simp only [countsScrape, PoolCaller.scrapesLeft]
      omega
  | scraped | scrapedNothing =>
      simp only [countsScrape, PoolCaller.scrapesLeft]
      omega
  | raises => exact Nat.le_add_left 1 _
  | admits hnew hroom =>
      simp only [countsScrape, PoolCaller.scrapesLeft]
      omega
  | refuses =>
      simp only [countsScrape, PoolCaller.scrapesLeft]
      omega
  | @logs inGetProxy v =>
      cases inGetProxy <;> exact Nat.le_refl 0
  | evicts => exact Nat.le_refl 0

/-- What the variables of a call say of the members that it has added. -/
def PoolCaller.Counted : PoolCaller → Nat → Prop
  | .choosing, n => n = 0
  | .looking _ v, n | .scraping _ v, n | .admitting _ v _, n | .logging _ v, n => v.admitted = n
  | .choosingAgain admitted, n | .toppedUp admitted, n => admitted = n
  | _, _ => True

theorem TopUp.counted_returned {inGetProxy : Bool} {v : TopUp} :
    (v.returned inGetProxy).Counted v.admitted := by
  cases inGetProxy <;> rfl

theorem TopUp.counted_afterLoop {inGetProxy : Bool} {v : TopUp} :
    (v.afterLoop inGetProxy).Counted v.admitted := by
  unfold TopUp.afterLoop
  split
  · rfl
  · exact TopUp.counted_returned

theorem PoolStep.counted {n : Nat} (h : PoolStep targetSize good k e good' k') (hk : k.Counted n) :
    k'.Counted (n + countsAddition good e good') := by
  have hsame : n + countsAddition good e good = n := by
    rw [countsAddition, Nat.sub_self, Nat.add_zero]
  cases h with
  | chooses | givesUp | raises | evicts => trivial
  | topsUp =>
      rw [hsame]
      exact hk.symm
  | leaves =>
      rw [hsame, ← hk]
      exact TopUp.counted_afterLoop
  | attempts | scraped | scrapedNothing | refuses =>
      rw [hsame]
      exact hk
  | admits hnew hroom =>
      rw [countsAddition, List.length_append, Nat.add_sub_cancel_left]
      exact congrArg (· + 1) hk
  | logs =>
      rw [hsame, ← hk]
      exact TopUp.counted_returned

/-- What the calls find in the pool, and what they leave there. -/
structure PoolKept {τ : Type} [DecidableEq τ] (targetSize : Nat) (calls : τ → PoolCall)
    (es : List (τ × PoolAction)) (s : Sharing τ (List String) PoolCaller) : Prop where
  nodup : s.shared.Nodup
  size : s.shared.length ≤ targetSize
  /-- A call scrapes no more often than its budget says. -/
  scrapes : ∀ t, tally (poolAct targetSize) t countsScrape (openPool targetSize calls) es ≤
    ((calls t).attemptsBudget targetSize).toNat
  /-- A `top_up` returns how many members it has added. -/
  admitted : ∀ t n, (s.caller t).returnsAdmitted = some n →
    n = tally (poolAct targetSize) t countsAddition (openPool targetSize calls) es
  /-- `get_proxy` returns a member of the pool that it has chosen from. -/
  proxy : ∀ t proxy, s.caller t = .gotProxy (some proxy) →
    ∃ before i after m, es = before ++ (t, .choose i) :: after ∧
      exec (turn (poolAct targetSize)) (openPool targetSize calls) before = some m ∧
      m.shared[i]? = some proxy
  /-- A step adds behind the members that are there, or is one of `report_failure`,
  which removes the reported proxy. -/
  changes : ∀ before t e after m m', es = before ++ (t, e) :: after →
    exec (turn (poolAct targetSize)) (openPool targetSize calls) before = some m →
    turn (poolAct targetSize) m (t, e) = some m' →
    m.shared <+: m'.shared ∨
      ∃ proxy, m.caller t = .evicting proxy ∧ m'.shared = m.shared.erase proxy

variable {τ : Type} [DecidableEq τ] {calls : τ → PoolCall} {es : List (τ × PoolAction)}
  {s : Sharing τ (List String) PoolCaller}

theorem scrapesLeft_start (call : PoolCall) :
    (call.start targetSize).scrapesLeft targetSize ≤ (call.attemptsBudget targetSize).toNat := by
  cases call with
  | getProxy =>
      change targetSize * 4 ≤ ((targetSize : Int) * 4).toNat
      omega
  | topUp maxAttempts =>
      simp only [PoolCall.start, PoolCaller.scrapesLeft]
      omega
  | reportFailure proxy => exact Nat.le_refl 0

theorem counted_start (call : PoolCall) : (call.start targetSize).Counted 0 := by
  cases call <;> trivial

theorem start_ne_gotProxy (call : PoolCall) {proxy : Option String} :
    call.start targetSize ≠ .gotProxy proxy := by
  cases call <;> exact PoolCaller.noConfusion

theorem counted_of_returnsAdmitted {n m : Nat} (hk : k.returnsAdmitted = some n)
    (hcounted : k.Counted m) : n = m := by
  cases k with
  | choosingAgain admitted | toppedUp admitted => exact (Option.some.inj hk).symm.trans hcounted
  | _ => cases hk

theorem PoolStep.chosen {proxy : String}
    (h : PoolStep targetSize good k e good' (.gotProxy (some proxy))) :
    ∃ i, e = .choose i ∧ good[i]? = some proxy := by
  generalize hk' : PoolCaller.gotProxy (some proxy) = k' at h
  cases h with
  | chooses hk hpick =>
      cases hk'
      exact ⟨_, rfl, hpick⟩
  | @leaves inGetProxy v =>
      exfalso
      revert hk'
      unfold TopUp.afterLoop TopUp.returned
      split
      · exact PoolCaller.noConfusion
      · split <;> exact PoolCaller.noConfusion
  | @logs inGetProxy v =>
      cases inGetProxy <;> cases hk'
  | _ => cases hk'

theorem proxyPool_kept
    (hrun : exec (turn (poolAct targetSize)) (openPool targetSize calls) es = some s) :
    PoolKept targetSize calls es s := by
  have hgood : WellFormed targetSize s.shared := by
    apply shared_invariant _ _ hrun
    · exact ⟨List.nodup_nil, Nat.zero_le _⟩
    · exact fun _ _ _ _ _ hgood hact => (poolStep_of_act hact).wellFormed hgood
  refine ⟨hgood.1, hgood.2, fun t => ?_, fun t n hreturns => ?_, fun t proxy hproxy => ?_, ?_⟩
  · let J (k : PoolCaller) (n : Nat) : Prop :=
      n + k.scrapesLeft targetSize ≤ ((calls t).attemptsBudget targetSize).toNat
    have hstart : J ((openPool targetSize calls).caller t) 0 := by
      show 0 + _ ≤ _
      rw [Nat.zero_add]
      exact scrapesLeft_start (calls t)
    have hstep : ∀ good k e good' k' n, J k n → poolAct targetSize good k e = some (good', k') →
        J k' (n + countsScrape good e good') := by
      intro good k e good' k' n hle hact
      have hscrapes := (poolStep_of_act hact).scrapes
      show n + _ + _ ≤ _
      calc
        n + countsScrape good e good' + k'.scrapesLeft targetSize
            ≤ n + k.scrapesLeft targetSize := by omega
        _ ≤ _ := hle
    have hleft := tally_invariant hstart hstep hrun
    rw [Nat.zero_add] at hleft
    exact Nat.le_of_add_right_le hleft
  · have hstep : ∀ good k e good' k' n, PoolCaller.Counted k n →
        poolAct targetSize good k e = some (good', k') →
        PoolCaller.Counted k' (n + countsAddition good e good') :=
      fun _ _ _ _ _ _ hk hact => (poolStep_of_act hact).counted hk
    have hcounted := tally_invariant (counted_start (calls t)) hstep hrun
    rw [Nat.zero_add] at hcounted
    exact counted_of_returnsAdmitted hreturns hcounted
  · have hstart : ¬ (openPool targetSize calls).caller t = .gotProxy (some proxy) :=
      start_ne_gotProxy (calls t)
    obtain ⟨before, e, after, m, good, k, rfl, hbefore, hact, -, rfl⟩ :=
      exists_turn (K := (· = .gotProxy (some proxy))) hstart hproxy hrun
    obtain ⟨i, rfl, hpick⟩ := (poolStep_of_act hact).chosen
    exact ⟨before, i, after, m, rfl, hbefore, hpick⟩
  · intro before t e after m m' _ _ hturn
    obtain ⟨good, k, hact, rfl⟩ := turn_eq_some.mp hturn
    exact (poolStep_of_act hact).changes

/-- Both callers find room; the second comes too late with its candidate. -/
theorem proxyPool_kept_full :
    exec (turn (poolAct 1)) (openPool 1 fun _ : Bool => .topUp (some 1))
        [(false, .look), (true, .look), (false, .scrape (.candidate "http://198.51.100.7:80")),
          (true, .scrape (.candidate "http://203.0.113.5:8080")), (false, .append), (true, .append),
          (false, .look), (true, .look), (false, .log)] =
      some ⟨["http://198.51.100.7:80"], fun t => if t then .toppedUp 0 else .toppedUp 1⟩ ∧
    PoolKept 1 (fun _ : Bool => .topUp (some 1))
        [(false, .look), (true, .look), (false, .scrape (.candidate "http://198.51.100.7:80")),
          (true, .scrape (.candidate "http://203.0.113.5:8080")), (false, .append), (true, .append),
          (false, .look), (true, .look), (false, .log)]
      ⟨["http://198.51.100.7:80"], fun t => if t then .toppedUp 0 else .toppedUp 1⟩ := by
  have hrun : exec (turn (poolAct 1)) (openPool 1 fun _ : Bool => .topUp (some 1))
      [(false, .look), (true, .look), (false, .scrape (.candidate "http://198.51.100.7:80")),
        (true, .scrape (.candidate "http://203.0.113.5:8080")), (false, .append), (true, .append),
        (false, .look), (true, .look), (false, .log)] =
      some ⟨["http://198.51.100.7:80"], fun t => if t then .toppedUp 0 else .toppedUp 1⟩ := by
    simp [exec, turn, poolAct, openPool, PoolCall.start, PoolCall.attemptsBudget,
      TopUp.afterLoop, TopUp.returned]
    funext t
    cases t <;> rfl
  exact ⟨hrun, proxyPool_kept hrun⟩

end RecruFlow.Connectors
