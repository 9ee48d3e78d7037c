import Mathlib.Data.List.Infix
import RecruFlow.Lib.Trace

/-!
# Row locks, and a call that holds one

A session works through transactions. Each locks a row; it may then call another
session, and waits until that has committed. A lock is held until its session
commits, and a session that wants a lock of the other one waits.
-/

namespace RecruFlow.Lib.RowLocks

open Lib.Trace

variable {κ : Type*}

/-- A transaction of the caller: the row that it locks, and the rows that its callee
locks, if it makes a call. -/
structure Job (κ : Type*) where
  own : κ
  call : Option (List κ)

inductive Action (κ : Type*) where
  | lock (k : κ)
  | call (keys : List κ)
  | wait
  | commit

def Job.actions (job : Job κ) : List (Action κ) :=
  .lock job.own :: match job.call with
    | none => [.commit]
    | some keys => [.call keys, .wait, .commit]

structure Sessions (κ : Type*) where
  caller : List (Action κ)
  callerHolds : List κ
  /-- The locks that a running callee has still to take. -/
  callee : Option (List κ)
  calleeHolds : List κ

def start (jobs : List (Job κ)) : Sessions κ :=
  ⟨jobs.flatMap Job.actions, [], none, []⟩

/-- Which of the two sessions goes on. -/
inductive Turn where
  | caller
  | callee

def step [DecidableEq κ] (s : Sessions κ) : Turn → Option (Sessions κ)
  | .caller => match s.caller with
      | [] => none
      | .lock k :: rest =>
          if k ∈ s.calleeHolds then none
          else some { s with caller := rest, callerHolds := k :: s.callerHolds }
      | .call keys :: rest => some { s with caller := rest, callee := some keys }
      | .wait :: rest => if s.callee.isSome then none else some { s with caller := rest }
      | .commit :: rest => some { s with caller := rest, callerHolds := [] }
  | .callee => match s.callee with
      | none => none
      | some [] => some { s with callee := none, calleeHolds := [] }
      | some (k :: keys) =>
          if k ∈ s.callerHolds then none
          else some { s with callee := some keys, calleeHolds := k :: s.calleeHolds }

/-- The caller holds a lock while it waits for the callee to return, and the callee
waits for that lock. -/
def Deadlocked (k : κ) (s : Sessions κ) : Prop :=
  (∃ rest, s.caller = .wait :: rest) ∧ k ∈ s.callerHolds ∧ ∃ keys, s.callee = some (k :: keys)

section

variable [DecidableEq κ] {s t : Sessions κ} {job : Job κ} {jobs rest : List (Job κ)}
  {keys : List κ} {k : κ}

/-- Neither session can go on from a deadlock. -/
theorem Deadlocked.stuck (h : Deadlocked k s) (turn : Turn) : step s turn = none := by
  obtain ⟨⟨rest, hcaller⟩, hheld, keys, hcallee⟩ := h
  cases turn with
  | caller => simp [step, hcaller, hcallee]
  | callee => simp [step, hcallee, hheld]

/-- Where the two sessions are in the jobs. -/
inductive Phase (jobs : List (Job κ)) : Sessions κ → Prop where
  | idle {rest : List (Job κ)} (hrest : rest ⊆ jobs) : Phase jobs (start rest)
  | locked {job : Job κ} {rest : List (Job κ)} (hjob : job ∈ jobs) (hrest : rest ⊆ jobs) :
      Phase jobs ⟨job.actions.tail ++ rest.flatMap Job.actions, [job.own], none, []⟩
  | called {job : Job κ} {rest : List (Job κ)} {keys left holds : List κ} (hjob : job ∈ jobs)
      (hrest : rest ⊆ jobs) (hcall : job.call = some keys) (hleft : left <:+ keys) :
      Phase jobs ⟨.wait :: .commit :: rest.flatMap Job.actions, [job.own], some left, holds⟩
  | returned {job : Job κ} {rest : List (Job κ)} (hjob : job ∈ jobs) (hrest : rest ⊆ jobs) :
      Phase jobs ⟨.wait :: .commit :: rest.flatMap Job.actions, [job.own], none, []⟩
  | ending {job : Job κ} {rest : List (Job κ)} (hjob : job ∈ jobs) (hrest : rest ⊆ jobs) :
      Phase jobs ⟨.commit :: rest.flatMap Job.actions, [job.own], none, []⟩

theorem Phase.step (turn : Turn) (h : Phase jobs s) (hstep : RowLocks.step s turn = some t) :
    Phase jobs t := by
  cases h with
  | idle hrest =>
      rename_i rest
      cases turn with
      | callee => cases hstep
      | caller =>
          cases rest with
          | nil => cases hstep
          | cons job rest =>
              have ht : t = ⟨job.actions.tail ++ rest.flatMap Job.actions, [job.own], none, []⟩ :=
                (Option.some.inj hstep).symm
              rw [ht]
              exact .locked (hrest List.mem_cons_self) fun j hj => hrest (List.mem_cons_of_mem job hj)
  | locked hjob hrest =>
      rename_i job rest
      cases turn with
      | callee => cases hstep
      | caller =>
          obtain ⟨own, call⟩ := job
          cases call with
          | none =>
              have ht : t = start rest := (Option.some.inj hstep).symm
              rw [ht]
              exact .idle hrest
          | some keys =>
              have ht : t = ⟨.wait :: .commit :: rest.flatMap Job.actions, [own], some keys, []⟩ :=
                (Option.some.inj hstep).symm
              rw [ht]
              exact .called hjob hrest rfl (List.suffix_refl keys)
  | called hjob hrest hcall hleft =>
      rename_i job rest keys left holds
      cases turn with
      | caller => cases hstep
      | callee =>
          cases left with
          | nil =>
              rw [← Option.some.inj hstep]
              exact .returned hjob hrest
          | cons k left =>
              dsimp only [RowLocks.step] at hstep
              split at hstep
              · cases hstep
              · rw [← Option.some.inj hstep]
                exact .called hjob hrest hcall ((List.suffix_cons k left).trans hleft)
  | returned hjob hrest =>
      cases turn with
      | callee => cases hstep
      | caller =>
          rw [← Option.some.inj hstep]
          exact .ending hjob hrest
  | ending hjob hrest =>
      cases turn with
      | callee => cases hstep
      | caller =>
          have ht : t = start _ := (Option.some.inj hstep).symm
          rw [ht]
          exact .idle hrest

omit [DecidableEq κ] in
/-- A deadlock is one of a job whose callee wants its row. -/
theorem Phase.deadlocked (h : Phase jobs s) (hdeadlocked : Deadlocked k s) :
    ∃ job ∈ jobs, job.own = k ∧ ∃ keys, job.call = some keys ∧ k ∈ keys := by
  obtain ⟨⟨after, hcaller⟩, hheld, left', hcallee⟩ := hdeadlocked
  cases h with
  | called hjob hrest hcall hleft =>
      have hown : k = _ := List.mem_singleton.mp hheld
      refine ⟨_, hjob, hown.symm, _, hcall, hleft.subset ?_⟩
      rw [Option.some.inj hcallee]
      exact List.mem_cons_self
  | idle hrest => cases hcallee
  | locked hjob hrest => cases hcallee
  | returned hjob hrest => cases hcallee
  | ending hjob hrest => cases hcallee

/-- The callee takes its locks up to one that the caller holds, or returns. -/
theorem callee_goes_on (caller : List (Action κ)) {own : κ} (holds : List κ) :
    (own ∈ keys → ∃ turns left holds',
      exec step ⟨caller, [own], some keys, holds⟩ turns =
        some ⟨caller, [own], some (own :: left), holds'⟩) ∧
      (own ∉ keys → ∃ turns,
        exec step ⟨caller, [own], some keys, holds⟩ turns = some ⟨caller, [own], none, []⟩) := by
  induction keys generalizing holds with
  | nil => exact ⟨nofun, fun _ => ⟨[.callee], rfl⟩⟩
  | cons k keys ih =>
      by_cases hk : k = own
      · subst hk
        exact ⟨fun _ => ⟨[], keys, holds, rfl⟩, fun h => absurd List.mem_cons_self h⟩
      · have hstep : step ⟨caller, [own], some (k :: keys), holds⟩ .callee =
            some ⟨caller, [own], some keys, k :: holds⟩ := by simp [step, hk]
        obtain ⟨hwaits, hreturns⟩ := ih (k :: holds)
        constructor
        · intro hmem
          have hlater : own ∈ keys := (List.mem_cons.mp hmem).resolve_left (Ne.symm hk)
          obtain ⟨turns, left, holds', hexec⟩ := hwaits hlater
          exact ⟨.callee :: turns, left, holds', exec_cons_some.mpr ⟨_, hstep, hexec⟩⟩
        · intro hnot
          obtain ⟨turns, hexec⟩ := hreturns fun hlater => hnot (List.mem_cons_of_mem k hlater)
          exact ⟨.callee :: turns, exec_cons_some.mpr ⟨_, hstep, hexec⟩⟩

/-- The caller locks the row of a job and makes its call. -/
theorem job_calls {own : κ} : exec step (start (⟨own, some keys⟩ :: rest)) [.caller, .caller] =
    some ⟨.wait :: .commit :: rest.flatMap Job.actions, [own], some keys, []⟩ := rfl

/-- A job whose callee leaves its row alone comes to its commit. -/
theorem job_commits (rest : List (Job κ)) (h : ∀ keys, job.call = some keys → job.own ∉ keys) :
    ∃ turns, exec step (start (job :: rest)) turns = some (start rest) := by
  obtain ⟨own, call⟩ := job
  cases call with
  | none => exact ⟨[.caller, .caller], rfl⟩
  | some keys =>
      obtain ⟨turns, hexec⟩ :=
        (callee_goes_on (.wait :: .commit :: rest.flatMap Job.actions) []).2 (h keys rfl)
      refine ⟨[.caller, .caller] ++ (turns ++ [.caller, .caller]), ?_⟩
      rw [exec_append, job_calls, Option.bind_some, exec_append, hexec]
      rfl

/-- A job whose callee wants its row comes to a deadlock. -/
theorem job_deadlocks (rest : List (Job κ)) (hcall : job.call = some keys) (hmem : job.own ∈ keys) :
    ∃ turns s, exec step (start (job :: rest)) turns = some s ∧ Deadlocked job.own s := by
  obtain ⟨own, call⟩ := job
  obtain rfl : call = some keys := hcall
  obtain ⟨turns, left, holds, hexec⟩ :=
    (callee_goes_on (.wait :: .commit :: rest.flatMap Job.actions) []).1 hmem
  have hreach : exec step (start (⟨own, some keys⟩ :: rest)) ([.caller, .caller] ++ turns) =
      some ⟨.wait :: .commit :: rest.flatMap Job.actions, [own], some (own :: left), holds⟩ := by
    rw [exec_append, job_calls]
    exact hexec
  exact ⟨_, _, hreach, ⟨_, rfl⟩, List.mem_singleton_self _, left, rfl⟩

/-- A deadlock can be reached exactly when some callee wants the row of its job. -/
theorem deadlock_reachable_iff :
    (∃ turns s k, exec step (start jobs) turns = some s ∧ Deadlocked k s) ↔
      ∃ job ∈ jobs, ∃ keys, job.call = some keys ∧ job.own ∈ keys := by
  constructor
  · rintro ⟨turns, s, k, hexec, hdeadlocked⟩
    have hphase : Phase jobs s :=
      invariant (fun _ turn _ hphase hstep => Phase.step turn hphase hstep)
        (.idle (List.Subset.refl jobs)) (.last hexec)
    obtain ⟨job, hjob, rfl, keys, hcall, hmem⟩ := hphase.deadlocked hdeadlocked
    exact ⟨job, hjob, keys, hcall, hmem⟩
  · rintro ⟨job, hjob, keys, hcall, hmem⟩
    induction jobs with
    | nil => cases hjob
    | cons first rest ih =>
        by_cases hfirst : ∃ keys, first.call = some keys ∧ first.own ∈ keys
        · obtain ⟨keys, hcall, hmem⟩ := hfirst
          obtain ⟨turns, s, hexec, hdeadlocked⟩ := job_deadlocks rest hcall hmem
          exact ⟨turns, s, _, hexec, hdeadlocked⟩
        · have hlater : job ∈ rest := by
            rcases List.mem_cons.mp hjob with rfl | hlater
            · exact absurd ⟨keys, hcall, hmem⟩ hfirst
            · exact hlater
          obtain ⟨before, hbefore⟩ := job_commits rest
            fun keys hcall hmem => hfirst ⟨keys, hcall, hmem⟩
          obtain ⟨turns, s, k, hexec, hdeadlocked⟩ := ih hlater
          refine ⟨before ++ turns, s, k, ?_, hdeadlocked⟩
          rw [exec_append, hbefore]
          exact hexec

end

end RecruFlow.Lib.RowLocks
