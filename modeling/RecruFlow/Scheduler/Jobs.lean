import RecruFlow.Lib.KeyedStore
import RecruFlow.Scheduler.Settings
import RecruFlow.Scheduler.Triggers

/-!
# The live jobs of the sources

The scheduler keeps one job for each source with a connector. A paused job is
one without a next run time.
-/

namespace RecruFlow.Scheduler

open Db Lib.KeyedStore

structure Job where
  trigger : Trigger
  nextRunTime : Option Int
  /-- The keyword arguments of `run_source_sync`. -/
  connector : String
  triggerType : String
  deriving DecidableEq

def Job.paused (job : Job) : Bool :=
  job.nextRunTime.isNone

abbrev Jobs := String → Option Job

section ApSchedulerOperations

variable (ap : ApScheduler) (now : Int)

/-- `add_job(..., replace_existing=True)`. -/
def addJob (jobId : String) (trigger : Trigger) (connector triggerType : String)
    (jobs : Jobs) : Jobs :=
  Function.update jobs jobId
    (some ⟨trigger, some (ap.nextFireTime trigger now), connector, triggerType⟩)

def Job.pause (job : Job) : Job :=
  { job with nextRunTime := none }

def Job.resume (job : Job) : Job :=
  { job with nextRunTime := some (ap.nextFireTime job.trigger now) }

def Job.reschedule (trigger : Trigger) (job : Job) : Job :=
  { job with trigger := trigger, nextRunTime := some (ap.nextFireTime trigger now) }

def pauseJob (jobId : String) : Jobs → Except PyError Jobs :=
  modify .jobLookup jobId Job.pause

def resumeJob (jobId : String) : Jobs → Except PyError Jobs :=
  modify .jobLookup jobId (Job.resume ap now)

def rescheduleJob (jobId : String) (trigger : Trigger) : Jobs → Except PyError Jobs :=
  modify .jobLookup jobId (Job.reschedule ap now trigger)

end ApSchedulerOperations

def buildJobId (connector : String) : String :=
  "scheduler:" ++ connector

theorem buildJobId_injective : Function.Injective buildJobId := by
  intro a b h
  exact String.append_right_inj "scheduler:" |>.mp h

def connectorShouldAutoRun (config : Dict) : Bool :=
  (config.getD "connector_enabled" (.bool true)).truthy &&
    (config.getD "auto_fetch_enabled" (.bool true)).truthy

variable (ap : ApScheduler) (now : Int)

/-- `apply_auto_run_toggle`, without the status that it reports. -/
def applyAutoRunToggle (source : Source) (jobs : Jobs) : Except PyError Jobs :=
  match source.connector with
  | none => .error .assertionError
  | some connector =>
      if connectorShouldAutoRun source.configJson then
        resumeJob ap now (buildJobId connector) jobs
      else pauseJob (buildJobId connector) jobs

def registerJob (source : Source) (jobs : Jobs) : Except PyError Jobs :=
  match source.connector with
  | none => .error .assertionError
  | some connector => do
      let trigger ← parseSchedule ap source.configJson
      let jobId := buildJobId connector
      let jobs := addJob ap now jobId trigger connector "automatic" jobs
      if connectorShouldAutoRun source.configJson then pure jobs else pauseJob jobId jobs

/-- The jobs after start-up, and how many were registered. -/
def registerJobs (sources : List Source) (jobs : Jobs) : Except PyError (Nat × Jobs) := do
  let jobs ← (connectedSources sources).foldlM (fun jobs source => registerJob ap now source jobs)
    jobs
  pure ((connectedSources sources).length, jobs)

section Lemmas

variable {ap now} {source : Source} {connector : String} {jobs jobs' : Jobs}

theorem applyAutoRunToggle_eq (h : source.connector = some connector) :
    applyAutoRunToggle ap now source jobs = modify .jobLookup (buildJobId connector)
      (if connectorShouldAutoRun source.configJson then Job.resume ap now else Job.pause) jobs := by
  rw [applyAutoRunToggle, h]
  by_cases hrun : connectorShouldAutoRun source.configJson = true
  · simp [hrun, resumeJob]
  · simp [hrun, pauseJob]

/-- A registered job has the trigger of the stored schedule, and is paused
unless the source should run by itself. -/
theorem registerJob_ok (h : registerJob ap now source jobs = .ok jobs') :
    ∃ connector trigger, source.connector = some connector ∧
      parseSchedule ap source.configJson = .ok trigger ∧
      jobs' = Function.update jobs (buildJobId connector) (some
        { trigger := trigger
          nextRunTime := if connectorShouldAutoRun source.configJson
            then some (ap.nextFireTime trigger now) else none
          connector := connector
          triggerType := "automatic" }) := by
  unfold registerJob at h
  split at h
  · cases h
  · next connector hconnector =>
    cases htrigger : parseSchedule ap source.configJson with
    | error e => simp [htrigger, bind, Except.bind] at h
    | ok trigger =>
        refine ⟨connector, trigger, hconnector, rfl, ?_⟩
        simp only [htrigger, bind, Except.bind] at h
        split at h
        · next hrun => simp only [← Except.ok.inj h, addJob, hrun, if_true]
        · next hrun =>
          obtain ⟨job, hjob, rfl⟩ := modify_ok h
          rw [addJob, Function.update_self, Option.some.injEq] at hjob
          rw [← hjob, addJob, Function.update_idem]
          simp [hrun, Job.pause]

end Lemmas

end RecruFlow.Scheduler
