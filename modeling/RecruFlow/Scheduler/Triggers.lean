import RecruFlow.Python.Text
import RecruFlow.Python.Value

/-!
# Schedules and triggers

`parse_schedule` falls back to an hourly interval for every schedule that is
missing or malformed. What the trigger constructors of the scheduler library
accept, and when a trigger fires next, are parameters.
-/

namespace RecruFlow.Scheduler

inductive Trigger where
  | interval (seconds : PyValue)
  | cron (expression : String)
  deriving DecidableEq

structure ApScheduler where
  /-- `IntervalTrigger(seconds=...)` raises `OverflowError` for the other numbers. -/
  acceptsInterval : PyValue → Bool
  /-- `CronTrigger.from_crontab` raises `ValueError` for the other texts. -/
  acceptsCrontab : String → Bool
  /-- The fire time that the trigger computes at an instant. -/
  nextFireTime : Trigger → Int → Int

variable (ap : ApScheduler)

def intervalTrigger (seconds : PyValue) : Except PyError Trigger :=
  if ap.acceptsInterval seconds then .ok (.interval seconds) else .error .overflowError

def defaultIntervalSeconds : Int := 3600

def defaultTrigger : Trigger :=
  .interval (.int defaultIntervalSeconds)

def parseInterval (schedule : Dict) : Except PyError (Option Trigger) :=
  match schedule.get "seconds" with
  | some (.int n) => if n ≤ 0 then .ok none else some <$> intervalTrigger ap (.int n)
  | some (.float x) =>
      if x.nonpos then .ok none else some <$> intervalTrigger ap (.float x)
  | _ => .ok none

def parseCron (schedule : Dict) : Option Trigger :=
  match schedule.get "expression" with
  | some (.str expression) =>
      if Python.strip expression = "" then none
      else if ap.acceptsCrontab expression then some (.cron expression) else none
  | _ => none

def parseSchedule (config : Dict) : Except PyError Trigger := do
  match config.get "schedule" with
  | some (.dict schedule) =>
      let trigger ← match Dict.get ⟨schedule⟩ "type" with
        | some (.str "interval") => parseInterval ap ⟨schedule⟩
        | some (.str "cron") => pure (parseCron ap ⟨schedule⟩)
        | _ => pure none
      pure (trigger.getD defaultTrigger)
  | _ => pure defaultTrigger

variable {ap} {config : Dict}

/-- The trigger depends on the schedule alone. -/
theorem parseSchedule_set_ne {key : String} {value : PyValue} (h : key ≠ "schedule") :
    parseSchedule ap (config.set key value) = parseSchedule ap config := by
  rw [parseSchedule, parseSchedule, Dict.get_set, if_neg (Ne.symm h)]

/-- A stored interval is read back as the trigger built from the same number. -/
theorem parseSchedule_interval {seconds : Int} {trigger : Trigger} (hpos : 0 < seconds)
    (h : intervalTrigger ap (.int seconds) = .ok trigger) :
    parseSchedule ap (config.set "schedule"
      (.dict [("type", .str "interval"), ("seconds", .int seconds)])) = .ok trigger := by
  have hinterval : parseInterval ap
      ⟨[("type", .str "interval"), ("seconds", .int seconds)]⟩ = .ok (some trigger) := by
    have hget : Dict.get ⟨[("type", .str "interval"), ("seconds", .int seconds)]⟩ "seconds" =
        some (.int seconds) := rfl
    rw [parseInterval, hget]
    simp only [Int.not_le.mpr hpos, if_false, h]
    rfl
  have htype : Dict.get ⟨[("type", .str "interval"), ("seconds", .int seconds)]⟩ "type" =
      some (.str "interval") := rfl
  rw [parseSchedule, Dict.get_set, if_pos rfl]
  simp only [htype, hinterval]
  rfl

end RecruFlow.Scheduler
