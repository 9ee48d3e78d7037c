import RecruFlow.Scheduler.Routes

/-!
# Schedules that keep the scheduler from starting

At start-up the stored configurations are read as they are, whatever JSON value
the column holds. A schedule that is malformed falls back to the default one,
but an interval that the trigger refuses does not.
-/

namespace RecruFlow.Scheduler

open Db Lib.KeyedStore

/-- A row of `sources`, with any JSON value as its configuration. -/
structure StoredSource where
  connector : Option String
  configJson : PyValue

def storedSource (source : Source) : StoredSource :=
  ⟨source.connector, .dict source.configJson.items⟩

section Definitions

variable (ap : ApScheduler) (now : Int)

/-- `parse_schedule` of a column. -/
def parseStoredSchedule : PyValue → Except PyError Trigger
  | .dict items => parseSchedule ap ⟨items⟩
  | _ => pure defaultTrigger

/-- `connector_should_auto_run(config_json or {})` -/
def storedShouldAutoRun (config : PyValue) : Except PyError Bool :=
  match if config.truthy then config else .dict [] with
  | .dict items => .ok (connectorShouldAutoRun ⟨items⟩)
  | _ => .error .attributeError

/-- The body of the loop of `register_jobs`. -/
def registerStoredJob (source : StoredSource) (jobs : Jobs) : Except PyError Jobs :=
  match source.connector with
  | none => .error .assertionError
  | some connector => do
      let trigger ← parseStoredSchedule ap source.configJson
      let jobId := buildJobId connector
      let jobs := addJob ap now jobId trigger connector "automatic" jobs
      let autoRun ← storedShouldAutoRun source.configJson
      if autoRun then pure jobs else pauseJob jobId jobs

def connectedStored (sources : List StoredSource) : List StoredSource :=
  sources.filter (·.connector.isSome)

def registerStoredJobs (sources : List StoredSource) (jobs : Jobs) :
    Except PyError (Nat × Jobs) := do
  let jobs ← (connectedStored sources).foldlM
    (fun jobs source => registerStoredJob ap now source jobs) jobs
  pure ((connectedStored sources).length, jobs)

/-- A number of seconds that is read as an interval, which the trigger refuses. -/
def RefusedSeconds : PyValue → Prop
  | .int n => 0 < n ∧ ap.acceptsInterval (.int n) = false
  | .float x => x.nonpos = false ∧ ap.acceptsInterval (.float x) = false
  | _ => False

/-- A configuration with an interval schedule that the trigger refuses. -/
def RefusedSchedule (config : PyValue) : Prop :=
  ∃ items schedule seconds, config = .dict items ∧
    Dict.get ⟨items⟩ "schedule" = some (.dict schedule) ∧
    Dict.get ⟨schedule⟩ "type" = some (.str "interval") ∧
    Dict.get ⟨schedule⟩ "seconds" = some seconds ∧ RefusedSeconds ap seconds

/-- Start-up reads a configuration that is not empty as a dictionary. -/
def Readable (config : PyValue) : Prop :=
  config.truthy = true → ∃ items, config = .dict items

/-- The job of a connector is there. -/
def HasJob (jobs : Jobs) (connector : String) : Prop :=
  ∃ job ∈ jobs (buildJobId connector),
    job.connector = connector ∧ job.triggerType = "automatic"

/-- Every schedule is parsed and every connected source has its job. -/
structure Boots (sources : List StoredSource) (jobs : Jobs) : Prop where
  parses : ∀ source ∈ connectedStored sources,
    ∃ trigger, parseStoredSchedule ap source.configJson = .ok trigger
  registers : ∃ jobs', registerStoredJobs ap now sources jobs =
      .ok ((connectedStored sources).length, jobs') ∧
    ∀ source ∈ sources, ∀ connector ∈ source.connector, HasJob jobs' connector

end Definitions

variable {ap : ApScheduler} {now : Int} {config : PyValue} {source : StoredSource}
  {sources : List StoredSource} {jobs jobs' : Jobs}

theorem storedShouldAutoRun_dict (items : List (String × PyValue)) :
    storedShouldAutoRun (.dict items) = .ok (connectorShouldAutoRun ⟨items⟩) := by
  cases items <;> rfl

/-- For the sources as the application writes them this is `register_jobs`. -/
theorem registerStoredJobs_stored (rows : List Source) :
    registerStoredJobs ap now (rows.map storedSource) jobs = registerJobs ap now rows jobs := by
  have hconnected : connectedStored (rows.map storedSource) =
      (connectedSources rows).map storedSource := by
    rw [connectedStored, List.filter_map]
    rfl
  have hjob : ∀ (row : Source) (jobs : Jobs),
      registerStoredJob ap now (storedSource row) jobs = registerJob ap now row jobs := by
    intro row jobs
    unfold registerStoredJob registerJob storedSource
    cases row.connector with
    | none => rfl
    | some connector =>
      simp only [storedShouldAutoRun_dict, parseStoredSchedule]
      rfl
  rw [registerStoredJobs, registerJobs, hconnected, List.foldlM_map, List.length_map]
  simp only [hjob]

section Parsing

theorem intervalTrigger_ok_iff {seconds : PyValue} :
    (∃ trigger, some <$> intervalTrigger ap seconds = .ok trigger) ↔
      ap.acceptsInterval seconds = true := by
  unfold intervalTrigger
  constructor
  · intro h
    obtain ⟨trigger, h⟩ := h
    by_contra hrefused
    rw [if_neg hrefused] at h
    cases h
  · intro haccepts
    rw [if_pos haccepts]
    exact ⟨_, rfl⟩

/-- Only a number that the trigger refuses makes `_parse_interval` raise. -/
theorem parseInterval_ok_iff {schedule : Dict} :
    (∃ trigger, parseInterval ap schedule = .ok trigger) ↔
      ∀ seconds ∈ schedule.get "seconds", ¬ RefusedSeconds ap seconds := by
  unfold parseInterval
  split
  · next n hget =>
    simp only [hget, Option.mem_def, Option.some.injEq, forall_eq', RefusedSeconds, not_and,
      Bool.not_eq_false]
    by_cases hn : n ≤ 0
    · simp [hn]
    · simp only [hn, if_false, intervalTrigger_ok_iff, Int.not_le.mp hn, forall_const]
  · next x hget =>
    simp only [hget, Option.mem_def, Option.some.injEq, forall_eq', RefusedSeconds, not_and,
      Bool.not_eq_false]
    cases hx : x.nonpos with
    | true => simp
    | false => simp only [Bool.false_eq_true, if_false, intervalTrigger_ok_iff, forall_const]
  · next hint hfloat =>
    refine ⟨fun _ seconds hseconds hrefused => ?_, fun _ => ⟨none, rfl⟩⟩
    cases seconds with
    | int n => exact hint n hseconds
    | float x => exact hfloat x hseconds
    | _ => exact hrefused

theorem parseSchedule_ok_iff {config : Dict} :
    (∃ trigger, parseSchedule ap config = .ok trigger) ↔
      ∀ schedule, config.get "schedule" = some (.dict schedule) →
        Dict.get ⟨schedule⟩ "type" = some (.str "interval") →
        ∀ seconds ∈ Dict.get ⟨schedule⟩ "seconds", ¬ RefusedSeconds ap seconds := by
  unfold parseSchedule
  split
  · next schedule hschedule =>
    rw [hschedule]
    have hread : (∀ other, some (PyValue.dict schedule) = some (.dict other) →
        Dict.get ⟨other⟩ "type" = some (.str "interval") →
        ∀ seconds ∈ Dict.get ⟨other⟩ "seconds", ¬ RefusedSeconds ap seconds) ↔
        (Dict.get ⟨schedule⟩ "type" = some (.str "interval") →
          ∃ trigger, parseInterval ap ⟨schedule⟩ = .ok trigger) := by
      rw [parseInterval_ok_iff]
      constructor
      · exact fun h => h schedule rfl
      · intro h other hother
        obtain rfl := PyValue.dict.inj (Option.some.inj hother)
        exact h
    rw [hread]
    split
    · next htype =>
      simp only [htype, forall_const]
      constructor
      · intro h
        obtain ⟨trigger, h⟩ := h
        obtain ⟨parsed, hparsed, -⟩ := bind_ok h
        exact ⟨parsed, hparsed⟩
      · intro h
        obtain ⟨parsed, hparsed⟩ := h
        rw [hparsed]
        exact ⟨_, rfl⟩
    · next htype =>
      exact ⟨fun _ hinterval => absurd (htype.symm.trans hinterval) (by decide), fun _ => ⟨_, rfl⟩⟩
    · next htype hcron => exact ⟨fun _ hinterval => absurd hinterval htype, fun _ => ⟨_, rfl⟩⟩
  · next hnone =>
    exact ⟨fun _ schedule hschedule => absurd hschedule (hnone schedule), fun _ => ⟨_, rfl⟩⟩

/-- A stored schedule is parsed unless its interval is refused. -/
theorem parseStoredSchedule_ok_iff :
    (∃ trigger, parseStoredSchedule ap config = .ok trigger) ↔ ¬ RefusedSchedule ap config := by
  unfold RefusedSchedule
  cases config with
  | dict items =>
    rw [parseStoredSchedule, parseSchedule_ok_iff]
    constructor
    · intro h hrefused
      obtain ⟨items', schedule, seconds, hitems, hschedule, htype, hseconds, hrefused⟩ := hrefused
      obtain rfl := PyValue.dict.inj hitems
      exact h schedule hschedule htype seconds hseconds hrefused
    · intro h schedule hschedule htype seconds hseconds hrefused
      exact h ⟨items, schedule, seconds, rfl, hschedule, htype, hseconds, hrefused⟩
  | _ =>
    refine ⟨fun _ hrefused => ?_, fun _ => ⟨defaultTrigger, rfl⟩⟩
    obtain ⟨items, schedule, seconds, hitems, -⟩ := hrefused
    cases hitems

theorem storedShouldAutoRun_ok_iff :
    (∃ autoRun, storedShouldAutoRun config = .ok autoRun) ↔ Readable config := by
  unfold storedShouldAutoRun Readable
  constructor
  · intro h htruthy
    obtain ⟨autoRun, h⟩ := h
    rw [if_pos htruthy] at h
    split at h
    · next items => exact ⟨items, rfl⟩
    · cases h
  · intro h
    split
    · exact ⟨_, rfl⟩
    · next hne =>
      split at hne
      · next htruthy =>
        obtain ⟨items, rfl⟩ := h htruthy
        exact absurd rfl (hne items)
      · exact absurd rfl (hne [])

end Parsing

section Registering

variable {connector : String}

/-- A source that is registered adds its job to those that are there. -/
theorem registerStoredJob_of (hconnector : source.connector = some connector)
    {trigger : Trigger} (htrigger : parseStoredSchedule ap source.configJson = .ok trigger)
    {autoRun : Bool} (hrun : storedShouldAutoRun source.configJson = .ok autoRun) :
    ∃ job, registerStoredJob ap now source jobs =
        .ok (Function.update jobs (buildJobId connector) (some job)) ∧
      job.connector = connector ∧ job.triggerType = "automatic" := by
  unfold registerStoredJob
  simp only [hconnector, htrigger, hrun, bind, Except.bind]
  cases autoRun with
  | true => exact ⟨_, rfl, rfl, rfl⟩
  | false =>
    refine ⟨Job.pause ⟨trigger, some (ap.nextFireTime trigger now), connector, "automatic"⟩,
      (modify_of_some (by rw [addJob, Function.update_self])).trans ?_, rfl, rfl⟩
    rw [addJob, Function.update_idem]

theorem registerStoredJob_ok (hconnector : source.connector = some connector)
    (h : registerStoredJob ap now source jobs = .ok jobs') :
    (∃ trigger, parseStoredSchedule ap source.configJson = .ok trigger) ∧
      ∃ autoRun, storedShouldAutoRun source.configJson = .ok autoRun := by
  unfold registerStoredJob at h
  rw [hconnector] at h
  obtain ⟨trigger, htrigger, h⟩ := bind_ok h
  obtain ⟨autoRun, hrun, -⟩ := bind_ok h
  exact ⟨⟨trigger, htrigger⟩, autoRun, hrun⟩

theorem HasJob.update {other : String} {job : Job} (h : HasJob jobs connector)
    (hjob : job.connector = other ∧ job.triggerType = "automatic") :
    HasJob (Function.update jobs (buildJobId other) (some job)) connector := by
  obtain ⟨old, hold, hgood⟩ := h
  by_cases hsame : connector = other
  · subst hsame
    exact ⟨job, by rw [Function.update_self]; rfl, hjob⟩
  · refine ⟨old, ?_, hgood⟩
    rw [Function.update_of_ne fun hid => hsame (buildJobId_injective hid)]
    exact hold

/-- Start-up goes through all sources if each of them can be registered. -/
theorem registerAll_of (hall : ∀ source ∈ sources, source.connector.isSome ∧
      (∃ trigger, parseStoredSchedule ap source.configJson = .ok trigger) ∧
      ∃ autoRun, storedShouldAutoRun source.configJson = .ok autoRun) :
    ∃ jobs', sources.foldlM (fun jobs source => registerStoredJob ap now source jobs) jobs =
        .ok jobs' ∧
      (∀ source ∈ sources, ∀ connector ∈ source.connector, HasJob jobs' connector) ∧
      ∀ connector, HasJob jobs connector → HasJob jobs' connector := by
  induction sources generalizing jobs with
  | nil => exact ⟨jobs, rfl, fun source hsource => absurd hsource List.not_mem_nil, fun _ h => h⟩
  | cons source sources ih =>
    obtain ⟨hsome, ⟨trigger, htrigger⟩, autoRun, hrun⟩ := hall source List.mem_cons_self
    obtain ⟨connector, hconnector⟩ := Option.isSome_iff_exists.mp hsome
    obtain ⟨job, hregister, hjob⟩ :=
      @registerStoredJob_of ap now source jobs connector hconnector trigger htrigger autoRun hrun
    obtain ⟨jobs', hrest, hsources, hkept⟩ :=
      @ih (Function.update jobs (buildJobId connector) (some job))
        fun other hother => hall other (.tail _ hother)
    refine ⟨jobs', ?_, ?_, fun other hother => hkept other (hother.update hjob)⟩
    · rw [List.foldlM_cons, hregister]
      exact hrest
    · intro other hother connector' hconnector'
      rcases List.mem_cons.mp hother with rfl | hother
      · obtain rfl := Option.mem_unique hconnector hconnector'
        exact hkept connector ⟨job, by rw [Function.update_self]; rfl, hjob⟩
      · exact hsources other hother connector' hconnector'

/-- It raises at the first source that cannot be registered. -/
theorem registerAll_ok (hsome : ∀ source ∈ sources, source.connector.isSome)
    (h : sources.foldlM (fun jobs source => registerStoredJob ap now source jobs) jobs =
      .ok jobs') :
    ∀ source ∈ sources,
      (∃ trigger, parseStoredSchedule ap source.configJson = .ok trigger) ∧
      ∃ autoRun, storedShouldAutoRun source.configJson = .ok autoRun := by
  induction sources generalizing jobs with
  | nil => exact fun source hsource => absurd hsource List.not_mem_nil
  | cons source sources ih =>
    rw [List.foldlM_cons] at h
    obtain ⟨jobs₁, hregister, hrest⟩ := bind_ok h
    obtain ⟨connector, hconnector⟩ :=
      Option.isSome_iff_exists.mp (hsome source List.mem_cons_self)
    intro other hother
    rcases List.mem_cons.mp hother with rfl | hother
    · exact registerStoredJob_ok hconnector hregister
    · exact ih (fun s hs => hsome s (.tail _ hs)) hrest other hother

end Registering

/-- Start-up registers all sources exactly if no connected source has an
interval that the trigger refuses, or a value that is no dictionary. -/
theorem boots_iff (ap : ApScheduler) (now : Int) (sources : List StoredSource) (jobs : Jobs) :
    Boots ap now sources jobs ↔ ∀ source ∈ sources, source.connector ≠ none →
      ¬ RefusedSchedule ap source.configJson ∧ Readable source.configJson := by
  have hconnected : ∀ source, source ∈ connectedStored sources ↔
      source ∈ sources ∧ source.connector ≠ none := fun source => by
    rw [connectedStored, List.mem_filter, Option.isSome_iff_ne_none]
  have hsome : ∀ source ∈ connectedStored sources, source.connector.isSome :=
    fun source hsource => (List.mem_filter.mp hsource).2
  constructor
  · intro h source hsource hne
    obtain ⟨jobs', hregister, -⟩ := h.registers
    obtain ⟨jobs'', hfold, -⟩ := bind_ok hregister
    have hok := registerAll_ok hsome hfold source ((hconnected source).mpr ⟨hsource, hne⟩)
    exact ⟨parseStoredSchedule_ok_iff.mp hok.1, storedShouldAutoRun_ok_iff.mp hok.2⟩
  · intro h
    have hall : ∀ source ∈ connectedStored sources, source.connector.isSome ∧
        (∃ trigger, parseStoredSchedule ap source.configJson = .ok trigger) ∧
        ∃ autoRun, storedShouldAutoRun source.configJson = .ok autoRun := by
      intro source hsource
      obtain ⟨hmem, hne⟩ := (hconnected source).mp hsource
      obtain ⟨hschedule, hreadable⟩ := h source hmem hne
      exact ⟨hsome source hsource, parseStoredSchedule_ok_iff.mpr hschedule,
        storedShouldAutoRun_ok_iff.mpr hreadable⟩
    refine ⟨fun source hsource => (hall source hsource).2.1, ?_⟩
    obtain ⟨jobs', hfold, hjobs, -⟩ := @registerAll_of ap now _ jobs hall
    refine ⟨jobs', ?_, fun source hsource connector hconnector => ?_⟩
    · rw [registerStoredJobs, hfold]
      rfl
    · refine hjobs source ((hconnected source).mpr ⟨hsource, ?_⟩) connector hconnector
      rw [Option.mem_def.mp hconnector]
      exact Option.some_ne_none connector

/-- The last second of a `timedelta`. -/
def maxTimedeltaSeconds : Int := 86399999999999

/-- The trigger constructors with the range of `timedelta`. -/
def timedeltaScheduler : ApScheduler where
  acceptsInterval
    | .int n => -maxTimedeltaSeconds ≤ n && n ≤ maxTimedeltaSeconds
    | .float (.finite q) => -maxTimedeltaSeconds ≤ q && q ≤ maxTimedeltaSeconds
    | _ => false
  acceptsCrontab _ := false
  nextFireTime _ now := now

def bootSource : Source := ⟨1, "Pracuj.pl", some "pracuj", ⟨[]⟩, none⟩

/-- An interval update that the request schema accepts is stored, and start-up
does not get past it. -/
theorem interval_update_stops_boot :
    ∃ payload : IntervalUpdateRequest, ∃ changed after,
      setSourceInterval [bootSource] "pracuj" payload.seconds = .ok (changed, after) ∧
        ¬ Boots timedeltaScheduler 0 (after.map storedSource) fun _ => none := by
  refine ⟨⟨10 ^ 15, by decide⟩, _, _, rfl, fun h => ?_⟩
  obtain ⟨trigger, htrigger⟩ := h.parses _ List.mem_cons_self
  have hraises : parseStoredSchedule timedeltaScheduler (.dict [("schedule",
      intervalSchedule (10 ^ 15))]) = .error .overflowError := by
    rfl
  exact absurd (hraises.symm.trans htrigger) (by simp)

end RecruFlow.Scheduler
