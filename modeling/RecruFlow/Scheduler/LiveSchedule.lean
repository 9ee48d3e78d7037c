import RecruFlow.Scheduler.Routes

/-!
# The live jobs against the stored settings

Start-up registers jobs that agree with the stored settings, and every update
keeps the agreement but one: a new interval recomputes the next run time of the
job, so a job that was paused runs again.
-/

namespace RecruFlow.Scheduler

open Db Ingestion Lib.KeyedStore Lib.Trace

variable (ap : ApScheduler)

/-- The job of the row is paused exactly when the row should not run by itself,
and has the trigger of the stored schedule. -/
def RowAgrees (jobs : Jobs) (row : Source) : Prop :=
  ∀ connector, row.connector = some connector →
    ∃ job, jobs (buildJobId connector) = some job ∧
      (job.paused = true ↔ connectorShouldAutoRun row.configJson = false) ∧
      parseSchedule ap row.configJson = .ok job.trigger

def Agrees (w : World) : Prop :=
  ∀ row ∈ w.sources, RowAgrees ap w.jobs row

/-- A new interval is given only to connectors that run by themselves. -/
def ReschedulesRunning (w : World) (r : Request) : Prop :=
  match r.update with
  | .allIntervals _ => ∀ row ∈ w.sources, row.connector.isSome →
      connectorShouldAutoRun row.configJson = true
  | .interval connector _ => ∀ row, resolveSourceByConnector w.sources connector = .ok row →
      connectorShouldAutoRun row.configJson = true
  | _ => True

variable {ap} {now : Int} {w w' : World} {u : Update} {row : Source}

/-! ## Start-up -/

private theorem registerAll_other {rows : List Source} {jobs jobs' : Jobs} {jobId : String}
    (h : rows.foldlM (fun jobs source => registerJob ap now source jobs) jobs = .ok jobs')
    (hnot : ∀ row ∈ rows, ∀ connector, row.connector = some connector →
      buildJobId connector ≠ jobId) : jobs' jobId = jobs jobId := by
  induction rows generalizing jobs with
  | nil => rw [← Except.ok.inj h]
  | cons row rows ih =>
      rw [List.foldlM_cons] at h
      obtain ⟨middle, hfirst, htail⟩ := bind_ok h
      obtain ⟨connector, _, hc, _, rfl⟩ := registerJob_ok hfirst
      have hne : jobId ≠ buildJobId connector :=
        (hnot row List.mem_cons_self connector hc).symm
      rw [ih htail fun r hr => hnot r (List.mem_cons_of_mem row hr), Function.update_of_ne hne]

private theorem registerAll_agrees {rows : List Source} {jobs jobs' : Jobs}
    (hnodup : (rows.map (·.connector)).Nodup)
    (h : rows.foldlM (fun jobs source => registerJob ap now source jobs) jobs = .ok jobs') :
    ∀ row ∈ rows, RowAgrees ap jobs' row := by
  induction rows generalizing jobs with
  | nil => simp
  | cons row rows ih =>
      rw [List.foldlM_cons] at h
      obtain ⟨middle, hfirst, htail⟩ := bind_ok h
      obtain ⟨hrow, hrest⟩ := List.nodup_cons.mp hnodup
      intro r hr
      rcases List.mem_cons.mp hr with rfl | hr
      · obtain ⟨connector, trigger, hc, htrigger, rfl⟩ := registerJob_ok hfirst
        intro connector' hc'
        obtain rfl : connector = connector' := Option.some.inj (hc.symm.trans hc')
        have hkept : jobs' (buildJobId connector) = _ := registerAll_other htail ?_
        · refine ⟨_, by rw [hkept, Function.update_self], ?_, htrigger⟩
          by_cases hrun : connectorShouldAutoRun r.configJson = true
          · simp [Job.paused, hrun]
          · simp [Job.paused, hrun]
        · intro r' hr' connector'' hc'' hid
          obtain rfl := buildJobId_injective hid
          refine hrow ?_
          change r.connector ∈ _
          rw [hc, ← hc'']
          exact List.mem_map_of_mem hr'
      · exact ih hrest htail r hr

theorem agrees_of_start {sources : List Source} (hd : Distinct sources)
    (h : start ap now sources = .ok w) : w.sources = sources ∧ Agrees ap w := by
  obtain ⟨⟨count, jobs⟩, hregister, hw⟩ := bind_ok h
  obtain rfl := Except.ok.inj hw
  obtain ⟨jobs', hjobs, hcount⟩ := bind_ok hregister
  obtain rfl : jobs' = jobs := (Prod.mk.inj (Except.ok.inj hcount)).2
  refine ⟨rfl, fun row hrow connector hc => ?_⟩
  have hmem : row ∈ connectedSources sources := List.mem_filter.mpr ⟨hrow, by rw [hc]; rfl⟩
  exact registerAll_agrees hd.connectors hjobs row hmem connector hc

/-! ## One request -/

private theorem shouldAutoRun_set_schedule {config : Dict} {value : PyValue} :
    connectorShouldAutoRun (config.set "schedule" value) = connectorShouldAutoRun config := by
  unfold connectorShouldAutoRun
  rw [Dict.getD_set_ne _ _ _ (by decide), Dict.getD_set_ne _ _ _ (by decide)]

/-- A row that the request does not touch still agrees with its job. -/
private theorem rowAgrees_untouched (h : Served ap now u w w') (hrow : row ∈ w.sources)
    (htouch : u.touches row = false) : RowAgrees ap w'.jobs row ↔ RowAgrees ap w.jobs row := by
  refine forall₂_congr fun connector hc => ?_
  rw [h.untouched row hrow connector hc htouch]

/-- A row with a new interval agrees with its job, which is not paused, when it
should run by itself. -/
private theorem rowAgrees_interval {payload : IntervalUpdateRequest}
    (h : Served ap now u w w') (hu : u.payload = some payload) (hrow : row ∈ w.sources)
    (htouch : u.touches row) : RowAgrees ap w'.jobs (setConfigKey u.key u.value row) ↔
      connectorShouldAutoRun row.configJson = true := by
  obtain ⟨hkey, hvalue, honJob⟩ : u.key = "schedule" ∧
      u.value = intervalSchedule payload.seconds ∧ ∀ r, u.onJob ap now r =
        Job.reschedule ap now (.interval (.int payload.seconds)) := by
    cases u with
    | allIntervals _ | interval _ _ =>
        obtain rfl := Option.some.inj hu
        exact ⟨rfl, rfl, fun _ => rfl⟩
    | allAutoFetch _ | autoFetch _ _ | allEnabled _ | enabled _ _ => cases hu
  have haccepts : intervalTrigger ap (.int payload.seconds) =
      .ok (.interval (.int payload.seconds)) := by
    rw [intervalTrigger, if_pos (h.accepted payload hu row hrow htouch)]
  have hpos : 0 < payload.seconds := by
    have := payload.ge
    omega
  have htrigger : parseSchedule ap (setConfigKey u.key u.value row).configJson =
      .ok (.interval (.int payload.seconds)) := by
    rw [setConfigKey_configJson, hkey, hvalue]
    exact parseSchedule_interval hpos haccepts
  have hrun : connectorShouldAutoRun (setConfigKey u.key u.value row).configJson =
      connectorShouldAutoRun row.configJson := by
    rw [setConfigKey_configJson, hkey, shouldAutoRun_set_schedule]
  obtain ⟨connector, hc⟩ := Option.isSome_iff_exists.mp (Update.isSome_of_touches htouch)
  obtain ⟨job, _, hjob⟩ := h.touched row hrow connector hc htouch
  rw [honJob] at hjob
  constructor
  · intro hagrees
    obtain ⟨job', hjob', hpaused, _⟩ := hagrees connector hc
    rw [hjob, Option.some.injEq] at hjob'
    rw [← hjob', hrun] at hpaused
    simpa [Job.paused, Job.reschedule] using hpaused
  · intro hauto connector' hc'
    obtain rfl : connector = connector' := Option.some.inj (hc.symm.trans hc')
    refine ⟨_, hjob, ?_, htrigger⟩
    rw [hrun, hauto]
    simp [Job.paused, Job.reschedule]

/-- A row whose flag was updated agrees with its job, resumed or paused to match. -/
private theorem rowAgrees_toggle (h : Served ap now u w w') (hu : u.payload = none)
    (hrow : row ∈ w.sources) (htouch : u.touches row) (hagrees : RowAgrees ap w.jobs row) :
    RowAgrees ap w'.jobs (setConfigKey u.key u.value row) := by
  obtain ⟨hkey, honJob⟩ : u.key ≠ "schedule" ∧ ∀ r, u.onJob ap now r =
      if connectorShouldAutoRun r.configJson then Job.resume ap now else Job.pause := by
    cases u with
    | allIntervals _ | interval _ _ => cases hu
    | allAutoFetch _ | autoFetch _ _ | allEnabled _ | enabled _ _ =>
        exact ⟨by simp [Update.key], fun _ => rfl⟩
  intro connector hc
  obtain ⟨job, hjob, hjob'⟩ := h.touched row hrow connector hc htouch
  obtain ⟨old, hold, _, htrigger⟩ := hagrees connector hc
  obtain rfl : job = old := Option.some.inj (hjob.symm.trans hold)
  rw [honJob] at hjob'
  refine ⟨_, hjob', ?_, ?_⟩
  · by_cases hrun : connectorShouldAutoRun (setConfigKey u.key u.value row).configJson = true
    · rw [if_pos hrun, hrun]
      simp [Job.paused, Job.resume]
    · rw [if_neg hrun, Bool.eq_false_of_not_eq_true hrun]
      simp [Job.paused, Job.pause]
  · rw [setConfigKey_configJson, parseSchedule_set_ne hkey, htrigger]
    split <;> rfl

/-- What a served request needs in order to keep the agreement. -/
private theorem agrees_served_iff (hw : Agrees ap w) (h : Served ap now u w w') :
    Agrees ap w' ↔ ∀ payload, u.payload = some payload → ∀ row ∈ w.sources,
      u.touches row → connectorShouldAutoRun row.configJson = true := by
  constructor
  · intro hagrees payload hu row hrow htouch
    refine (rowAgrees_interval h hu hrow htouch).mp (hagrees _ ?_)
    rw [h.sources]
    exact List.mem_map.mpr ⟨row, hrow, by rw [if_pos htouch]⟩
  · intro hrunning row' hrow'
    rw [h.sources] at hrow'
    obtain ⟨row, hrow, rfl⟩ := List.mem_map.mp hrow'
    by_cases htouch : u.touches row = true
    · rw [if_pos htouch]
      cases hu : u.payload with
      | none => exact rowAgrees_toggle h hu hrow htouch (hw row hrow)
      | some payload =>
          exact (rowAgrees_interval h hu hrow htouch).mpr (hrunning payload hu row hrow htouch)
    · rw [if_neg htouch]
      exact (rowAgrees_untouched h hrow (by simpa using htouch)).mpr (hw row hrow)

private theorem rescheduleSource_error {payload : IntervalUpdateRequest} {jobs : Jobs}
    {e : PyError} (h : rescheduleSource ap now payload row jobs = .error e) :
    e = .assertionError ∨ e = .overflowError ∨ e = .jobLookup := by
  unfold rescheduleSource at h
  split at h
  · exact .inl (Except.error.inj h).symm
  · rcases bind_error h with htrigger | ⟨trigger, _, hjob⟩
    · unfold intervalTrigger at htrigger
      split at htrigger
      · cases htrigger
      · exact .inr (.inl (Except.error.inj htrigger).symm)
    · exact .inr (.inr (modify_error hjob))

/-- Neither lookup error comes out of the update of a job. -/
private theorem rescheduleSource_lookup {payload : IntervalUpdateRequest} {jobs : Jobs} :
    rescheduleSource ap now payload row jobs ≠ .error .unknownConnector ∧
      rescheduleSource ap now payload row jobs ≠ .error .sourceNotConfigured :=
  ⟨fun h => by simpa using rescheduleSource_error h,
    fun h => by simpa using rescheduleSource_error h⟩

private theorem foldlM_ne_error {α β : Type} {g : α → β → Except PyError α} {e : PyError}
    (h : ∀ a b, g a b ≠ .error e) (bs : List β) (a : α) : bs.foldlM g a ≠ .error e := by
  induction bs generalizing a with
  | nil => intro herror; cases herror
  | cons b bs ih =>
      rw [List.foldlM_cons]
      cases hg : g a b with
      | error e' => exact fun herror => h a b (hg.trans herror)
      | ok a' => exact ih a'

/-- A request that is answered with 404 reschedules nothing. -/
private theorem reschedulesRunning_of_lookup {r : Request}
    (h : serve ap w r = .error .unknownConnector ∨ serve ap w r = .error .sourceNotConfigured) :
    ReschedulesRunning w r := by
  obtain ⟨now, u⟩ := r
  cases u with
  | allAutoFetch _ | autoFetch _ _ | allEnabled _ | enabled _ _ => trivial
  | allIntervals payload =>
      rcases h with h | h
      · rcases bind_error h with hloop | ⟨jobs, _, hdone⟩
        · exact absurd hloop (foldlM_ne_error (fun _ _ => rescheduleSource_lookup.1) _ _)
        · cases hdone
      · rcases bind_error h with hloop | ⟨jobs, _, hdone⟩
        · exact absurd hloop (foldlM_ne_error (fun _ _ => rescheduleSource_lookup.2) _ _)
        · cases hdone
  | interval connector payload =>
      intro row hrow
      have hset : setSourceInterval w.sources connector payload.seconds = .ok _ :=
        setSourceKey_of_resolve hrow
      rcases h with h | h
      · rcases bind_error h with herror | ⟨_, _, h⟩
        · rw [hset] at herror
          cases herror
        · rcases bind_error h with hjob | ⟨jobs, _, hdone⟩
          · exact absurd hjob rescheduleSource_lookup.1
          · cases hdone
      · rcases bind_error h with herror | ⟨_, _, h⟩
        · rw [hset] at herror
          cases herror
        · rcases bind_error h with hjob | ⟨jobs, _, hdone⟩
          · exact absurd hjob rescheduleSource_lookup.2
          · cases hdone

/-- One request keeps the agreement exactly when it reschedules no paused job. -/
theorem agrees_step_iff {r : Request} (hd : Distinct w.sources) (hw : Agrees ap w)
    (h : step ap w r = some w') : Agrees ap w' ↔ ReschedulesRunning w r := by
  obtain ⟨rfl, hlookup⟩ | ⟨hserve, hserved⟩ := step_cases hd h
  · exact iff_of_true hw (reschedulesRunning_of_lookup hlookup)
  · rw [agrees_served_iff hw hserved]
    obtain ⟨now, u⟩ := r
    cases u with
    | allAutoFetch _ | autoFetch _ _ | allEnabled _ | enabled _ _ =>
        exact iff_of_true (fun _ hp => nomatch hp) trivial
    | allIntervals payload =>
        exact ⟨fun hall => hall payload rfl, fun hall _ _ => hall⟩
    | interval connector payload =>
        constructor
        · intro hall row hrow
          obtain ⟨hmem, hc⟩ := resolveSourceByConnector_ok hrow
          exact hall payload rfl row hmem (decide_eq_true hc)
        · intro hall _ _ row hmem htouch
          have hc : row.connector = some connector := of_decide_eq_true htouch
          obtain ⟨_, hset, _⟩ := bind_ok hserve
          obtain ⟨found, hfound, _⟩ := bind_ok hset
          obtain ⟨hmem', hc'⟩ := resolveSourceByConnector_ok hfound
          rw [hd.eq_of_connector hmem hmem' hc hc']
          exact hall found hfound

theorem distinct_step {r : Request} (hd : Distinct w.sources) (h : step ap w r = some w') :
    Distinct w'.sources := by
  obtain ⟨rfl, _⟩ | ⟨_, hserved⟩ := step_cases hd h
  · exact hd
  · exact hserved.distinct hd

/-- After start-up, the live jobs agree with the stored settings throughout a
history of updates exactly when no update gives a new interval to a connector
that should not run by itself. -/
theorem live_schedule_agrees_iff {sources : List Source} {rs : List Request}
    (hd : Distinct sources) (hstart : start ap now sources = .ok w)
    (hrun : exec (step ap) w rs = some w') :
    (∀ s, Reaches (step ap) w rs s → Agrees ap s) ↔
      Along (step ap) ReschedulesRunning w rs := by
  obtain ⟨hsources, hagrees⟩ := agrees_of_start hd hstart
  exact everywhere_iff_along (I := fun s => Distinct s.sources)
    (fun _ _ _ => distinct_step) (fun _ _ _ => agrees_step_iff) (hsources ▸ hd) hagrees hrun

/-- A source with automatic fetching switched off. -/
def manualSource : Source :=
  { id := 1
    name := "remotive"
    connector := some "remotive"
    configJson := ⟨[("schedule", intervalSchedule 21600), ("auto_fetch_enabled", .bool false),
      ("connector_enabled", .bool true)]⟩
    lastFetchedAt := none }

/-- A scheduler library that accepts everything and fires a second later. -/
def everySecond : ApScheduler :=
  ⟨fun _ => true, fun _ => true, fun _ now => now + 1000000⟩

def dailyInterval : Request :=
  ⟨10, .interval "remotive" ⟨86400, by decide⟩⟩

theorem manualSource_distinct : Distinct [manualSource] :=
  ⟨List.nodup_singleton _, List.nodup_singleton _⟩

theorem live_schedule_agrees_iff_daily :
    ∃ w w', start everySecond 0 [manualSource] = .ok w ∧
      ((∀ s, Reaches (step everySecond) w [dailyInterval] s → Agrees everySecond s) ↔
        Along (step everySecond) ReschedulesRunning w [dailyInterval]) ∧
      exec (step everySecond) w [dailyInterval] = some w' :=
  ⟨_, _, rfl, live_schedule_agrees_iff manualSource_distinct
    (show start everySecond 0 [manualSource] = .ok _ from rfl) rfl, rfl⟩

/-- A new interval for the paused connector gives its job a next run time again. -/
theorem live_schedule_unpaused :
    ∃ w w' job, start everySecond 0 [manualSource] = .ok w ∧
      exec (step everySecond) w [dailyInterval] = some w' ∧
      w'.jobs (buildJobId "remotive") = some job ∧ job.paused = false ∧
      connectorShouldAutoRun manualSource.configJson = false ∧ ¬ Agrees everySecond w' := by
  refine ⟨_, _, _, rfl, rfl, rfl, rfl, rfl, fun h => ?_⟩
  obtain ⟨job, hjob, hpaused, _⟩ := h _ List.mem_cons_self "remotive" rfl
  obtain rfl := Option.some.inj hjob
  exact absurd (hpaused.mpr rfl) (by decide)

end RecruFlow.Scheduler
