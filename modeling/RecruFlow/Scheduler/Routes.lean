import RecruFlow.Lib.Trace
import RecruFlow.Scheduler.Jobs

/-!
# The routes that change the schedule of a source

Each route commits the new setting and then brings the live job up to date: the
interval routes give it a new trigger, the other four resume or pause it.
-/

namespace RecruFlow.Scheduler

open Db Ingestion Lib.KeyedStore

/-- What the process holds: the committed sources and the live jobs. -/
structure World where
  sources : List Source
  jobs : Jobs

/-- `seconds: int = Field(ge=60)`. -/
structure IntervalUpdateRequest where
  seconds : Int
  ge : 60 ≤ seconds

variable (ap : ApScheduler) (now : Int)

/-- The body of the loop of the interval routes. -/
def rescheduleSource (payload : IntervalUpdateRequest) (source : Source) (jobs : Jobs) :
    Except PyError Jobs :=
  match source.connector with
  | none => .error .assertionError
  | some connector => do
      let trigger ← intervalTrigger ap (.int payload.seconds)
      rescheduleJob ap now (buildJobId connector) trigger jobs

def updateAllSourceIntervals (w : World) (payload : IntervalUpdateRequest) :
    Except PyError World := do
  let (changed, sources) := setAllSourceIntervals w.sources payload.seconds
  let jobs ← changed.foldlM (fun jobs source => rescheduleSource ap now payload source jobs) w.jobs
  pure ⟨sources, jobs⟩

def updateSourceInterval (w : World) (connector : String) (payload : IntervalUpdateRequest) :
    Except PyError World := do
  let (changed, sources) ← setSourceInterval w.sources connector payload.seconds
  let jobs ← rescheduleSource ap now payload changed w.jobs
  pure ⟨sources, jobs⟩

def updateAllSourceAutoFetch (w : World) (enabled : Bool) : Except PyError World := do
  let (changed, sources) := setAllSourceAutoFetch w.sources enabled
  let jobs ← changed.foldlM (fun jobs source => applyAutoRunToggle ap now source jobs) w.jobs
  pure ⟨sources, jobs⟩

def updateSourceAutoFetch (w : World) (connector : String) (enabled : Bool) :
    Except PyError World := do
  let (changed, sources) ← setSourceAutoFetch w.sources connector enabled
  let jobs ← applyAutoRunToggle ap now changed w.jobs
  pure ⟨sources, jobs⟩

def updateAllSourceEnabled (w : World) (enabled : Bool) : Except PyError World := do
  let (changed, sources) := setAllSourceEnabled w.sources enabled
  let jobs ← changed.foldlM (fun jobs source => applyAutoRunToggle ap now source jobs) w.jobs
  pure ⟨sources, jobs⟩

def updateSourceEnabled (w : World) (connector : String) (enabled : Bool) :
    Except PyError World := do
  let (changed, sources) ← setSourceEnabled w.sources connector enabled
  let jobs ← applyAutoRunToggle ap now changed w.jobs
  pure ⟨sources, jobs⟩

inductive Update where
  | allIntervals (payload : IntervalUpdateRequest)
  | interval (connector : String) (payload : IntervalUpdateRequest)
  | allAutoFetch (enabled : Bool)
  | autoFetch (connector : String) (enabled : Bool)
  | allEnabled (enabled : Bool)
  | enabled (connector : String) (enabled : Bool)

structure Request where
  now : Int
  update : Update

def serve (w : World) (r : Request) : Except PyError World :=
  match r.update with
  | .allIntervals payload => updateAllSourceIntervals ap r.now w payload
  | .interval connector payload => updateSourceInterval ap r.now w connector payload
  | .allAutoFetch enabled => updateAllSourceAutoFetch ap r.now w enabled
  | .autoFetch connector enabled => updateSourceAutoFetch ap r.now w connector enabled
  | .allEnabled enabled => updateAllSourceEnabled ap r.now w enabled
  | .enabled connector enabled => updateSourceEnabled ap r.now w connector enabled

/-- One request. A lookup error is answered with 404 and changes nothing; any
other exception ends the history. -/
def step (w : World) (r : Request) : Option World :=
  match serve ap w r with
  | .ok w' => some w'
  | .error .unknownConnector | .error .sourceNotConfigured => some w
  | .error _ => none

/-- The process after start-up. -/
def start (sources : List Source) : Except PyError World := do
  let (_, jobs) ← registerJobs ap now sources fun _ => none
  pure ⟨sources, jobs⟩

/-! ## What a request does -/

namespace Update

/-- The key and value that the request stores. -/
def key : Update → String
  | .allIntervals _ | .interval _ _ => "schedule"
  | .allAutoFetch _ | .autoFetch _ _ => "auto_fetch_enabled"
  | .allEnabled _ | .enabled _ _ => "connector_enabled"

def value : Update → PyValue
  | .allIntervals payload | .interval _ payload => intervalSchedule payload.seconds
  | .allAutoFetch flag | .autoFetch _ flag | .allEnabled flag | .enabled _ flag => .bool flag

/-- The rows that the request is about. -/
def touches : Update → Source → Bool
  | .allIntervals _, row | .allAutoFetch _, row | .allEnabled _, row => row.connector.isSome
  | .interval connector _, row | .autoFetch connector _, row | .enabled connector _, row =>
      row.connector = some connector

/-- What becomes of the job of a row that the request has changed. -/
def onJob (u : Update) (ap : ApScheduler) (now : Int) (row : Source) : Job → Job :=
  match u with
  | .allIntervals payload | .interval _ payload =>
      Job.reschedule ap now (.interval (.int payload.seconds))
  | _ => if connectorShouldAutoRun row.configJson then Job.resume ap now else Job.pause

/-- The seconds of a new interval. -/
def payload : Update → Option IntervalUpdateRequest
  | .allIntervals payload | .interval _ payload => some payload
  | _ => none

theorem isSome_of_touches {u : Update} {row : Source} (h : u.touches row) :
    row.connector.isSome := by
  cases u with
  | allIntervals _ | allAutoFetch _ | allEnabled _ => exact h
  | interval connector _ | autoFetch connector _ | enabled connector _ =>
      have hconnector : row.connector = some connector := of_decide_eq_true h
      rw [hconnector]
      rfl

end Update

/-- The rows have ids and connectors of their own. -/
structure Distinct (sources : List Source) : Prop where
  ids : (sources.map (·.id)).Nodup
  connectors : ((connectedSources sources).map (·.connector)).Nodup

namespace Distinct

variable {sources : List Source} {row row' : Source}

theorem eq_of_id (h : Distinct sources) (hrow : row ∈ sources) (hrow' : row' ∈ sources)
    (hid : row.id = row'.id) : row = row' :=
  List.inj_on_of_nodup_map h.ids hrow hrow' hid

theorem eq_of_connector (h : Distinct sources) {connector : String} (hrow : row ∈ sources)
    (hrow' : row' ∈ sources) (hc : row.connector = some connector)
    (hc' : row'.connector = some connector) : row = row' := by
  have hmem : row ∈ connectedSources sources := List.mem_filter.mpr ⟨hrow, by rw [hc]; rfl⟩
  have hmem' : row' ∈ connectedSources sources := List.mem_filter.mpr ⟨hrow', by rw [hc']; rfl⟩
  exact List.inj_on_of_nodup_map h.connectors hmem hmem' (hc.trans hc'.symm)

theorem map (h : Distinct sources) (f : Source → Source) (hid : ∀ row, (f row).id = row.id)
    (hc : ∀ row, (f row).connector = row.connector) : Distinct (sources.map f) := by
  constructor
  · rw [List.map_map]
    convert h.ids using 2
    funext row
    exact hid row
  · have hconnected : connectedSources (sources.map f) = (connectedSources sources).map f := by
      rw [connectedSources, List.filter_map]
      congr 1
      refine List.filter_congr fun row _ => ?_
      rw [Function.comp_apply, hc]
    rw [hconnected, List.map_map]
    convert h.connectors using 2
    funext row
    exact hc row

end Distinct

/-- The job id of a row that has a connector. -/
private def jobKey (row : Source) : String :=
  buildJobId (row.connector.getD "")

private theorem jobKey_of_connector {row : Source} {connector : String}
    (h : row.connector = some connector) : jobKey row = buildJobId connector := by
  rw [jobKey, h]
  rfl

/-- The full effect of a request that succeeds. -/
structure Served (ap : ApScheduler) (now : Int) (u : Update) (w w' : World) : Prop where
  sources : w'.sources =
    w.sources.map fun row => if u.touches row then setConfigKey u.key u.value row else row
  touched : ∀ row ∈ w.sources, ∀ connector, row.connector = some connector → u.touches row →
    ∃ job, w.jobs (buildJobId connector) = some job ∧ w'.jobs (buildJobId connector) =
      some (u.onJob ap now (setConfigKey u.key u.value row) job)
  untouched : ∀ row ∈ w.sources, ∀ connector, row.connector = some connector →
    u.touches row = false → w'.jobs (buildJobId connector) = w.jobs (buildJobId connector)
  accepted : ∀ payload, u.payload = some payload → ∀ row ∈ w.sources, u.touches row →
    ap.acceptsInterval (.int payload.seconds)

variable {ap now} {w w' : World} {u : Update}

/-- A request that changes the touched rows, and visits their jobs, is served. -/
private theorem served_of_visit (hd : Distinct w.sources) {changed : List Source}
    (hchanged : changed = (w.sources.filter u.touches).map (setConfigKey u.key u.value))
    (hsources : w'.sources =
      w.sources.map fun row => if u.touches row then setConfigKey u.key u.value row else row)
    (hvisit : modifyAll PyError.jobLookup jobKey (u.onJob ap now) changed w.jobs = .ok w'.jobs)
    (haccepted : ∀ payload, u.payload = some payload → changed ≠ [] →
      ap.acceptsInterval (.int payload.seconds)) : Served ap now u w w' := by
  have hmem : ∀ row ∈ w.sources, u.touches row →
      setConfigKey u.key u.value row ∈ changed := by
    intro row hrow htouch
    rw [hchanged]
    exact List.mem_map_of_mem (List.mem_filter.mpr ⟨hrow, htouch⟩)
  have hnodup : (changed.map jobKey).Nodup := by
    rw [hchanged, List.map_map]
    refine List.Nodup.map_on ?_ (hd.ids.of_map _ |>.filter _)
    intro row hrow row' hrow' hkey
    obtain ⟨hrow, htouch⟩ := List.mem_filter.mp hrow
    obtain ⟨hrow', htouch'⟩ := List.mem_filter.mp hrow'
    obtain ⟨connector, hc⟩ := Option.isSome_iff_exists.mp (Update.isSome_of_touches htouch)
    obtain ⟨connector', hc'⟩ := Option.isSome_iff_exists.mp (Update.isSome_of_touches htouch')
    simp only [Function.comp_apply, jobKey, setConfigKey_connector, hc, hc',
      Option.getD_some] at hkey
    exact hd.eq_of_connector hrow hrow' hc (buildJobId_injective hkey ▸ hc')
  refine ⟨hsources, ?_, ?_, ?_⟩
  · intro row hrow connector hc htouch
    have hkey : jobKey (setConfigKey u.key u.value row) = buildJobId connector :=
      jobKey_of_connector hc
    have hjob := modifyAll_mem hnodup hvisit _ (hmem row hrow htouch)
    rwa [hkey] at hjob
  · intro row hrow connector hc htouch
    refine modifyAll_other hvisit fun hin => ?_
    obtain ⟨x, hx, hkey⟩ := List.mem_map.mp hin
    rw [hchanged] at hx
    obtain ⟨row', hrow', rfl⟩ := List.mem_map.mp hx
    obtain ⟨hrow', htouch'⟩ := List.mem_filter.mp hrow'
    obtain ⟨connector', hc'⟩ := Option.isSome_iff_exists.mp (Update.isSome_of_touches htouch')
    have hkey' : jobKey (setConfigKey u.key u.value row') = buildJobId connector' :=
      jobKey_of_connector hc'
    obtain rfl := buildJobId_injective (hkey'.symm.trans hkey)
    rw [hd.eq_of_connector hrow' hrow hc' hc, htouch] at htouch'
    cases htouch'
  · intro payload hpayload row hrow htouch
    exact haccepted payload hpayload (List.ne_nil_of_mem (hmem row hrow htouch))

private theorem rescheduleSource_ok {payload : IntervalUpdateRequest} {source : Source}
    {jobs jobs' : Jobs} (h : rescheduleSource ap now payload source jobs = .ok jobs') :
    ap.acceptsInterval (.int payload.seconds) := by
  unfold rescheduleSource at h
  split at h
  · cases h
  · obtain ⟨trigger, htrigger, _⟩ := bind_ok h
    unfold intervalTrigger at htrigger
    split at htrigger
    · assumption
    · cases htrigger

private theorem rescheduleSource_eq {payload : IntervalUpdateRequest} {source : Source}
    (haccepts : ap.acceptsInterval (.int payload.seconds)) (hc : source.connector.isSome)
    (jobs : Jobs) : rescheduleSource ap now payload source jobs = modify .jobLookup (jobKey source)
      (Job.reschedule ap now (.interval (.int payload.seconds))) jobs := by
  obtain ⟨connector, hconnector⟩ := Option.isSome_iff_exists.mp hc
  rw [jobKey_of_connector hconnector, rescheduleSource, hconnector]
  simp only [intervalTrigger, haccepts, if_true]
  rfl

private theorem applyAutoRunToggle_eq_jobKey {source : Source} (hc : source.connector.isSome)
    (jobs : Jobs) : applyAutoRunToggle ap now source jobs = modify .jobLookup (jobKey source)
      (if connectorShouldAutoRun source.configJson then Job.resume ap now else Job.pause) jobs := by
  obtain ⟨connector, hconnector⟩ := Option.isSome_iff_exists.mp hc
  rw [applyAutoRunToggle_eq hconnector, jobKey_of_connector hconnector]

/-- Both loops visit the job of every changed row. -/
private theorem reschedule_visit {payload : IntervalUpdateRequest} {changed : List Source}
    {jobs jobs' : Jobs} (hc : ∀ row ∈ changed, row.connector.isSome)
    (h : changed.foldlM (fun jobs source => rescheduleSource ap now payload source jobs) jobs =
      .ok jobs') :
    (changed ≠ [] → ap.acceptsInterval (.int payload.seconds)) ∧
      modifyAll PyError.jobLookup jobKey
        (fun _ => Job.reschedule ap now (.interval (.int payload.seconds))) changed jobs =
        .ok jobs' := by
  cases changed with
  | nil => exact ⟨fun hne => absurd rfl hne, h⟩
  | cons row rows =>
      have hcons := h
      rw [List.foldlM_cons] at hcons
      obtain ⟨_, hfirst, _⟩ := bind_ok hcons
      have haccepts := rescheduleSource_ok hfirst
      refine ⟨fun _ => haccepts, ?_⟩
      rwa [foldlM_eq_modifyAll fun x hx => rescheduleSource_eq haccepts (hc x hx)] at h

private theorem toggle_visit {changed : List Source} {jobs jobs' : Jobs}
    (hc : ∀ row ∈ changed, row.connector.isSome)
    (h : changed.foldlM (fun jobs source => applyAutoRunToggle ap now source jobs) jobs =
      .ok jobs') :
    modifyAll PyError.jobLookup jobKey (fun row =>
      if connectorShouldAutoRun row.configJson then Job.resume ap now else Job.pause)
      changed jobs = .ok jobs' := by
  rwa [foldlM_eq_modifyAll fun x hx => applyAutoRunToggle_eq_jobKey (hc x hx)] at h

private theorem connected_changed {key : String} {value : PyValue} {sources : List Source} :
    ∀ row ∈ (setAllSourceKeys key value sources).1, row.connector.isSome := by
  intro row hrow
  obtain ⟨row', hrow', rfl⟩ := List.mem_map.mp hrow
  exact (List.mem_filter.mp hrow').2

private theorem foldlM_singleton {α β : Type} (g : α → β → Except PyError α) (a : α) (b : β) :
    [b].foldlM g a = g a b := by
  rw [List.foldlM_cons]
  cases g a b <;> rfl

/-- With connectors of their own, the rows with the connector are the resolved one. -/
private theorem filter_connector {sources : List Source} (hd : Distinct sources)
    {connector : String} {row : Source}
    (hrow : resolveSourceByConnector sources connector = .ok row) :
    (sources.filter fun r => r.connector = some connector) = [row] := by
  obtain ⟨hmem, hc⟩ := resolveSourceByConnector_ok hrow
  have hperm : (sources.filter fun r => r.connector = some connector).Perm [row] := by
    refine (List.perm_ext_iff_of_nodup ((hd.ids.of_map _).filter _)
      (List.nodup_singleton row)).mpr fun r => ?_
    simp only [List.mem_filter, decide_eq_true_eq, List.mem_singleton]
    exact ⟨fun ⟨hr, hrc⟩ => hd.eq_of_connector hr hmem hrc hc, fun hr => hr ▸ ⟨hmem, hc⟩⟩
  exact List.perm_singleton.mp hperm

/-- What a single-source setting changes, in terms of the rows it touches. -/
private theorem setSourceKey_touched {sources after : List Source} (hd : Distinct sources)
    {key connector : String} {value : PyValue} {changed : Source}
    (h : setSourceKey key value sources connector = .ok (changed, after)) :
    [changed] = (sources.filter fun r => r.connector = some connector).map
        (setConfigKey key value) ∧
      changed.connector.isSome ∧
      after = sources.map fun r =>
        if decide (r.connector = some connector) then setConfigKey key value r else r := by
  obtain ⟨row, hrow, _⟩ := bind_ok h
  obtain ⟨hmem, hc⟩ := resolveSourceByConnector_ok hrow
  rw [setSourceKey_of_resolve hrow, Except.ok.injEq, Prod.mk.injEq] at h
  obtain ⟨rfl, rfl⟩ := h
  refine ⟨by rw [filter_connector hd hrow]; rfl, by rw [setConfigKey_connector, hc]; rfl, ?_⟩
  refine List.map_congr_left fun r hr => ?_
  by_cases hid : r.id = row.id
  · obtain rfl := hd.eq_of_id hr hmem hid
    simp [hc]
  · have hne : r.connector ≠ some connector := by
      intro hrc
      exact hid (by rw [hd.eq_of_connector hr hmem hrc hc])
    simp [hid, hne]

/-- A request that succeeds is served in full. -/
theorem served_of_serve {r : Request} (hd : Distinct w.sources)
    (h : serve ap w r = .ok w') : Served ap r.now r.update w w' := by
  obtain ⟨now, u⟩ := r
  cases u with
  | allIntervals payload =>
      obtain ⟨jobs, hjobs, hw'⟩ := bind_ok h
      obtain rfl := Except.ok.inj hw'
      obtain ⟨haccepts, hvisit⟩ := reschedule_visit connected_changed hjobs
      exact served_of_visit hd rfl rfl hvisit fun _ hp => Option.some.inj hp ▸ haccepts
  | interval connector payload =>
      obtain ⟨⟨changed, after⟩, hset, h⟩ := bind_ok h
      obtain ⟨jobs, hjobs, hw'⟩ := bind_ok h
      obtain rfl := Except.ok.inj hw'
      obtain ⟨hchanged, hc, hafter⟩ := setSourceKey_touched hd hset
      rw [← foldlM_singleton fun jobs source => rescheduleSource ap now payload source jobs]
        at hjobs
      obtain ⟨haccepts, hvisit⟩ := reschedule_visit (by simpa using hc) hjobs
      exact served_of_visit hd hchanged hafter hvisit fun _ hp => Option.some.inj hp ▸ haccepts
  | allAutoFetch _ | allEnabled _ =>
      obtain ⟨jobs, hjobs, hw'⟩ := bind_ok h
      obtain rfl := Except.ok.inj hw'
      exact served_of_visit hd rfl rfl (toggle_visit connected_changed hjobs)
        fun _ hp => nomatch hp
  | autoFetch connector _ | enabled connector _ =>
      obtain ⟨⟨changed, after⟩, hset, h⟩ := bind_ok h
      obtain ⟨jobs, hjobs, hw'⟩ := bind_ok h
      obtain rfl := Except.ok.inj hw'
      obtain ⟨hchanged, hc, hafter⟩ := setSourceKey_touched hd hset
      rw [← foldlM_singleton fun jobs source => applyAutoRunToggle ap now source jobs] at hjobs
      exact served_of_visit hd hchanged hafter (toggle_visit (by simpa using hc) hjobs)
        fun _ hp => nomatch hp

/-- A request that is answered has changed nothing or is served in full. -/
theorem step_cases {r : Request} (hd : Distinct w.sources) (h : step ap w r = some w') :
    (w' = w ∧ (serve ap w r = .error .unknownConnector ∨
      serve ap w r = .error .sourceNotConfigured)) ∨
    (serve ap w r = .ok w' ∧ Served ap r.now r.update w w') := by
  unfold step at h
  split at h
  · next served hserve =>
    obtain rfl := Option.some.inj h
    exact .inr ⟨hserve, served_of_serve hd hserve⟩
  · next hserve => exact .inl ⟨(Option.some.inj h).symm, .inl hserve⟩
  · next hserve => exact .inl ⟨(Option.some.inj h).symm, .inr hserve⟩
  · cases h

theorem Served.distinct {u : Update} (hd : Distinct w.sources) (h : Served ap now u w w') :
    Distinct w'.sources := by
  rw [h.sources]
  refine hd.map _ (fun row => ?_) (fun row => ?_)
  · split <;> rfl
  · split <;> rfl

end RecruFlow.Scheduler
