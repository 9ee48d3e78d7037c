import RecruFlow.Lib.LastWrite
import RecruFlow.Scheduler.Boot
import RecruFlow.Scheduler.FetchRangeUpdate
import RecruFlow.Scheduler.LiveSchedule

/-!
# The settings after any requests

Every settings route commits its change before anything else can fail. What a
source is then reported with is what the last accepted request gave each of its
settings.
-/

namespace RecruFlow.Scheduler

open Db Ingestion Lib.LastWrite

inductive FetchScopeMode where
  | all
  | filtered
  deriving DecidableEq

/-- `FetchScopeUpdateRequest.model_dump(mode="json")` -/
def FetchScopeMode.modelDump : FetchScopeMode → Dict
  | .all => ⟨[("mode", .str "all")]⟩
  | .filtered => ⟨[("mode", .str "filtered")]⟩

/-- The settings routes, the six that also touch the live jobs under `jobs`. -/
inductive SettingsRequest where
  | jobs (u : Update)
  | allFetchRanges (payload : FetchRangeUpdateRequest)
  | fetchRange (connector : String) (payload : FetchRangeUpdateRequest)
  | fetchScope (connector : String) (mode : FetchScopeMode)

/-- What the six routes commit, whatever becomes of the jobs. -/
def Update.store (sources : List Source) : Update → Except PyError (List Source)
  | .allIntervals payload => .ok (setAllSourceIntervals sources payload.seconds).2
  | .interval connector payload =>
      (setSourceInterval sources connector payload.seconds).map (·.2)
  | .allAutoFetch flag => .ok (setAllSourceAutoFetch sources flag).2
  | .autoFetch connector flag => (setSourceAutoFetch sources connector flag).map (·.2)
  | .allEnabled flag => .ok (setAllSourceEnabled sources flag).2
  | .enabled connector flag => (setSourceEnabled sources connector flag).map (·.2)

namespace SettingsRequest

variable (isoformat : DateTime → String)

def store (sources : List Source) : SettingsRequest → Except PyError (List Source)
  | .jobs u => u.store sources
  | .allFetchRanges payload =>
      .ok (setAllSourceFetchRanges sources (payload.modelDump isoformat)).2
  | .fetchRange connector payload =>
      (setSourceFetchRange sources connector (payload.modelDump isoformat)).map (·.2)
  | .fetchScope connector mode => (setSourceFetchScope sources connector mode.modelDump).map (·.2)

/-- The committed sources after a request; a 404 or 400 changes nothing. -/
def commit (sources : List Source) (r : SettingsRequest) : List Source :=
  match r.store isoformat sources with
  | .ok sources => sources
  | .error _ => sources

def key : SettingsRequest → String
  | .jobs u => u.key
  | .allFetchRanges _ | .fetchRange _ _ => "fetch_range"
  | .fetchScope _ _ => "fetch_scope"

def value : SettingsRequest → PyValue
  | .jobs u => u.value
  | .allFetchRanges payload | .fetchRange _ payload => .dict (payload.modelDump isoformat).items
  | .fetchScope _ mode => .dict mode.modelDump.items

/-- The connector that a request names; the bulk forms name none. -/
def named : SettingsRequest → Option String
  | .jobs (.interval connector _) | .jobs (.autoFetch connector _) | .jobs (.enabled connector _)
  | .fetchRange connector _ | .fetchScope connector _ => some connector
  | .jobs (.allIntervals _) | .jobs (.allAutoFetch _) | .jobs (.allEnabled _)
  | .allFetchRanges _ => none

/-- The route lets the request through for the connector that it names. -/
def admitted (connector : String) : SettingsRequest → Bool
  | .fetchScope _ mode => fetchScopeAllowed connector mode.modelDump
  | _ => true

/-- The request changes the source of the connector. -/
def Reaches (r : SettingsRequest) (connector : String) : Prop :=
  r.named = none ∨
    r.named = some connector ∧ (findConnector connector).isSome ∧ r.admitted connector

instance (r : SettingsRequest) (connector : String) : Decidable (r.Reaches connector) :=
  inferInstanceAs (Decidable (_ ∨ _))

/-- What the request gives a setting of a connector. -/
def target (r : SettingsRequest) (setting : String × String) : Option PyValue :=
  if r.key = setting.2 ∧ r.Reaches setting.1 then some (r.value isoformat) else none

end SettingsRequest

/-- A setting of a connector as it is stored. -/
def storedSetting (sources : List Source) (setting : String × String) : Option PyValue :=
  (sources.find? (·.connector = some setting.1)).bind (·.configJson.get setting.2)

/-- The fetch scope that is stored for a connector is the filtered one. -/
def FilteredScope (sources : List Source) (connector : String) : Prop :=
  ∃ items, storedSetting sources (connector, "fetch_scope") = some (.dict items) ∧
    Dict.get ⟨items⟩ "mode" = some (.str "filtered")

/-- What a route that succeeds has committed, jobs and all, is this. -/
theorem store_of_serve {ap : ApScheduler} {w w' : World} {r : Request}
    (h : serve ap w r = .ok w') : r.update.store w.sources = .ok w'.sources := by
  obtain ⟨now, u⟩ := r
  cases u with
  | allIntervals payload | allAutoFetch flag | allEnabled flag =>
      obtain ⟨jobs, hjobs, hw'⟩ := bind_ok h
      obtain rfl := Except.ok.inj hw'
      rfl
  | interval connector payload | autoFetch connector flag | enabled connector flag =>
      obtain ⟨⟨changed, after⟩, hset, h⟩ := bind_ok h
      obtain ⟨jobs, hjobs, hw'⟩ := bind_ok h
      obtain rfl := Except.ok.inj hw'
      simp only [Update.store, hset, Except.map]

/-! ## One request -/

section Requests

variable {isoformat : DateTime → String} {sources : List Source} {source : Source}
  {connector key : String} {value : PyValue} {r : SettingsRequest}

/-- The rows of one connector with a key replaced. -/
def setWhere (P : String → Prop) [DecidablePred P] (key : String) (value : PyValue)
    (sources : List Source) : List Source :=
  sources.map fun row =>
    if ∃ connector ∈ row.connector, P connector then setConfigKey key value row else row

/-- The committed sources after an update that may be refused. -/
def orUnchanged (sources : List Source) (r : Except PyError (List Source)) : List Source :=
  match r with
  | .ok sources => sources
  | .error _ => sources

theorem setAllSourceKeys_eq (P : String → Prop) [DecidablePred P] (h : ∀ connector, P connector) :
    (setAllSourceKeys key value sources).2 = setWhere P key value sources := by
  refine List.map_congr_left fun row _ => ?_
  refine if_congr ?_ rfl rfl
  rw [Option.isSome_iff_exists]
  exact exists_congr fun connector => ⟨fun hc => ⟨hc, h connector⟩, And.left⟩

/-- No row is changed that the condition does not name. -/
theorem setWhere_eq_self {P : String → Prop} [DecidablePred P]
    (h : ∀ row ∈ sources, ∀ connector ∈ row.connector, ¬ P connector) :
    setWhere P key value sources = sources := by
  calc setWhere P key value sources
      = sources.map id := List.map_congr_left fun row hrow => if_neg fun hex => by
          obtain ⟨connector, hconnector, hP⟩ := hex
          exact h row hrow connector hconnector hP
    _ = sources := List.map_id sources

theorem setSourceKey_eq (hd : Distinct sources) (P : String → Prop) [DecidablePred P]
    (h : ∀ c, P c ↔ connector = c ∧ (findConnector c).isSome) :
    orUnchanged sources ((setSourceKey key value sources connector).map (·.2)) =
      setWhere P key value sources := by
  cases hresolve : resolveSourceByConnector sources connector with
  | ok found =>
      obtain ⟨hfound, hconnector⟩ := resolveSourceByConnector_ok hresolve
      have hknown : (findConnector connector).isSome := by
        unfold resolveSourceByConnector at hresolve
        split at hresolve
        · cases hresolve
        · next hspec => rw [hspec]; rfl
      rw [setSourceKey_of_resolve hresolve]
      refine List.map_congr_left fun row hrow => ?_
      by_cases hid : row.id = found.id
      · obtain rfl := hd.eq_of_id hrow hfound hid
        rw [if_pos rfl, if_pos ⟨connector, hconnector, (h connector).mpr ⟨rfl, hknown⟩⟩]
      · rw [if_neg hid, if_neg]
        rintro ⟨c, hc, hP⟩
        obtain ⟨rfl, -⟩ := (h c).mp hP
        exact hid (congrArg Source.id (hd.eq_of_connector hrow hfound hc hconnector))
  | error e =>
      have hrefused : setSourceKey key value sources connector = .error e := by
        rw [setSourceKey, hresolve]
        rfl
      rw [hrefused]
      refine (setWhere_eq_self fun row hrow c hc hP => ?_).symm
      obtain ⟨rfl, hknown⟩ := (h c).mp hP
      obtain ⟨spec, hspec⟩ := Option.isSome_iff_exists.mp hknown
      unfold resolveSourceByConnector at hresolve
      rw [hspec] at hresolve
      dsimp only at hresolve
      split at hresolve
      · next hnone =>
        have := List.find?_eq_none.mp hnone row hrow
        rw [Option.mem_def.mp hc] at this
        simp at this
      · cases hresolve

/-- A request sets its key in the rows that it reaches. -/
theorem commit_eq (hd : Distinct sources) : r.commit isoformat sources =
    setWhere r.Reaches r.key (r.value isoformat) sources := by
  have hsingle : ∀ {r : SettingsRequest} {c : String}, r.named = some c →
      (∀ c, r.admitted c = true) → ∀ c', r.Reaches c' ↔ c = c' ∧ (findConnector c').isSome := by
    intro r c hnamed hadmitted c'
    simp [SettingsRequest.Reaches, hnamed, hadmitted]
  cases r with
  | jobs u =>
      cases u with
      | allIntervals payload | allAutoFetch flag | allEnabled flag =>
          exact setAllSourceKeys_eq _ fun _ => .inl rfl
      | interval c payload | autoFetch c flag | enabled c flag =>
          exact setSourceKey_eq hd _ (hsingle rfl fun _ => rfl)
  | allFetchRanges payload => exact setAllSourceKeys_eq _ fun _ => .inl rfl
  | fetchRange c payload => exact setSourceKey_eq hd _ (hsingle rfl fun _ => rfl)
  | fetchScope c mode =>
      change orUnchanged sources ((setSourceFetchScope sources c mode.modelDump).map (·.2)) = _
      by_cases hallowed : fetchScopeAllowed c mode.modelDump = true
      · have hset : setSourceFetchScope sources c mode.modelDump =
            setSourceKey "fetch_scope" (.dict mode.modelDump.items) sources c := by
          unfold setSourceFetchScope
          rw [if_pos hallowed]
          cases hresolve : resolveSourceByConnector sources c with
          | error e =>
              rw [setSourceKey, hresolve]
              rfl
          | ok found => rfl
        rw [hset]
        refine setSourceKey_eq hd _ fun c' => ?_
        simp only [SettingsRequest.Reaches, SettingsRequest.named, SettingsRequest.admitted,
          Option.some.injEq, reduceCtorEq, false_or]
        constructor
        · rintro ⟨rfl, hknown, -⟩
          exact ⟨rfl, hknown⟩
        · rintro ⟨rfl, hknown⟩
          exact ⟨rfl, hknown, hallowed⟩
      · have hrefused : ∃ e, setSourceFetchScope sources c mode.modelDump = .error e := by
          unfold setSourceFetchScope
          rw [if_neg hallowed]
          cases resolveSourceByConnector sources c with
          | error e => exact ⟨e, rfl⟩
          | ok found => exact ⟨_, rfl⟩
        obtain ⟨e, hrefused⟩ := hrefused
        rw [hrefused]
        refine (setWhere_eq_self fun row _ c' _ hreaches => hallowed ?_).symm
        simp only [SettingsRequest.Reaches, SettingsRequest.named, SettingsRequest.admitted,
          Option.some.injEq, reduceCtorEq, false_or] at hreaches
        obtain ⟨rfl, -, hadmitted⟩ := hreaches
        exact hadmitted

end Requests

/-! ## Any requests -/

section Histories

variable {isoformat : DateTime → String} {sources : List Source} {source row : Source}
  {connector key : String} {r : SettingsRequest} {rs : List SettingsRequest}
  {bool : PyValue → Option Bool} {last : Option SchedulerRun}

/-- The committed sources after the requests, one after another. -/
def afterSettings (isoformat : DateTime → String) (rs : List SettingsRequest)
    (sources : List Source) : List Source :=
  rs.foldl (SettingsRequest.commit isoformat) sources

/-- A row without its settings. -/
def bare (row : Source) : Source :=
  { row with configJson := ⟨[]⟩ }

theorem map_setWhere {α : Type} {P : String → Prop} [DecidablePred P] {value : PyValue}
    {f : Source → α} (hf : ∀ row, f (setConfigKey key value row) = f row) :
    (setWhere P key value sources).map f = sources.map f := by
  rw [setWhere, List.map_map]
  refine List.map_congr_left fun row _ => ?_
  rw [Function.comp_apply]
  split
  · exact hf row
  · rfl

theorem commit_distinct (hd : Distinct sources) : Distinct (r.commit isoformat sources) := by
  rw [commit_eq hd]
  refine hd.map _ (fun row => ?_) fun row => ?_ <;> split <;> rfl

theorem commit_bare (hd : Distinct sources) :
    (r.commit isoformat sources).map bare = sources.map bare := by
  rw [commit_eq hd]
  exact map_setWhere fun _ => rfl

/-- Of the settings of a source that is there, a request changes what it is for. -/
theorem storedSetting_commit (hd : Distinct sources) (hsource : source ∈ sources)
    (hconnector : source.connector = some connector) :
    storedSetting (r.commit isoformat sources) (connector, key) =
      (r.target isoformat (connector, key)).or (storedSetting sources (connector, key)) := by
  have hfind : ∃ found, sources.find? (·.connector = some connector) = some found ∧
      found.connector = some connector := by
    cases hfind : sources.find? (·.connector = some connector) with
    | none =>
        have := List.find?_eq_none.mp hfind source hsource
        simp [hconnector] at this
    | some found => exact ⟨found, rfl, by simpa using List.find?_some hfind⟩
  obtain ⟨found, hfound, hc⟩ := hfind
  have hsame : ∀ row : Source, ((if ∃ c ∈ row.connector, r.Reaches c then
      setConfigKey r.key (r.value isoformat) row else row).connector = some connector) ↔
        row.connector = some connector := by
    intro row
    split <;> rfl
  have hafter : (r.commit isoformat sources).find? (·.connector = some connector) =
      some (if ∃ c ∈ found.connector, r.Reaches c then
        setConfigKey r.key (r.value isoformat) found else found) := by
    rw [commit_eq hd, setWhere, List.find?_map]
    have hpred : ((fun row : Source => decide (row.connector = some connector)) ∘ fun row =>
        if ∃ c ∈ row.connector, r.Reaches c then setConfigKey r.key (r.value isoformat) row
          else row) = fun row => decide (row.connector = some connector) := by
      funext row
      exact decide_eq_decide.mpr (hsame row)
    rw [hpred, hfound]
    rfl
  have hreaches : (∃ c ∈ found.connector, r.Reaches c) ↔ r.Reaches connector := by
    rw [hc]
    simp
  rw [storedSetting, storedSetting, hafter, hfound, Option.bind_some, Option.bind_some,
    SettingsRequest.target]
  by_cases hr : r.Reaches connector
  · rw [if_pos (hreaches.mpr hr), setConfigKey_configJson, Dict.get_set]
    by_cases hkey : key = r.key
    · rw [if_pos hkey, if_pos ⟨hkey.symm, hr⟩]
      rfl
    · rw [if_neg hkey, if_neg fun h => hkey h.1.symm]
      rfl
  · rw [if_neg (fun h => hr (hreaches.mp h)), if_neg fun h => hr h.2]
    rfl

/-- The source of a connector among the sources of distinct connectors. -/
structure Connected (connector : String) (sources : List Source) : Prop where
  distinct : Distinct sources
  found : ∃ source ∈ sources, source.connector = some connector

theorem connected_commit (h : Connected connector sources) :
    Connected connector (r.commit isoformat sources) := by
  obtain ⟨source, hsource, hconnector⟩ := h.found
  refine ⟨commit_distinct h.distinct, ?_⟩
  have hmem : bare source ∈ (r.commit isoformat sources).map bare := by
    rw [commit_bare h.distinct]
    exact List.mem_map_of_mem hsource
  obtain ⟨row, hrow, hsame⟩ := List.mem_map.mp hmem
  exact ⟨row, hrow, (congrArg Source.connector hsame).trans hconnector⟩

/-- A setting holds what the last request for it gave it. -/
theorem storedSetting_afterSettings (h : Connected connector sources) :
    storedSetting (afterSettings isoformat rs sources) (connector, key) =
      (lastWrite (SettingsRequest.target isoformat) rs (connector, key)).or
        (storedSetting sources (connector, key)) :=
  @foldl_eq_lastWrite _ _ _ _ rs (connector, key) _ _ storedSetting (Connected connector)
    (fun _ _ => connected_commit)
    (fun s r hs => by
      obtain ⟨source, hsource, hconnector⟩ := hs.found
      exact storedSetting_commit hs.distinct hsource hconnector) _ h

/-- The filtered fetch scope is only ever stored for a connector that supports it. -/
theorem filtered_scope_is_supported (h : Connected connector sources)
    (hstart : FilteredScope sources connector →
      (findConnector connector).any (·.supportsFetchScope) = true)
    (hfiltered : FilteredScope (afterSettings isoformat rs sources) connector) :
    (findConnector connector).any (·.supportsFetchScope) = true := by
  obtain ⟨items, hitems, hmode⟩ := hfiltered
  rw [storedSetting_afterSettings h] at hitems
  cases hlast : lastWrite (SettingsRequest.target isoformat) rs (connector, "fetch_scope") with
  | none =>
      rw [hlast] at hitems
      exact hstart ⟨items, hitems, hmode⟩
  | some v =>
      rw [hlast] at hitems
      obtain rfl : v = .dict items := Option.some.inj hitems
      obtain ⟨r, -, htarget⟩ := exists_of_lastWrite hlast
      unfold SettingsRequest.target at htarget
      split at htarget
      · next hkey =>
        obtain ⟨hkey, hreaches⟩ := hkey
        have hvalue := Option.some.inj htarget
        cases r with
        | jobs u => cases u <;> simp [SettingsRequest.key, Update.key] at hkey
        | allFetchRanges payload | fetchRange c payload => simp [SettingsRequest.key] at hkey
        | fetchScope c mode =>
            obtain rfl : mode.modelDump.items = items := PyValue.dict.inj hvalue
            have hadmitted : fetchScopeAllowed connector mode.modelDump = true :=
              (hreaches.resolve_left (by simp [SettingsRequest.named])).2.2
            change mode.modelDump.get "mode" = some (.str "filtered") at hmode
            simpa [fetchScopeAllowed, hmode] using hadmitted
      · cases htarget

end Histories

/-! ## A source whose range is set twice -/

theorem filtered_scope_is_supported_solid :
    (findConnector "solid_jobs").any (·.supportsFetchScope) = true :=
  @filtered_scope_is_supported boardIsoformat
    [{ manualSource with connector := some "solid_jobs" }] "solid_jobs"
    [.fetchScope "solid_jobs" .filtered]
    ⟨⟨List.nodup_singleton _, List.nodup_singleton _⟩, _, List.mem_cons_self, rfl⟩
    (fun h => by obtain ⟨items, hitems, -⟩ := h; cases hitems) ⟨_, rfl, rfl⟩

end RecruFlow.Scheduler
