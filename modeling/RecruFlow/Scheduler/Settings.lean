import RecruFlow.Ingestion.Registry

/-!
# Settings updates of a source

Every setting is one key of `config_json`, and an update of it writes the whole
column back as the loaded dictionary with that key replaced. The bulk forms do
the same to every source that has a connector.
-/

namespace RecruFlow.Scheduler

open Db Ingestion

/-- `source.config_json = {**source.config_json, key: value}`. -/
def setConfigKey (key : String) (value : PyValue) (source : Source) : Source :=
  { source with configJson := source.configJson.set key value }

/-- The rows that `select(Source).where(Source.connector.is_not(None))` returns. -/
def connectedSources (sources : List Source) : List Source :=
  sources.filter (·.connector.isSome)

/-- An update of one source: the changed row and the sources after the flush. -/
def setSourceKey (key : String) (value : PyValue) (sources : List Source) (connector : String) :
    Except PyError (Source × List Source) := do
  let source ← resolveSourceByConnector sources connector
  let source := setConfigKey key value source
  pure (source, sources.map fun row => if row.id = source.id then source else row)

/-- An update of every source with a connector. -/
def setAllSourceKeys (key : String) (value : PyValue) (sources : List Source) :
    List Source × List Source :=
  ((connectedSources sources).map (setConfigKey key value),
    sources.map fun row => if row.connector.isSome then setConfigKey key value row else row)

def intervalSchedule (seconds : Int) : PyValue :=
  .dict [("type", .str "interval"), ("seconds", .int seconds)]

def setSourceInterval (sources : List Source) (connector : String) (seconds : Int) :
    Except PyError (Source × List Source) :=
  setSourceKey "schedule" (intervalSchedule seconds) sources connector

def setAllSourceIntervals (sources : List Source) (seconds : Int) : List Source × List Source :=
  setAllSourceKeys "schedule" (intervalSchedule seconds) sources

def setSourceFetchRange (sources : List Source) (connector : String) (fetchRange : Dict) :
    Except PyError (Source × List Source) :=
  setSourceKey "fetch_range" (.dict fetchRange.items) sources connector

def setAllSourceFetchRanges (sources : List Source) (fetchRange : Dict) :
    List Source × List Source :=
  setAllSourceKeys "fetch_range" (.dict fetchRange.items) sources

/-- The check of `set_source_fetch_scope`, made after the source is resolved. -/
def fetchScopeAllowed (connector : String) (fetchScope : Dict) : Bool :=
  fetchScope.get "mode" ≠ some (.str "filtered") ||
    (findConnector connector).any (·.supportsFetchScope)

def setSourceFetchScope (sources : List Source) (connector : String) (fetchScope : Dict) :
    Except PyError (Source × List Source) := do
  let _ ← resolveSourceByConnector sources connector
  if fetchScopeAllowed connector fetchScope then
    setSourceKey "fetch_scope" (.dict fetchScope.items) sources connector
  else .error .fetchScopeNotSupported

def setSourceAutoFetch (sources : List Source) (connector : String) (enabled : Bool) :
    Except PyError (Source × List Source) :=
  setSourceKey "auto_fetch_enabled" (.bool enabled) sources connector

def setAllSourceAutoFetch (sources : List Source) (enabled : Bool) : List Source × List Source :=
  setAllSourceKeys "auto_fetch_enabled" (.bool enabled) sources

def setSourceEnabled (sources : List Source) (connector : String) (enabled : Bool) :
    Except PyError (Source × List Source) :=
  setSourceKey "connector_enabled" (.bool enabled) sources connector

def setAllSourceEnabled (sources : List Source) (enabled : Bool) : List Source × List Source :=
  setAllSourceKeys "connector_enabled" (.bool enabled) sources

section Lemmas

variable {key : String} {value : PyValue} {sources after : List Source} {connector : String}
  {source row : Source}

@[simp] theorem setConfigKey_id : (setConfigKey key value source).id = source.id := rfl

@[simp] theorem setConfigKey_connector :
    (setConfigKey key value source).connector = source.connector := rfl

@[simp] theorem setConfigKey_configJson :
    (setConfigKey key value source).configJson = source.configJson.set key value := rfl

/-- A single update changes the resolved row and no other. -/
theorem setSourceKey_of_resolve (h : resolveSourceByConnector sources connector = .ok row) :
    setSourceKey key value sources connector =
      .ok (setConfigKey key value row,
        sources.map fun r => if r.id = row.id then setConfigKey key value row else r) := by
  rw [setSourceKey, h]
  rfl

theorem setSourceKey_mem (hrow : resolveSourceByConnector sources connector = .ok row)
    (h : setSourceKey key value sources connector = .ok (source, after)) :
    setConfigKey key value row ∈ after := by
  rw [setSourceKey_of_resolve hrow, Except.ok.injEq, Prod.mk.injEq] at h
  rw [← h.2]
  refine List.mem_map.mpr ⟨row, (resolveSourceByConnector_ok hrow).1, ?_⟩
  rw [if_pos rfl]

theorem setAllSourceKeys_mem (hrow : resolveSourceByConnector sources connector = .ok row) :
    setConfigKey key value row ∈ (setAllSourceKeys key value sources).2 := by
  obtain ⟨hmem, hconnector⟩ := resolveSourceByConnector_ok hrow
  refine List.mem_map.mpr ⟨row, hmem, ?_⟩
  rw [if_pos (by rw [hconnector]; rfl)]

theorem setSourceFetchScope_ok {fetchScope : Dict}
    (hrow : resolveSourceByConnector sources connector = .ok row)
    (h : setSourceFetchScope sources connector fetchScope = .ok (source, after)) :
    setSourceKey "fetch_scope" (.dict fetchScope.items) sources connector =
      .ok (source, after) := by
  simp only [setSourceFetchScope, hrow, bind, Except.bind] at h
  split at h
  · exact h
  · cases h

end Lemmas

end RecruFlow.Scheduler
