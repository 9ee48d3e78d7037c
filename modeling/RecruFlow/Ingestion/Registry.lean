import RecruFlow.Db.Models

/-!
# The connector registry
-/

namespace RecruFlow.Ingestion

open Db

structure ConnectorSpec where
  name : String
  /-- Whether the connector has a keyword filter, which the filtered fetch scope needs. -/
  supportsFetchScope : Bool

def connectorRegistry : List ConnectorSpec :=
  [ ⟨"solid_jobs", true⟩,
    ⟨"justjoinit", false⟩,
    ⟨"nofluffjobs", false⟩,
    ⟨"bulldogjob", true⟩,
    ⟨"rocket_jobs", false⟩,
    ⟨"pracuj", true⟩,
    ⟨"remoteok", false⟩,
    ⟨"remotive", false⟩,
    ⟨"we_work_remotely", false⟩ ]

def findConnector (connector : String) : Option ConnectorSpec :=
  connectorRegistry.find? (·.name = connector)

def resolveSourceByConnector (sources : List Source) (connector : String) :
    Except PyError Source :=
  match findConnector connector with
  | none => .error .unknownConnector
  | some _ =>
      match sources.find? (·.connector = some connector) with
      | none => .error .sourceNotConfigured
      | some source => .ok source

theorem resolveSourceByConnector_ok {sources : List Source} {connector : String}
    {source : Source} (h : resolveSourceByConnector sources connector = .ok source) :
    source ∈ sources ∧ source.connector = some connector := by
  unfold resolveSourceByConnector at h
  split at h
  · cases h
  · split at h
    · cases h
    · next hfind =>
      obtain rfl := Except.ok.inj h
      exact ⟨List.mem_of_find?_eq_some hfind, by simpa using List.find?_some hfind⟩

end RecruFlow.Ingestion
