import RecruFlow.Scheduler.SourceRuns
import RecruFlow.Scheduler.StoppedConnector

/-!
# Start-up and the status of the sources

At start-up each registered connector is given a source, unless one of its name
is there, and the runs that an earlier process left open are closed. The status
route reports the settings of a source and its latest run.
-/

namespace RecruFlow.Scheduler

open Db Ingestion

/-! ## The sources -/

def defaultConfigTemplate : List (String × PyValue) :=
  [ ("schedule", .dict [("type", .str "interval"), ("seconds", .int 300)]),
    ("auto_fetch_enabled", .bool true),
    ("connector_enabled", .bool true),
    ("fetch_scope", .dict [("mode", .str "all")]) ]

/-- `since` is the text of a moment seven days before the call. -/
def defaultFetchRange (since : String) : PyValue :=
  .dict [("mode", .str "range"), ("since", .str since), ("until", .none)]

/-- `seed_config_overrides` of the registry. -/
def seedConfigOverrides : String → List (String × PyValue)
  | "pracuj" => [("schedule", intervalSchedule 3600), ("category_filter", .str "it")]
  | "remoteok" => [("schedule", intervalSchedule 120)]
  | "remotive" =>
      [ ("schedule", intervalSchedule 21600),
        ("categories", .list [.str "software-development", .str "devops", .str "qa",
          .str "data"]) ]
  | _ => []

/-- `{**template, "fetch_range": fetch_range, **overrides}` -/
def seedConfig (since connector : String) : Dict :=
  (seedConfigOverrides connector).foldl (fun config item => config.set item.1 item.2)
    (Dict.set ⟨defaultConfigTemplate⟩ "fetch_range" (defaultFetchRange since))

/-- What the database and the clock add to a new source, by connector. -/
structure SeedEnv where
  drawnId : String → Nat
  since : String → String

variable (env : SeedEnv)

def seedSource (connector : String) : Source :=
  { id := env.drawnId connector
    name := connector
    connector := some connector
    configJson := seedConfig (env.since connector) connector
    lastFetchedAt := none }

/-- `INSERT ... ON CONFLICT (name) DO NOTHING` -/
def insertSource (source : Source) (sources : List Source) : List Source :=
  if source.name ∈ sources.map (·.name) then sources else sources ++ [source]

def ensureSourcesExist (sources : List Source) : List Source :=
  connectorRegistry.foldl (fun sources spec => insertSource (seedSource env spec.name) sources)
    sources

def interruptedMessage : String :=
  "interrupted: process restarted while run was in flight"

def reconcileStaleRunningRuns (now : Int) (db : Database) : Nat × Database :=
  ((db.schedulerRuns.filter (·.status = .running)).length,
    { db with
      schedulerRuns := db.schedulerRuns.map fun run =>
        if run.status = .running then run.finishedError now interruptedMessage else run })

/-- The transaction of `lifespan`. -/
def bootDatabase (now : Int) (db : Database) : Database :=
  (reconcileStaleRunningRuns now { db with sources := ensureSourcesExist env db.sources }).2

/-! ## The status -/

variable {env} {sources : List Source} {source : Source} {spec : ConnectorSpec}

theorem insertSource_of_name_mem (h : source.name ∈ sources.map (·.name)) :
    insertSource source sources = sources :=
  if_pos h

theorem prefix_insertSource : sources <+: insertSource source sources := by
  unfold insertSource
  split
  · exact List.prefix_rfl
  · exact List.prefix_append _ _

theorem name_mem_insertSource : source.name ∈ (insertSource source sources).map (·.name) := by
  unfold insertSource
  split
  · assumption
  · simp

theorem prefix_foldl_insertSource (make : ConnectorSpec → Source) (specs : List ConnectorSpec) :
    sources <+: specs.foldl (fun sources spec => insertSource (make spec) sources) sources := by
  induction specs generalizing sources with
  | nil => exact List.prefix_rfl
  | cons spec specs ih => exact prefix_insertSource.trans ih

theorem name_mem_foldl_insertSource {make : ConnectorSpec → Source} {specs : List ConnectorSpec}
    (h : spec ∈ specs) : (make spec).name ∈
      (specs.foldl (fun sources spec => insertSource (make spec) sources) sources).map (·.name) := by
  induction specs generalizing sources with
  | nil => cases h
  | cons other specs ih =>
      rcases List.mem_cons.mp h with rfl | h
      · exact ((prefix_foldl_insertSource make specs).map _).subset name_mem_insertSource
      · exact ih h

/-- Nothing is inserted when every name is taken. -/
theorem foldl_insertSource_eq_self {make : ConnectorSpec → Source} {specs : List ConnectorSpec}
    (h : ∀ spec ∈ specs, (make spec).name ∈ sources.map (·.name)) :
    specs.foldl (fun sources spec => insertSource (make spec) sources) sources = sources := by
  induction specs with
  | nil => rfl
  | cons spec specs ih =>
      rw [List.foldl_cons, insertSource_of_name_mem (h spec List.mem_cons_self)]
      exact ih fun other hother => h other (List.mem_cons_of_mem _ hother)

/-- A second start-up adds nothing. -/
theorem ensureSourcesExist_twice (env' : SeedEnv) :
    ensureSourcesExist env' (ensureSourcesExist env sources) = ensureSourcesExist env sources := by
  refine foldl_insertSource_eq_self fun spec hspec => ?_
  exact @name_mem_foldl_insertSource sources spec (fun spec => seedSource env spec.name) _ hspec

end RecruFlow.Scheduler
