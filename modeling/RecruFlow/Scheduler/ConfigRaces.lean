import RecruFlow.Lib.ReadModifyWrite
import RecruFlow.Connectors.Sitemap
import RecruFlow.Scheduler.Settings

/-!
# Concurrent writers of one source's `config_json`

A run keeps the `config_json` it loaded at its start until its last statement
writes the whole column back with its own cursor replaced, and a settings
request does the same with its own key. SQLAlchemy leaves a column out of the
`UPDATE` when the assigned value is `==` to the loaded one.
-/

namespace RecruFlow.Scheduler

open Db Ingestion Lib.Trace Lib.ReadModifyWrite

/-- The transactions that read and write back `config_json`. A run carries what
its listing came to, a request its payload. -/
inductive ConfigWriter where
  | sitemapRun (lastCursor : Option Nat)
  | pracujRun (nextStartPage : Nat)
  | setSourceInterval (seconds : Int)
  | setAllSourceIntervals (seconds : Int)
  | setSourceFetchRange (fetchRange : Dict)
  | setAllSourceFetchRanges (fetchRange : Dict)
  | setSourceFetchScope (fetchScope : Dict)
  | setSourceAutoFetch (enabled : Bool)
  | setAllSourceAutoFetch (enabled : Bool)
  | setSourceEnabled (enabled : Bool)
  | setAllSourceEnabled (enabled : Bool)

namespace ConfigWriter

def key : ConfigWriter → String
  | sitemapRun _ => "sitemap_cursor"
  | pracujRun _ => "listing_page_cursor"
  | setSourceInterval _ | setAllSourceIntervals _ => "schedule"
  | setSourceFetchRange _ | setAllSourceFetchRanges _ => "fetch_range"
  | setSourceFetchScope _ => "fetch_scope"
  | setSourceAutoFetch _ | setAllSourceAutoFetch _ => "auto_fetch_enabled"
  | setSourceEnabled _ | setAllSourceEnabled _ => "connector_enabled"

def value : ConfigWriter → PyValue
  | sitemapRun lastCursor => .int (Connectors.nextSitemapCursor lastCursor)
  | pracujRun nextStartPage => .int nextStartPage
  | setSourceInterval seconds | setAllSourceIntervals seconds => intervalSchedule seconds
  | setSourceFetchRange range | setAllSourceFetchRanges range => .dict range.items
  | setSourceFetchScope scope => .dict scope.items
  | setSourceAutoFetch enabled | setAllSourceAutoFetch enabled => .bool enabled
  | setSourceEnabled enabled | setAllSourceEnabled enabled => .bool enabled

/-- A run refuses a source whose connector is stopped; a request refuses nothing. -/
def guard : ConfigWriter → Dict → Bool
  | sitemapRun _, config | pracujRun _, config =>
      (config.getD "connector_enabled" (.bool true)).truthy
  | _, _ => true

/-- The whole column that the writer sends, given the one it loaded. -/
def apply (w : ConfigWriter) (config : Dict) : Dict :=
  config.set w.key w.value

def update (w : ConfigWriter) : KeyUpdate Dict.view where
  key := w.key
  value := w.value.canon
  guard := w.guard
  apply := w.apply
  get_apply := fun config k => Dict.view_set config w.key w.value k

@[simp] theorem update_key (w : ConfigWriter) : w.update.key = w.key := rfl

/-- What the writer does to the sources when nothing runs beside it. -/
def alone (w : ConfigWriter) (sources : List Source) (connector : String) :
    Except PyError (List Source) :=
  match w with
  | sitemapRun _ | pracujRun _ => do
      let source ← resolveSourceByConnector sources connector
      if w.guard source.configJson then
        Prod.snd <$> setSourceKey w.key w.value sources connector
      else .error .connectorDisabled
  | setSourceInterval seconds => Prod.snd <$> Scheduler.setSourceInterval sources connector seconds
  | setAllSourceIntervals seconds => .ok (Scheduler.setAllSourceIntervals sources seconds).2
  | setSourceFetchRange range => Prod.snd <$> Scheduler.setSourceFetchRange sources connector range
  | setAllSourceFetchRanges range => .ok (Scheduler.setAllSourceFetchRanges sources range).2
  | setSourceFetchScope scope => Prod.snd <$> Scheduler.setSourceFetchScope sources connector scope
  | setSourceAutoFetch enabled =>
      Prod.snd <$> Scheduler.setSourceAutoFetch sources connector enabled
  | setAllSourceAutoFetch enabled => .ok (Scheduler.setAllSourceAutoFetch sources enabled).2
  | setSourceEnabled enabled => Prod.snd <$> Scheduler.setSourceEnabled sources connector enabled
  | setAllSourceEnabled enabled => .ok (Scheduler.setAllSourceEnabled sources enabled).2

private theorem map_snd_ok {α β ε : Type} {x : Except ε (α × β)} {b : β}
    (h : Prod.snd <$> x = .ok b) : ∃ a, x = .ok (a, b) := by
  cases x with
  | error e => cases h
  | ok p => exact ⟨p.1, by rw [← Except.ok.inj h]⟩

/-- Alone, every writer replaces the column of its source by `apply` of it. -/
theorem alone_apply {w : ConfigWriter} {sources after : List Source} {connector : String}
    {row : Source} (hrow : resolveSourceByConnector sources connector = .ok row)
    (h : w.alone sources connector = .ok after) :
    { row with configJson := w.apply row.configJson } ∈ after := by
  change setConfigKey w.key w.value row ∈ after
  cases w with
  | sitemapRun _ | pracujRun _ =>
      simp only [alone, hrow, bind, Except.bind] at h
      split at h
      · obtain ⟨_, hset⟩ := map_snd_ok h
        exact setSourceKey_mem hrow hset
      · cases h
  | setSourceInterval _ | setSourceFetchRange _ | setSourceAutoFetch _ | setSourceEnabled _ =>
      obtain ⟨_, hset⟩ := map_snd_ok h
      exact setSourceKey_mem hrow hset
  | setSourceFetchScope _ =>
      obtain ⟨_, hset⟩ := map_snd_ok h
      exact setSourceKey_mem hrow (setSourceFetchScope_ok hrow hset)
  | setAllSourceIntervals _ | setAllSourceFetchRanges _ | setAllSourceAutoFetch _
  | setAllSourceEnabled _ =>
      obtain rfl := Except.ok.inj h
      exact setAllSourceKeys_mem hrow

end ConfigWriter

section Races

variable {τ : Type} [DecidableEq τ] (writer : τ → ConfigWriter) (config : Dict)

/-- The read, write and commit of any writers on the source, in any order. -/
abbrev race : Cell Dict τ → Event τ → Option (Cell Dict τ) :=
  step fun t => (writer t).update

/-- Every key holds what the last committed writer that set it gave it. -/
abbrev KeepsSettings (s : Cell Dict τ) : Prop :=
  NoLostUpdate (fun t => (writer t).update) config s

/-- The commit of a writer changes no key but its own. -/
def OwnKeyOnly (s : Cell Dict τ) : Event τ → Prop
  | .commit t => ∀ s', race writer s (.commit t) = some s' →
      ∀ k, k ≠ (writer t).key → s'.committed.view k = s.committed.view k
  | _ => True

/-- At the commit of a writer with a change, every other key is still as the
writer loaded it; at the commit of one without, its own key is. -/
abbrev LoadedIsCurrent (s : Cell Dict τ) (e : Event τ) : Prop :=
  Fresh (fun t => (writer t).update) s e

variable {writer config}

theorem ownKeyOnly_of_loadedIsCurrent {s : Cell Dict τ} {e : Event τ}
    (h : LoadedIsCurrent writer s e) : OwnKeyOnly writer s e := by
  cases e with
  | read t => trivial
  | write t => trivial
  | commit t =>
      intro s' hstep k hk
      obtain ⟨_, _, hne⟩ | ⟨t', copy, heq, hphase, _, hcommitted⟩ := step_cases hstep
      · exact absurd rfl (hne t)
      · obtain rfl : t = t' := by injection heq
        rw [hcommitted]
        split
        · next hdirty =>
          have hother := h copy hphase
          rw [if_pos hdirty] at hother
          rw [(writer t).update.get_apply, ConfigWriter.update_key, if_neg hk]
          exact (hother k hk).symm
        · rfl

/-- No update is lost, and no writer changes another's key, exactly when every
writer commits on top of the column it loaded. -/
theorem configJson_no_lost_update_iff {es : List (Event τ)} {s : Cell Dict τ}
    (hrun : exec (race writer) (Cell.init config) es = some s) :
    ((∀ t, Reaches (race writer) (Cell.init config) es t → KeepsSettings writer config t) ∧
      Along (race writer) (OwnKeyOnly writer) (Cell.init config) es) ↔
    Along (race writer) (LoadedIsCurrent writer) (Cell.init config) es := by
  rw [noLostUpdate_iff_fresh hrun, and_iff_left_iff_imp]
  exact Along.mono fun _ _ => ownKeyOnly_of_loadedIsCurrent

/-- The source of a run that a Stop request overtakes. -/
def startedConfig : Dict :=
  ⟨[("connector_enabled", .bool true), ("sitemap_cursor", .int 0)]⟩

def runThenStop : Bool → ConfigWriter
  | false => .sitemapRun (some 20)
  | true => .setSourceEnabled false

def stopDuringRun : List (Event Bool) :=
  [.read false, .read true, .write true, .commit true, .write false, .commit false]

theorem configJson_no_lost_update_iff_stop :
    ((∀ t, Reaches (race runThenStop) (Cell.init startedConfig) stopDuringRun t →
        KeepsSettings runThenStop startedConfig t) ∧
      Along (race runThenStop) (OwnKeyOnly runThenStop) (Cell.init startedConfig)
        stopDuringRun) ↔
    Along (race runThenStop) (LoadedIsCurrent runThenStop) (Cell.init startedConfig)
      stopDuringRun :=
  configJson_no_lost_update_iff (s := _) rfl

/-- A Stop that commits while a run is under way is undone by the run's own
commit: all have finished, and the connector is enabled again. -/
theorem configJson_lost_stop :
    ∃ s, exec (race runThenStop) (Cell.init startedConfig) stopDuringRun = some s ∧
      (∀ t, s.phase t = .finished) ∧
      s.committed.get "connector_enabled" = some (.bool true) ∧
      ¬ KeepsSettings runThenStop startedConfig s := by
  refine ⟨_, rfl, ?_, rfl, fun h => ?_⟩
  · intro t
    cases t <;> rfl
  · have hlost := h "connector_enabled"
    have hheld : (some (PyValue.int 1)) = some (PyValue.int 0) := hlost
    cases hheld

end Races

end RecruFlow.Scheduler
