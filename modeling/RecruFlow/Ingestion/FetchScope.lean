import RecruFlow.Db.ProfileRepo
import RecruFlow.Db.Session

/-!
# The fetch scope of a source

A filtered source fetches once for each hard skill of the active profile.
-/

namespace RecruFlow.Ingestion

open Db Schemas

inductive FetchScopeMode where
  | all
  | filtered
  deriving DecidableEq, Repr

structure FetchScopeResolution where
  mode : FetchScopeMode
  terms : List String
  blockedReason : Option String
  deriving DecidableEq

def resolveFetchScopeMode (fetchScope : Option PyValue) : FetchScopeMode :=
  match fetchScope with
  | some (.dict items) =>
      if Dict.get ⟨items⟩ "mode" = some (.str "filtered") then .filtered else .all
  | _ => .all

def resolveFetchScope (mode : FetchScopeMode) (profile : Option Profile) : FetchScopeResolution :=
  match mode, profile with
  | .all, _ => ⟨.all, [], none⟩
  | .filtered, none =>
      ⟨.filtered, [], some "fetch scope is 'filtered' but no active profile is set"⟩
  | .filtered, some profile =>
      let terms := hardSkillNames profile
      if terms.isEmpty then
        ⟨.filtered, [],
          some "fetch scope is 'filtered' but the active profile has no starred (hard) skills"⟩
      else ⟨.filtered, terms, none⟩

/-- `Profile(**profile_row.data)`; the data of a row that was just created is `{}`. -/
def activeProfile (db : Database) : Option Profile :=
  (getActiveProfile db).map fun row => row.data.getD .empty

def resolveFetchScopeTerms (config : Dict) (s : Session) :
    Except Raised FetchScopeResolution := do
  match resolveFetchScopeMode (config.get "fetch_scope") with
  | .all => pure (resolveFetchScope .all none)
  | .filtered =>
      let profile ← s.select activeProfile
      pure (resolveFetchScope .filtered profile)

/-- A filtered run that is not blocked has a term to fetch. -/
theorem resolveFetchScope_terms {mode : FetchScopeMode} {profile : Option Profile}
    (h : (resolveFetchScope mode profile).blockedReason = none) :
    (resolveFetchScope mode profile).terms = [] ↔ mode = .all := by
  match mode, profile with
  | .all, _ => exact ⟨fun _ => rfl, fun _ => rfl⟩
  | .filtered, none => cases h
  | .filtered, some profile =>
      simp only [resolveFetchScope] at h ⊢
      split
      · next hempty =>
        rw [if_pos hempty] at h
        cases h
      · next hterms => simpa using hterms

end RecruFlow.Ingestion
