import RecruFlow.Schemas.Offer
import RecruFlow.Schemas.Profile

/-!
# The rows of the tables

Instants of `timestamptz` columns are microseconds. A row of `match_scores`
also carries what it was computed from, which the table does not store.
-/

namespace RecruFlow.Db

open Schemas

structure Source where
  id : Nat
  name : String
  connector : Option String
  configJson : Dict
  lastFetchedAt : Option Int
  deriving DecidableEq

/-- A row of `offers`; its columns are those of the validated offer and these. -/
structure OfferRow where
  id : Nat
  dedupHash : String
  offer : Offer
  applied : Bool := false
  hide : Bool := false
  notes : Option String := none
  linkOpenedAt : Option Int := none
  rawPayload : Dict
  createdAt : Int
  deriving DecidableEq

inductive ProfileStatus where
  | draft
  | active
  deriving DecidableEq, Repr

structure ProfileRow where
  id : Nat
  name : String
  status : ProfileStatus
  isActive : Bool
  /-- The dumped profile; `none` is the `{}` of a row that was just created. -/
  data : Option Profile
  deriving DecidableEq

structure CVVersion where
  id : Nat
  offerId : Nat
  profileId : Nat
  deriving DecidableEq

structure MatchScore where
  offerId : Nat
  profileId : Nat
  scorePercent : Nat
  rationale : String
  /-- Not a column: the profile data that the score was computed from. -/
  computedFrom : Profile
  deriving DecidableEq

structure Application where
  id : Nat
  offerId : Nat
  profileId : Nat
  cvVersionId : Option Nat
  deriving DecidableEq

/-- Failure types, `open` and `resolved` rows, and the columns that both
dead-letter tables share. -/
inductive FailureType where
  | validationFailed
  | pageFetchFailed
  | runFetchFailed
  | scoringFailed
  | detailFetchBlocked
  deriving DecidableEq, Repr

def FailureType.value : FailureType → String
  | validationFailed => "validation_failed"
  | pageFetchFailed => "page_fetch_failed"
  | runFetchFailed => "run_fetch_failed"
  | scoringFailed => "scoring_failed"
  | detailFetchBlocked => "detail_fetch_blocked"

/-- `FailureType(value)`; `none` is a `ValueError`. -/
def FailureType.ofValue (value : String) : Option FailureType :=
  [validationFailed, pageFetchFailed, runFetchFailed, scoringFailed, detailFetchBlocked].find?
    (·.value = value)

theorem FailureType.ofValue_value (failureType : FailureType) :
    ofValue failureType.value = some failureType := by
  cases failureType <;> decide

inductive FailureStatus where
  | «open»
  | resolved
  | abandoned
  deriving DecidableEq, Repr

structure DeadLetter where
  dedupKey : String
  failureType : String
  errorMessage : String
  rawPayload : Option Dict
  status : FailureStatus
  occurredAt : Int
  resolvedAt : Option Int
  deriving DecidableEq

structure IngestionFailure extends DeadLetter where
  sourceId : Int
  schedulerRunId : Option Nat
  page : Option Nat
  url : Option String
  blockedStatus : Option Nat
  retryCount : Nat
  deriving DecidableEq

structure ScoringFailure extends DeadLetter where
  offerId : Nat
  profileId : Nat
  deriving DecidableEq

inductive RunStatus where
  | running
  | ok
  | error
  deriving DecidableEq, Repr

structure SchedulerRun where
  id : Nat
  sourceId : Nat
  triggerType : String
  status : RunStatus
  fetchedCount : Option Nat := none
  createdCount : Option Nat := none
  warning : Bool := false
  errorMessage : Option String := none
  startedAt : Int
  finishedAt : Option Int := none
  deriving DecidableEq

/-- The tables that the modelled functions read and write. -/
structure Database where
  sources : List Source := []
  offers : List OfferRow := []
  profiles : List ProfileRow := []
  matchScores : List MatchScore := []
  ingestionFailures : List IngestionFailure := []
  scoringFailures : List ScoringFailure := []
  schedulerRuns : List SchedulerRun := []
  cvVersions : List CVVersion := []
  applications : List Application := []
  /-- The sequences behind the `id` columns that the modelled functions fill. -/
  nextOfferId : Nat := 1
  nextProfileId : Nat := 1
  nextSchedulerRunId : Nat := 1
  deriving DecidableEq

end RecruFlow.Db
