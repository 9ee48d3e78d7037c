import Mathlib.Data.Int.Log
import RecruFlow.Ingestion.Normalize
import RecruFlow.Llm.Matcher

/-!
# The mappings of the JSON boards

`map_offer` of the connectors whose records come from an API, each with the
fields that it reads and the defaults that it puts in their place.
-/

namespace RecruFlow.Connectors

open Ingestion

variable (tools : MapTools)

/-- The texts under a key of the entries that have one. -/
def namedTexts (key : String) (entries : List PyValue) : List String :=
  entries.filterMap fun entry =>
    let value := (dictOrEmpty entry).getD key .none
    if value.truthy then some (tools.str value) else none

/-! ## JustJoin.it -/

def firstEmploymentType (raw : Dict) : Dict :=
  match raw.getD "employmentTypes" .none with
  | .list (first :: _) => dictOrEmpty first
  | _ => ⟨[]⟩

def JustJoinIt.mapOffer (sourceId : Nat) (raw : Dict) : Except PyError Dict := do
  let location :=
    match raw.getD "locations" .none with
    | .list (loc :: locs) => .str (", ".intercalate (namedTexts tools "city" (loc :: locs)))
    | _ => orElse (raw.getD "city" .none) .none
  let primary := firstEmploymentType raw
  let slug := raw.getD "slug" .none
  let salary := normalizeSalary tools (← toInt (primary.getD "from" .none))
    (← toInt (primary.getD "to" .none)) (primary.getD "currency" .none)
  pure
    ⟨[ ("source_id", .int sourceId),
       ("external_id", raw.getD "guid" .none),
       ("canonical_url",
         if slug.truthy then .str ("https://justjoin.it/job-offer/" ++ tools.str slug) else .none),
       ("title", orElse (raw.getD "title" .none) (.str "")),
       ("company", orElse (raw.getD "companyName" .none) (.str "")),
       ("location", orElse location .none),
       ("remote", .bool (normalizeRemote tools "justjoinit" (raw.getD "workplaceType" .none))),
       ("seniority", normalizeSeniority tools "justjoinit" (raw.getD "experienceLevel" .none)),
       ("salary_min", salary.min),
       ("salary_max", salary.max),
       ("salary_currency", .str salary.currency),
       ("contract_type", primary.getD "type" .none),
       ("posted_at", raw.getD "publishedAt" .none),
       ("description", .none) ]⟩

/-! ## RemoteOK -/

/-- An id of any type, as text. -/
def textOrNone (value : PyValue) : PyValue :=
  if value = .none then .none else .str (tools.str value)

def zeroToNone (value : PyValue) : Except PyError PyValue := do
  let numeric ← toInt value
  pure (orElse numeric .none)

def RemoteOK.mapOffer (sourceId : Nat) (raw : Dict) : Except PyError Dict := do
  let salary := normalizeSalary tools (← zeroToNone (raw.getD "salary_min" .none))
    (← zeroToNone (raw.getD "salary_max" .none)) (.str "USD")
  let tags := (listOrEmpty (raw.getD "tags" .none)).map fun tag => PyValue.str (tools.str tag)
  pure
    ⟨[ ("source_id", .int sourceId),
       ("external_id", textOrNone tools (raw.getD "id" .none)),
       ("canonical_url", orElse (raw.getD "url" .none) (raw.getD "apply_url" .none)),
       ("title", orElse (raw.getD "position" .none) (.str "")),
       ("company", orElse (raw.getD "company" .none) (.str "")),
       ("location", orElse (raw.getD "location" .none) .none),
       ("remote", .bool true),
       ("seniority", .none),
       ("salary_min", salary.min),
       ("salary_max", salary.max),
       ("salary_currency", .str salary.currency),
       ("contract_type", .none),
       ("posted_at", raw.getD "date" .none),
       ("description", raw.getD "description" .none),
       ("industry_tags", .list tags) ]⟩

/-! ## Remotive -/

/-- A date that has no offset is in UTC; one that cannot be read stays as it is. -/
def normalizePostedAt : PyValue → PyValue
  | .str s =>
      if s = "" then .none
      else
        match tools.fromisoformat s with
        | none => .str s
        | some parsed =>
            .str (tools.isoformat { parsed with offset := some (parsed.offset.getD 0) })
  | _ => .none

/-- The category of a record and its tags, each once. -/
def industryTags (rawCategory : PyValue) (tags : List String) : PyValue :=
  let categoryPrefix := if rawCategory.truthy then [tools.str rawCategory] else []
  .list ((categoryPrefix ++ tags).eraseDups.map .str)

def Remotive.mapOffer (sourceId : Nat) (raw : Dict) : Except PyError Dict := do
  let salary := normalizeSalary tools .none .none (.str "USD")
  let tags := (listOrEmpty (raw.getD "tags" .none)).filterMap fun tag =>
    match tag with
    | .str s => some s
    | _ => none
  pure
    ⟨[ ("source_id", .int sourceId),
       ("external_id", textOrNone tools (raw.getD "id" .none)),
       ("canonical_url", raw.getD "url" .none),
       ("title", orElse (raw.getD "title" .none) (.str "")),
       ("company", orElse (raw.getD "company_name" .none) (.str "")),
       ("location", orElse (raw.getD "candidate_required_location" .none) .none),
       ("remote", .bool true),
       ("seniority", .none),
       ("salary_min", salary.min),
       ("salary_max", salary.max),
       ("salary_currency", .str salary.currency),
       ("contract_type", .none),
       ("posted_at", normalizePostedAt tools (raw.getD "publication_date" .none)),
       ("description", raw.getD "description" .none),
       ("industry_tags", industryTags tools (raw.getD "category" .none) tags) ]⟩

/-! ## SOLID.Jobs -/

def SolidJobs.mapOffer (sourceId : Nat) (raw : Dict) : Except PyError Dict := do
  let rawSalary := dictOrEmpty (raw.getD "salary" .none)
  let location :=
    match raw.getD "locations" .none with
    | .list (loc :: locs) => .str (", ".intercalate ((loc :: locs).map tools.str))
    | _ => .none
  let salary := normalizeSalary tools (rawSalary.getD "from" .none) (rawSalary.getD "to" .none)
    (rawSalary.getD "currency" .none)
  pure
    ⟨[ ("source_id", .int sourceId),
       ("external_id", raw.getD "jobOfferKey" .none),
       ("canonical_url", raw.getD "url" .none),
       ("title", orElse (raw.getD "title" .none) (.str "")),
       ("company", orElse (raw.getD "company" .none) (.str "")),
       ("location", location),
       ("remote", .bool (normalizeRemote tools "solid_jobs" (raw.getD "isRemote" (.bool false)))),
       ("seniority", normalizeSeniority tools "solid_jobs" (raw.getD "experienceLevel" .none)),
       ("salary_min", salary.min),
       ("salary_max", salary.max),
       ("salary_currency", .str salary.currency),
       ("contract_type", rawSalary.getD "employmentType" .none),
       ("posted_at", raw.getD "validFrom" .none),
       ("description", raw.getD "description" .none) ]⟩

/-! ## NoFluffJobs -/

/-- The double nearest to a number, ties to even; `none` beyond the largest one. -/
def nearestDouble (q : ℚ) : Option ℚ :=
  let exponent : Int := max (Int.log 2 |q| - 52) (-1074)
  let r : ℚ := Llm.roundHalfEven (q / 2 ^ exponent) * 2 ^ exponent
  if |r| < 2 ^ 1024 then some r else none

/-- `q / 1000` -/
def thousandth (q : ℚ) : Except PyError PyFloat :=
  match nearestDouble (q / 1000) with
  | some r => pure (.finite r)
  | none => throw .overflowError

/-- The microseconds of a timestamp: its fraction is rounded. -/
def timestampMicros (q : ℚ) : Int :=
  let seconds : Int := if 0 ≤ q then ⌊q⌋ else ⌈q⌉
  seconds * 10 ^ 6 + Llm.roundHalfEven ((nearestDouble ((q - seconds) * 10 ^ 6)).getD 0)

/-- `datetime.fromtimestamp(t, tz=UTC)`. Far outside the range the exception depends on
the platform, and `ValueError` stands for all of them. -/
def fromtimestamp : PyFloat → Except PyError DateTime
  | .finite q =>
      if DateTime.inYears (timestampMicros q) then pure ⟨timestampMicros q, true⟩
      else throw .valueError
  | .nan => throw .valueError
  | .infinity | .negInfinity => throw .overflowError

def epochMsToDatetime (value : PyValue) : Except PyError PyValue :=
  let dated (seconds : Except PyError PyFloat) : Except PyError PyValue := do
    let d ← fromtimestamp (← seconds)
    pure (.datetime d)
  match value with
  | .bool b => dated (thousandth (if b then 1 else 0))
  | .int i => dated (thousandth i)
  | .float (.finite q) => dated (thousandth q)
  | .float x => dated (pure x)
  | _ => pure .none

def joinCities (location : Dict) : PyValue :=
  joinOrNone (namedTexts tools "city" (listOrEmpty (location.getD "places" .none)))

def NoFluffJobs.mapOffer (sourceId : Nat) (raw : Dict) : Except PyError Dict := do
  let location := dictOrEmpty (raw.getD "location" .none)
  let rawSalary := dictOrEmpty (raw.getD "salary" .none)
  let url := raw.getD "url" .none
  let salary := normalizeSalary tools (← toInt (rawSalary.getD "from" .none))
    (← toInt (rawSalary.getD "to" .none)) (rawSalary.getD "currency" .none)
  let postedAt ← epochMsToDatetime (raw.getD "posted" .none)
  pure
    ⟨[ ("source_id", .int sourceId),
       ("external_id", raw.getD "id" .none),
       ("canonical_url",
         if url.truthy then .str ("https://nofluffjobs.com/job/" ++ tools.str url) else .none),
       ("title", orElse (raw.getD "title" .none) (.str "")),
       ("company", orElse (raw.getD "name" .none) (.str "")),
       ("location", joinCities tools location),
       ("remote",
         .bool (normalizeRemote tools "nofluffjobs" (location.getD "fullyRemote" (.bool false)))),
       ("seniority", normalizeSeniority tools "nofluffjobs" (raw.getD "seniority" .none)),
       ("salary_min", salary.min),
       ("salary_max", salary.max),
       ("salary_currency", .str salary.currency),
       ("contract_type", orElse (rawSalary.getD "type" .none) .none),
       ("posted_at", postedAt),
       ("description", .none) ]⟩

end RecruFlow.Connectors
