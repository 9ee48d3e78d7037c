import RecruFlow.Connectors.ApiMappings

/-!
# The mappings of the scraped boards

`map_offer` of the connectors whose records are cut out of job pages or of a
feed.
-/

namespace RecruFlow.Connectors

open Ingestion

variable (tools : MapTools)

/-! ## Bulldogjob -/

/-- `value.get(key, {})`, which only a `dict` has. -/
def getDict (value : PyValue) (key : String) : Except PyError PyValue :=
  match value with
  | .dict kvs => pure ((Dict.mk kvs).getD key (.dict []))
  | _ => throw .attributeError

def isDict : PyValue → Bool
  | .dict _ => true
  | _ => false

def joinLocations (job : Dict) : PyValue :=
  joinOrNone (namedTexts tools "cityEn"
    ((listOrEmpty (job.getD "locations" .none)).map fun entry =>
      (dictOrEmpty entry).getD "location" .none))

def pickSalary (job : Dict) : Dict × PyValue :=
  let blocks :=
    [("employmentSalary", "employment"), ("b2bSalary", "b2b"), ("otherSalary", "other")]
  match blocks.find? fun block => isDict (job.getD block.1 .none) with
  | some (key, contractType) => (dictOrEmpty (job.getD key .none), .str contractType)
  | none => (⟨[]⟩, .none)

/-- One part of a join, which raises `TypeError` for anything but a text. -/
def textPart : PyValue → Except PyError String
  | .str s => pure s
  | _ => throw .typeError

/-- `"\n\n".join(parts) if parts else None`. -/
def joinParts (parts : List PyValue) : Except PyError PyValue :=
  if parts.isEmpty then pure .none
  else do
    let texts ← parts.mapM textPart
    pure (.str ("\n\n".intercalate texts))

def descriptionParts (job : Dict) : List PyValue :=
  [job.getD "offer" .none, job.getD "requirements" .none].filter (·.truthy)

/-- The record of the job in the data of its page. -/
def jobOf (data : PyValue) : Dict :=
  dictOrEmpty ((dictOrEmpty data).getD "job" .none)

/-- The fields of an offer, out of the data of its page. -/
def Bulldogjob.mapJob (sourceId : Nat) (data : PyValue) : Except PyError Dict := do
  let job := jobOf data
  let jobId := job.getD "id" .none
  let company := dictOrEmpty (job.getD "company" .none)
  let (rawSalary, contractType) := pickSalary job
  let salary := normalizeSalary tools (← toInt (rawSalary.getD "minValue" .none))
    (← toInt (rawSalary.getD "maxValue" .none)) (rawSalary.getD "currency" .none)
  let description ← joinParts (descriptionParts job)
  pure
    ⟨[ ("source_id", .int sourceId),
       ("external_id", jobId),
       ("canonical_url",
         if jobId.truthy then .str ("https://bulldogjob.com/companies/jobs/" ++ tools.str jobId)
         else .none),
       ("title", orElse (job.getD "position" .none) (.str "")),
       ("company", orElse (company.getD "name" .none) (.str "")),
       ("location", joinLocations tools job),
       ("remote", .bool (normalizeRemote tools "bulldogjob" (job.getD "remote" (.bool false)))),
       ("seniority", normalizeSeniority tools "bulldogjob" (job.getD "experienceLevel" .none)),
       ("salary_min", salary.min),
       ("salary_max", salary.max),
       ("salary_currency", .str salary.currency),
       ("contract_type", contractType),
       ("posted_at", job.getD "publishedAt" .none),
       ("description", description) ]⟩

def Bulldogjob.mapOffer (sourceId : Nat) (raw : Dict) : Except PyError Dict := do
  let pageProps ← getDict (raw.getD "props" (.dict [])) "pageProps"
  let data ← getDict pageProps "data"
  Bulldogjob.mapJob tools sourceId data

/-! ## Rocket Jobs -/

def extractLocation (rawJobLocation : PyValue) : PyValue :=
  let entries :=
    match rawJobLocation with
    | .list xs => xs
    | v => [v]
  joinOrNone (namedTexts tools "addressLocality" (entries.map fun entry =>
    (dictOrEmpty entry).getD "address" .none))

/-- The schemes whose last path segment ends at a semicolon. -/
def usesParams : List String :=
  ["", "ftp", "hdl", "prospero", "http", "imap", "https", "shttp", "rtsp", "rtsps", "rtspu", "sip",
    "sips", "mms", "sftp", "tel"]

/-- What follows the last slash. -/
def lastSegment (path : String) : List Char :=
  (path.toList.reverse.takeWhile (· ≠ '/')).reverse

/-- `urlparse(url).path` -/
def urlparsePath (url : String) : Except PyError String := do
  let parsed ← tools.urlsplit url
  if parsed.scheme ∈ usesParams then
    let parents := (parsed.path.toList.reverse.dropWhile (· ≠ '/')).reverse
    pure (String.ofList (parents ++ (lastSegment parsed.path).takeWhile (· ≠ ';')))
  else pure parsed.path

def externalIdFromUrl : PyValue → Except PyError PyValue
  | .str url => do
      let path ← urlparsePath tools url
      pure (orElse (.str (String.ofList (lastSegment (rstripSlash path)))) .none)
  | _ => pure .none

/-- A text that is not empty. -/
def textOnly : PyValue → PyValue
  | .str s => if s = "" then .none else .str s
  | _ => .none

def postingUrl (raw : Dict) : PyValue :=
  textOnly (orElse (raw.getD "url" .none) (raw.getD "_source_url" .none))

def employmentType : PyValue → PyValue
  | .list xs => orElse (.str (", ".intercalate (xs.map tools.str))) .none
  | v => textOnly v

def RocketJobs.mapOffer (sourceId : Nat) (raw : Dict) : Except PyError Dict := do
  let org := dictOrEmpty (raw.getD "hiringOrganization" .none)
  let baseSalary := dictOrEmpty (raw.getD "baseSalary" .none)
  let value := dictOrEmpty (baseSalary.getD "value" .none)
  let salary := normalizeSalary tools (← toInt (value.getD "minValue" .none))
    (← toInt (value.getD "maxValue" .none)) (baseSalary.getD "currency" .none)
  let canonicalUrl := postingUrl raw
  let contractType := employmentType tools (raw.getD "employmentType" .none)
  let externalId ← externalIdFromUrl tools canonicalUrl
  pure
    ⟨[ ("source_id", .int sourceId),
       ("external_id", externalId),
       ("canonical_url", canonicalUrl),
       ("title", orElse (raw.getD "title" .none) (.str "")),
       ("company", orElse (org.getD "name" .none) (.str "")),
       ("location", extractLocation tools (raw.getD "jobLocation" .none)),
       ("remote", .bool (normalizeRemote tools "rocket_jobs" (raw.getD "jobLocationType" .none))),
       ("seniority",
         normalizeSeniority tools "rocket_jobs" (raw.getD "experienceRequirements" .none)),
       ("salary_min", salary.min),
       ("salary_max", salary.max),
       ("salary_currency", .str salary.currency),
       ("contract_type", contractType),
       ("posted_at", raw.getD "datePosted" .none),
       ("description", orElse (raw.getD "description" .none) .none) ]⟩

/-! ## Pracuj.pl -/

/-- The Polish name of an entry, else its other one. -/
def pracujName (entry : Dict) : PyValue :=
  orElse (entry.getD "pracujPlName" .none) (entry.getD "name" .none)

/-- A salary by the month: the time unit has the id `0`. -/
def isMonthly (entry : Dict) : Bool :=
  let timeUnit := (dictOrEmpty (entry.getD "salary" .none)).getD "timeUnit" .none
  ((dictOrEmpty timeUnit).getD "id" .none).canon = .int 0

/-- `needle in s` -/
def containsText (needle s : String) : Bool :=
  s.toList.tails.any needle.toList.isPrefixOf

def textIfTruthy (value : PyValue) : Option String :=
  if value.truthy then some (tools.str value) else none

/-- The salary block of a contract by the month, one of employment first, and the name
of the contract. -/
def pickMonthlySalary (typesOfContracts : List PyValue) : Dict × PyValue :=
  let entries := (typesOfContracts.filter isDict).map dictOrEmpty
  let named (name : Option String) : PyValue := name.elim .none .str
  match entries.filter isMonthly with
  | [] =>
      let allNames := entries.filterMap fun entry => textIfTruthy tools (pracujName entry)
      (⟨[]⟩, named allNames.head?)
  | first :: others =>
      let isEmployment (entry : Dict) : Bool :=
        containsText "umowa o pracę" (tools.lower (tools.str (entry.getD "pracujPlName" (.str ""))))
      let preferred := ((first :: others).find? isEmployment).getD first
      let name := textIfTruthy tools (pracujName preferred)
      (dictOrEmpty (preferred.getD "salary" .none), named name)

def Pracuj.employmentOf (raw : Dict) : Dict :=
  dictOrEmpty ((dictOrEmpty (raw.getD "attributes" .none)).getD "employment" .none)

def Pracuj.salaryOf (raw : Dict) : Dict × PyValue :=
  pickMonthlySalary tools (listOrEmpty ((Pracuj.employmentOf raw).getD "typesOfContracts" .none))

def Pracuj.mapOffer (sourceId : Nat) (raw : Dict) : Except PyError Dict := do
  let attrs := dictOrEmpty (raw.getD "attributes" .none)
  let employment := Pracuj.employmentOf raw
  let (rawSalary, contractType) := Pracuj.salaryOf tools raw
  let currencyCode := (dictOrEmpty (rawSalary.getD "currency" .none)).getD "code" .none
  let salary := normalizeSalary tools (← toInt (rawSalary.getD "from" .none))
    (← toInt (rawSalary.getD "to" .none)) currencyCode
  let seniorityLabels : PyValue :=
    match employment.getD "positionLevels" .none with
    | .list levels =>
        .list (levels.filterMap fun level =>
          (textIfTruthy tools (pracujName (dictOrEmpty level))).map .str)
    | _ => .none
  let location :=
    match attrs.getD "workplaces" .none with
    | .list (place :: places) =>
        .str (", ".intercalate (namedTexts tools "displayAddress" (place :: places)))
    | _ => .none
  let publicationDetails := dictOrEmpty (raw.getD "publicationDetails" .none)
  pure
    ⟨[ ("source_id", .int sourceId),
       ("external_id", textOrNone tools (raw.getD "jobOfferWebId" .none)),
       ("canonical_url", orElse (attrs.getD "offerAbsoluteUrl" .none) .none),
       ("title", orElse (attrs.getD "jobTitle" .none) (.str "")),
       ("company", orElse (attrs.getD "displayEmployerName" .none) (.str "")),
       ("location", location),
       ("remote",
         .bool (normalizeRemote tools "pracuj" (employment.getD "entirelyRemoteWork" .none))),
       ("seniority", normalizeSeniority tools "pracuj" seniorityLabels),
       ("salary_min", salary.min),
       ("salary_max", salary.max),
       ("salary_currency", .str salary.currency),
       ("contract_type", contractType),
       ("posted_at", publicationDetails.getD "dateOfInitialPublicationUtc" .none),
       ("description", orElse (attrs.getD "description" .none) .none) ]⟩

end RecruFlow.Connectors
