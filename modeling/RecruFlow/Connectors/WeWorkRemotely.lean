import RecruFlow.Connectors.ApiMappings

/-!
# The mapping of We Work Remotely

The items of an RSS feed. The title also names the company, and a salary is a
line in the description.
-/

namespace RecruFlow.Connectors.WeWorkRemotely

open Ingestion

variable (tools : MapTools)

/-- `text.partition(": ")`, or `none` without the separator. -/
def partitionTitle : List Char → Option (List Char × List Char)
  | [] => none
  | ':' :: ' ' :: rest => some ([], rest)
  | c :: rest => (partitionTitle rest).map fun parts => (c :: parts.1, parts.2)

def splitCompanyAndTitle (rawTitle : PyValue) : Except PyError (PyValue × String) :=
  if !rawTitle.truthy then pure (.none, "")
  else
    match rawTitle with
    | .str s =>
        match partitionTitle s.toList with
        | none => pure (.none, s)
        | some (company, jobTitle) =>
            pure (orElse (.str (String.ofList company)) .none, String.ofList jobTitle)
    | _ => throw .attributeError

/-- `<[^>]+>` at the head of a text, and what comes after it. -/
def afterTag (rest : List Char) : Option (List Char) :=
  match rest.takeWhile (· ≠ '>'), rest.dropWhile (· ≠ '>') with
  | _ :: _, _ :: after => some after
  | _, _ => none

theorem length_of_afterTag {rest after : List Char} (h : afterTag rest = some after) :
    after.length < rest.length := by
  unfold afterTag at h
  split at h
  · next hdrop =>
    obtain rfl := Option.some.inj h
    have hlength := (List.dropWhile_sublist (l := rest) (· ≠ '>')).length_le
    rw [hdrop, List.length_cons] at hlength
    omega
  · cases h

/-- `re.sub("<[^>]+>", " ", text)` -/
def stripHtmlTags : List Char → List Char
  | [] => []
  | c :: rest =>
      if c = '<' then
        match h : afterTag rest with
        | some after =>
            have := length_of_afterTag h
            ' ' :: stripHtmlTags after
        | none => c :: stripHtmlTags rest
      else c :: stripHtmlTags rest
termination_by text => text.length

/-- A letter of a pattern, whatever its case; a long s is an s too. -/
def sameLetter (p c : Char) : Bool :=
  c = p || c = p.toUpper || (p = 's' && c = 'ſ')

/-- What follows a pattern of letters at the head of a text. -/
def afterLetters : (pattern text : List Char) → Option (List Char)
  | [], text => some text
  | p :: pattern, c :: text => if sameLetter p c then afterLetters pattern text else none
  | _ :: _, [] => none

/-- The amount of `up to\s+(?:usd|us\$|\$)\s*([\d][\d,]*)` at the head of a text. -/
def ceilingAt (text : List Char) : Option (List Char) := do
  let rest ← afterLetters "up to".toList text
  guard (rest.head?.any Python.isSpace)
  let rest := rest.dropWhile Python.isSpace
  let rest ← ["usd", "us$", "$"].findSome? fun currency => afterLetters currency.toList rest
  let rest := rest.dropWhile Python.isSpace
  guard (rest.head?.any fun c => (tools.digit c).isSome)
  pure (rest.takeWhile fun c => (tools.digit c).isSome || c = ',')

/-- `int(amount.replace(",", ""))`; a text of more than 4300 digits is a `ValueError`. -/
def readAmount (amount : List Char) : PyValue :=
  let digits := amount.filterMap tools.digit
  if digits.length ≤ 4300 then .int (digits.foldl (fun n digit => 10 * n + digit) 0)
  else .none

def parseSalaryCeiling (description : PyValue) : Except PyError PyValue :=
  if !description.truthy then pure .none
  else
    match description with
    | .str s =>
        match (stripHtmlTags s.toList).tails.findSome? (ceilingAt tools) with
        | none => pure .none
        | some amount => pure (readAmount tools amount)
    | _ => throw .typeError

/-- The different places that a record names. -/
def joinLocation (raw : Dict) : PyValue :=
  let parts := [raw.getD "region" .none, raw.getD "country" .none, raw.getD "state" .none]
  -- a value that is no text equals none of the texts collected before it
  joinOrNone <| parts.foldl (fun joined part =>
    if part.truthy && !joined.any (PyValue.str · = part) then joined ++ [tools.str part]
    else joined) []

/-- A date that the parser refuses is left out; what else it raises goes through. -/
def parsePostedAt : PyValue → Except PyError PyValue
  | .str s =>
      if s = "" then pure .none
      else
        match tools.parsedateToDatetime s with
        | .ok parsed => pure (.str (tools.isoformat parsed))
        | .error .valueError | .error .typeError => pure .none
        | .error e => throw e
  | _ => pure .none

/-- `raw_skills.split(",")`, without the empty skills. -/
def splitSkills (rawSkills : PyValue) : Except PyError (List String) :=
  match orElse rawSkills (.str "") with
  | .str s =>
      let skills := (s.toList.splitOn ',').map fun skill => Python.strip (String.ofList skill)
      pure (skills.filter (· ≠ ""))
  | _ => throw .attributeError

def mapOffer (sourceId : Nat) (raw : Dict) : Except PyError Dict := do
  let (company, jobTitle) ← splitCompanyAndTitle (raw.getD "title" .none)
  let ceiling ← parseSalaryCeiling tools (raw.getD "description" .none)
  let salary := normalizeSalary tools .none ceiling (.str "USD")
  let skills ← splitSkills (raw.getD "skills" .none)
  let postedAt ← parsePostedAt tools (raw.getD "pubDate" .none)
  pure
    ⟨[ ("source_id", .int sourceId),
       ("external_id", orElse (raw.getD "guid" .none) .none),
       ("canonical_url", raw.getD "link" .none),
       ("title", .str jobTitle),
       ("company", orElse company (.str "")),
       ("location", joinLocation tools raw),
       ("remote", .bool true),
       ("seniority", .none),
       ("salary_min", salary.min),
       ("salary_max", salary.max),
       ("salary_currency", .str salary.currency),
       ("contract_type", .none),
       ("posted_at", postedAt),
       ("description", raw.getD "description" .none),
       ("industry_tags", industryTags tools (raw.getD "category" .none) skills) ]⟩

end RecruFlow.Connectors.WeWorkRemotely
