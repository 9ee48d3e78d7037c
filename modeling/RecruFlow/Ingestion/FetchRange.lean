import RecruFlow.Python.Value

/-!
# The fetch range of a source
-/

namespace RecruFlow.Ingestion

/-- `_parse_datetime`, the lenient parse of pydantic, is a parameter. -/
def resolveFetchRange (parseDatetime : PyValue → Option DateTime) (fetchRange : Option PyValue) :
    Option DateTime × Option DateTime :=
  match fetchRange with
  | some (.dict items) =>
      if Dict.get ⟨items⟩ "mode" = some (.str "range") then
        (parseDatetime (Dict.getD ⟨items⟩ "since" .none),
          parseDatetime (Dict.getD ⟨items⟩ "until" .none))
      else (none, none)
  | _ => (none, none)

/-- `since is not None and date < since`. -/
def beforeSince (since : Option DateTime) (date : DateTime) : Except PyError Bool :=
  match since with
  | none => .ok false
  | some since => date.lt since

/-- `until is not None and date > until`. -/
def afterUntil (limit : Option DateTime) (date : DateTime) : Except PyError Bool :=
  match limit with
  | none => .ok false
  | some limit => limit.lt date

/-- `(since is not None and date < since) or (until is not None and date > until)`. -/
def outsideRange (since limit : Option DateTime) (date : DateTime) : Except PyError Bool := do
  if ← beforeSince since date then pure true else afterUntil limit date

end RecruFlow.Ingestion
