import RecruFlow.Connectors.PageMappings
import RecruFlow.Connectors.WeWorkRemotely
import RecruFlow.Ingestion.PageWalk

/-!
# Which records can be mapped

Nothing guards the call of `map_offer`: a record that it raises on ends the run.
For each connector the records that it maps are told from the others by what
they hold at the few places where the mapping relies on a type or on a range.
-/

namespace RecruFlow.Connectors

open Ingestion

/-- The connectors of the registry. -/
inductive Board where
  | solidJobs
  | justJoinIt
  | noFluffJobs
  | bulldogjob
  | rocketJobs
  | pracuj
  | remoteOK
  | remotive
  | weWorkRemotely
  deriving DecidableEq

variable (tools : MapTools)

def Board.mapOffer : Board → Nat → Dict → Except PyError Dict
  | .solidJobs => SolidJobs.mapOffer tools
  | .justJoinIt => JustJoinIt.mapOffer tools
  | .noFluffJobs => NoFluffJobs.mapOffer tools
  | .bulldogjob => Bulldogjob.mapOffer tools
  | .rocketJobs => RocketJobs.mapOffer tools
  | .pracuj => Pracuj.mapOffer tools
  | .remoteOK => RemoteOK.mapOffer tools
  | .remotive => Remotive.mapOffer tools
  | .weWorkRemotely => WeWorkRemotely.mapOffer tools

/-- The standard library on plain texts. -/
def acmeMapTools : MapTools :=
  { acmeEnv.text with
    upper := id
    digit := fun _ => none
    fromisoformat := fun _ => none
    parsedateToDatetime := fun _ => .error .valueError
    isoformat := fun _ => "" }

/-- Neither bound of a salary is a `float` that is no number. -/
def finiteBounds (salary : Dict) (low high : String) : Bool :=
  isFinite (salary.getD low .none) && isFinite (salary.getD high .none)

def isText : PyValue → Bool
  | .str _ => true
  | _ => false

/-- A text, or a value that the mapping takes for a missing one. -/
def textOrFalsy (value : PyValue) : Bool :=
  !value.truthy || isText value

/-- Milliseconds since the epoch that fall into the years 1 to 9999. -/
def inEpochRange (q : ℚ) : Bool :=
  (nearestDouble (q / 1000)).any fun seconds => DateTime.inYears (timestampMicros seconds)

/-- A value that is no number is taken for a missing date. -/
def datable : PyValue → Bool
  | .bool b => inEpochRange (if b then 1 else 0)
  | .int i => inEpochRange i
  | .float (.finite q) => inEpochRange q
  | .float _ => false
  | _ => true

/-- The path from a page to its data, as far as it is there, is one of objects. -/
def pageData (raw : Dict) : Option PyValue :=
  match raw.getD "props" (.dict []) with
  | .dict props =>
      match (Dict.mk props).getD "pageProps" (.dict []) with
      | .dict pageProps => some ((Dict.mk pageProps).getD "data" (.dict []))
      | _ => none
  | _ => none

/-- `urlsplit` takes a url. -/
def parsableUrl : PyValue → Bool
  | .str url => (tools.urlsplit url).toBool
  | _ => true

/-- The date parser takes a text, or refuses it with an exception that is caught. -/
def parsableDate : PyValue → Bool
  | .str s =>
      s = "" ||
        match tools.parsedateToDatetime s with
        | .ok _ => true
        | .error e => e = .valueError || e = .typeError
  | _ => true

/-- What a connector relies on in a record. -/
def Board.mappable (board : Board) (raw : Dict) : Bool :=
  match board with
  | .solidJobs | .remotive => true
  | .justJoinIt => finiteBounds (firstEmploymentType raw) "from" "to"
  | .noFluffJobs =>
      finiteBounds (dictOrEmpty (raw.getD "salary" .none)) "from" "to" &&
        datable (raw.getD "posted" .none)
  | .bulldogjob =>
      (pageData raw).any fun data =>
        finiteBounds (pickSalary (jobOf data)).1 "minValue" "maxValue" &&
          (descriptionParts (jobOf data)).all isText
  | .rocketJobs =>
      let salary := dictOrEmpty (raw.getD "baseSalary" .none)
      finiteBounds (dictOrEmpty (salary.getD "value" .none)) "minValue" "maxValue" &&
        parsableUrl tools (postingUrl raw)
  | .pracuj => finiteBounds (Pracuj.salaryOf tools raw).1 "from" "to"
  | .remoteOK => finiteBounds raw "salary_min" "salary_max"
  | .weWorkRemotely =>
      textOrFalsy (raw.getD "title" .none) && textOrFalsy (raw.getD "description" .none) &&
        textOrFalsy (raw.getD "skills" .none) && parsableDate tools (raw.getD "pubDate" .none)

/-! ## Computations that return -/

section Returns

variable {ε α β : Type}

def Returns (x : Except ε α) : Prop :=
  ∃ a, x = .ok a

theorem returns_pure (a : α) : Returns (pure a : Except ε α) :=
  ⟨a, rfl⟩

theorem not_returns_throw (e : ε) : ¬ Returns (throw e : Except ε α) := by
  rintro ⟨a, h⟩
  cases h

theorem returns_bind_iff {x : Except ε α} {f : α → Except ε β} :
    Returns (x >>= f) ↔ ∃ a, x = .ok a ∧ Returns (f a) := by
  cases x with
  | error e => simp [Returns, bind, Except.bind]
  | ok a => simp [Returns, bind, Except.bind]

/-- A part of a computation after which every way leads to its end. -/
theorem returns_bind_of {x : Except ε α} {f : α → Except ε β} {P : Prop}
    (hf : ∀ a, x = .ok a → (Returns (f a) ↔ P)) : Returns (x >>= f) ↔ Returns x ∧ P := by
  rw [returns_bind_iff]
  constructor
  · rintro ⟨a, hx, ha⟩
    exact ⟨⟨a, hx⟩, (hf a hx).mp ha⟩
  · rintro ⟨⟨a, hx⟩, hP⟩
    exact ⟨a, hx, (hf a hx).mpr hP⟩

theorem returns_map_iff {x : Except ε α} {f : α → β} : Returns (f <$> x) ↔ Returns x := by
  cases x with
  | error e => simp [Returns, Functor.map, Except.map]
  | ok a => simp [Returns, Functor.map, Except.map]

/-- The end of a mapping, which nothing can fail any more. -/
theorem returns_pure_iff (a : α) : Returns (pure a : Except ε α) ↔ True :=
  iff_true_intro (returns_pure a)

end Returns

/-! ## The parts of the mappings -/

section Parts

variable {tools} {α : Type} {P : Prop}

theorem returns_toInt_iff {value : PyValue} : Returns (toInt value) ↔ isFinite value = true :=
  toInt_returns_iff

theorem returns_zeroToNone_iff {value : PyValue} :
    Returns (zeroToNone value) ↔ isFinite value = true := by
  rw [← returns_toInt_iff]
  exact returns_map_iff (f := (orElse · .none))

/-- Both bounds of a salary, read one after the other. -/
theorem returns_bounds_iff {read : PyValue → Except PyError PyValue}
    (hread : ∀ {value}, Returns (read value) ↔ isFinite value = true) {salary : Dict}
    {low high : String} {f : PyValue → PyValue → Except PyError α}
    (hf : ∀ a b, Returns (f a b) ↔ P) :
    Returns (read (salary.getD low .none) >>= fun a =>
        read (salary.getD high .none) >>= fun b => f a b) ↔
      finiteBounds salary low high = true ∧ P := by
  rw [returns_bind_of fun a _ => returns_bind_of fun b _ => hf a b, hread, hread, finiteBounds,
    Bool.and_eq_true, and_assoc]

/-- The bounds of a salary decide whether the mapping returns. -/
theorem returns_bounds_only_iff {read : PyValue → Except PyError PyValue}
    (hread : ∀ {value}, Returns (read value) ↔ isFinite value = true) {salary : Dict}
    {low high : String} {f : PyValue → PyValue → α} :
    Returns (read (salary.getD low .none) >>= fun a =>
        read (salary.getD high .none) >>= fun b => (pure (f a b) : Except PyError α)) ↔
      finiteBounds salary low high = true := by
  rw [returns_bounds_iff hread fun _ _ => returns_pure_iff _, and_true]

theorem returns_dated_iff {q : ℚ} :
    Returns (thousandth q >>= fromtimestamp) ↔ inEpochRange q = true := by
  unfold thousandth inEpochRange
  cases nearestDouble (q / 1000) with
  | none =>
    exact iff_of_false (@not_returns_throw _ DateTime PyError.overflowError) Bool.false_ne_true
  | some seconds =>
    simp only [pure_bind, fromtimestamp, Option.any_some]
    cases DateTime.inYears (timestampMicros seconds) with
    | false =>
      rw [if_neg Bool.false_ne_true]
      exact iff_of_false (not_returns_throw _) Bool.false_ne_true
    | true =>
      rw [if_pos rfl]
      exact iff_of_true (returns_pure _) rfl

theorem returns_epoch_iff {value : PyValue} :
    Returns (epochMsToDatetime value) ↔ datable value = true := by
  have hdated : ∀ q, Returns (do
      let d ← fromtimestamp (← thousandth q)
      pure (PyValue.datetime d)) ↔ inEpochRange q = true := by
    intro q
    rw [← returns_dated_iff, ← bind_assoc]
    exact returns_map_iff
  cases value with
  | bool b => exact hdated _
  | int i => exact hdated _
  | float x =>
    cases x with
    | finite q => exact hdated q
    | _ => exact iff_of_false (not_returns_throw _) Bool.false_ne_true
  | _ => exact iff_of_true (returns_pure _) rfl

theorem returns_textPart_iff {value : PyValue} :
    Returns (textPart value) ↔ isText value = true := by
  cases value with
  | str s => exact iff_of_true (returns_pure s) rfl
  | _ => exact iff_of_false (not_returns_throw _) Bool.false_ne_true

theorem returns_mapM_iff {parts : List PyValue} :
    Returns (parts.mapM textPart) ↔ parts.all isText = true := by
  induction parts with
  | nil => exact iff_of_true (returns_pure []) rfl
  | cons part parts ih =>
    rw [List.mapM_cons, List.all_cons, Bool.and_eq_true, ← ih, ← returns_textPart_iff]
    refine returns_bind_of fun text _ => ?_
    exact returns_map_iff

theorem returns_joinParts_iff {parts : List PyValue} :
    Returns (joinParts parts) ↔ parts.all isText = true := by
  unfold joinParts
  cases parts with
  | nil => exact iff_of_true (returns_pure _) rfl
  | cons part parts =>
    rw [if_neg (by simp), ← returns_mapM_iff]
    exact returns_map_iff

theorem returns_getDict_iff {value : PyValue} {key : String} {f : PyValue → Except PyError α} :
    Returns (getDict value key >>= f) ↔
      isDict value = true ∧ Returns (f ((dictOrEmpty value).getD key (.dict []))) := by
  cases value with
  | dict kvs => simp [getDict, isDict, dictOrEmpty]
  | _ => exact iff_of_false (not_returns_throw _) (fun h => Bool.false_ne_true h.1)

theorem returns_iff_toBool {x : Except PyError α} : Returns x ↔ x.toBool = true := by
  cases x with
  | error e => simp [Returns, Except.toBool]
  | ok a => simp [Returns, Except.toBool]

theorem returns_urlparsePath_iff {url : String} :
    Returns (urlparsePath tools url) ↔ (tools.urlsplit url).toBool = true := by
  unfold urlparsePath
  rw [returns_bind_of (P := True), and_true, returns_iff_toBool]
  intro parsed _
  split
  · exact returns_pure_iff _
  · exact returns_pure_iff _

theorem returns_externalId_iff {value : PyValue} :
    Returns (externalIdFromUrl tools value) ↔ parsableUrl tools value = true := by
  cases value with
  | str url =>
    rw [parsableUrl, ← returns_urlparsePath_iff]
    exact returns_map_iff
  | _ => exact iff_of_true (returns_pure _) rfl

theorem returns_splitTitle_iff {value : PyValue} :
    Returns (WeWorkRemotely.splitCompanyAndTitle value) ↔ textOrFalsy value = true := by
  unfold WeWorkRemotely.splitCompanyAndTitle textOrFalsy
  cases htruthy : value.truthy with
  | false => exact iff_of_true (returns_pure _) rfl
  | true =>
    cases value with
    | str s =>
      refine iff_of_true ?_ rfl
      dsimp only
      rw [if_neg (by simp)]
      split
      · exact returns_pure _
      · exact returns_pure _
    | _ => exact iff_of_false (not_returns_throw _) Bool.false_ne_true

theorem returns_ceiling_iff {value : PyValue} :
    Returns (WeWorkRemotely.parseSalaryCeiling tools value) ↔ textOrFalsy value = true := by
  unfold WeWorkRemotely.parseSalaryCeiling textOrFalsy
  cases htruthy : value.truthy with
  | false => exact iff_of_true (returns_pure _) rfl
  | true =>
    cases value with
    | str s =>
      refine iff_of_true ?_ rfl
      dsimp only
      rw [if_neg (by simp)]
      split
      · exact returns_pure _
      · exact returns_pure _
    | _ => exact iff_of_false (not_returns_throw _) Bool.false_ne_true

theorem returns_splitSkills_iff {value : PyValue} :
    Returns (WeWorkRemotely.splitSkills value) ↔ textOrFalsy value = true := by
  unfold WeWorkRemotely.splitSkills textOrFalsy orElse
  cases htruthy : value.truthy with
  | false => exact iff_of_true (returns_pure _) rfl
  | true =>
    cases value with
    | str s => exact iff_of_true (returns_pure _) rfl
    | _ => exact iff_of_false (not_returns_throw _) Bool.false_ne_true

theorem returns_parsePostedAt_iff {value : PyValue} :
    Returns (WeWorkRemotely.parsePostedAt tools value) ↔ parsableDate tools value = true := by
  cases value with
  | str s =>
    unfold WeWorkRemotely.parsePostedAt parsableDate
    dsimp only
    split
    · next hempty => exact iff_of_true (returns_pure _) (by simp [hempty])
    · next hne =>
      rw [decide_eq_false hne, Bool.false_or]
      cases hparsed : tools.parsedateToDatetime s with
      | ok parsed => exact iff_of_true (returns_pure _) rfl
      | error e =>
        cases e with
        | valueError => exact iff_of_true (returns_pure _) rfl
        | typeError => exact iff_of_true (returns_pure _) rfl
        | _ => exact iff_of_false (not_returns_throw _) (by simp)
  | _ => exact iff_of_true (returns_pure _) rfl

end Parts

/-! ## The connectors -/

variable {tools} {sourceId : Nat} {raw : Dict}

theorem SolidJobs.mapOffer_returns : Returns (SolidJobs.mapOffer tools sourceId raw) :=
  returns_pure _

theorem Remotive.mapOffer_returns : Returns (Remotive.mapOffer tools sourceId raw) :=
  returns_pure _

theorem JustJoinIt.mapOffer_returns_iff :
    Returns (JustJoinIt.mapOffer tools sourceId raw) ↔
      finiteBounds (firstEmploymentType raw) "from" "to" = true := by
  unfold JustJoinIt.mapOffer
  exact returns_bounds_only_iff returns_toInt_iff

theorem RemoteOK.mapOffer_returns_iff :
    Returns (RemoteOK.mapOffer tools sourceId raw) ↔
      finiteBounds raw "salary_min" "salary_max" = true := by
  unfold RemoteOK.mapOffer
  exact returns_bounds_only_iff returns_zeroToNone_iff

theorem NoFluffJobs.mapOffer_returns_iff :
    Returns (NoFluffJobs.mapOffer tools sourceId raw) ↔
      finiteBounds (dictOrEmpty (raw.getD "salary" .none)) "from" "to" = true ∧
        datable (raw.getD "posted" .none) = true := by
  unfold NoFluffJobs.mapOffer
  refine returns_bounds_iff returns_toInt_iff fun _ _ => ?_
  rw [returns_bind_of fun _ _ => returns_pure_iff _, and_true, returns_epoch_iff]

theorem Pracuj.mapOffer_returns_iff :
    Returns (Pracuj.mapOffer tools sourceId raw) ↔
      finiteBounds (Pracuj.salaryOf tools raw).1 "from" "to" = true := by
  unfold Pracuj.mapOffer
  exact returns_bounds_only_iff returns_toInt_iff

theorem RocketJobs.mapOffer_returns_iff :
    Returns (RocketJobs.mapOffer tools sourceId raw) ↔
      finiteBounds (dictOrEmpty ((dictOrEmpty (raw.getD "baseSalary" .none)).getD "value" .none))
          "minValue" "maxValue" = true ∧ parsableUrl tools (postingUrl raw) = true := by
  unfold RocketJobs.mapOffer
  refine returns_bounds_iff returns_toInt_iff fun _ _ => ?_
  rw [returns_bind_of fun _ _ => returns_pure_iff _, and_true, returns_externalId_iff]

theorem pageData_eq_some_iff {data : PyValue} :
    pageData raw = some data ↔
      isDict (raw.getD "props" (.dict [])) = true ∧
        isDict ((dictOrEmpty (raw.getD "props" (.dict []))).getD "pageProps" (.dict [])) = true ∧
          (dictOrEmpty ((dictOrEmpty (raw.getD "props" (.dict []))).getD "pageProps"
            (.dict []))).getD "data" (.dict []) = data := by
  unfold pageData
  cases raw.getD "props" (.dict []) with
  | dict props =>
    dsimp only [isDict, dictOrEmpty]
    cases (Dict.mk props).getD "pageProps" (.dict []) with
    | dict pageProps => simp
    | _ => simp
  | _ => simp [isDict]

/-- The path to the job leads through objects, and what is joined are texts. -/
theorem Bulldogjob.mapOffer_returns_iff :
    Returns (Bulldogjob.mapOffer tools sourceId raw) ↔
      ∃ data, pageData raw = some data ∧
        finiteBounds (pickSalary (jobOf data)).1 "minValue" "maxValue" = true ∧
          (descriptionParts (jobOf data)).all isText = true := by
  have hjob : ∀ data, Returns (Bulldogjob.mapJob tools sourceId data) ↔
      finiteBounds (pickSalary (jobOf data)).1 "minValue" "maxValue" = true ∧
        (descriptionParts (jobOf data)).all isText = true := by
    intro data
    refine returns_bounds_iff returns_toInt_iff fun _ _ => ?_
    rw [returns_bind_of fun _ _ => returns_pure_iff _, and_true, returns_joinParts_iff]
  unfold Bulldogjob.mapOffer
  rw [returns_getDict_iff, returns_getDict_iff]
  simp only [pageData_eq_some_iff, hjob]
  constructor
  · rintro ⟨hprops, hpageProps, hmapped⟩
    exact ⟨_, ⟨hprops, hpageProps, rfl⟩, hmapped⟩
  · rintro ⟨data, ⟨hprops, hpageProps, hdata⟩, hmapped⟩
    rw [hdata]
    exact ⟨hprops, hpageProps, hmapped⟩

theorem WeWorkRemotely.mapOffer_returns_iff :
    Returns (WeWorkRemotely.mapOffer tools sourceId raw) ↔
      textOrFalsy (raw.getD "title" .none) = true ∧
        textOrFalsy (raw.getD "description" .none) = true ∧
          textOrFalsy (raw.getD "skills" .none) = true ∧
            parsableDate tools (raw.getD "pubDate" .none) = true := by
  unfold WeWorkRemotely.mapOffer
  rw [← returns_splitTitle_iff, ← @returns_ceiling_iff tools, ← returns_splitSkills_iff,
    ← returns_parsePostedAt_iff]
  refine returns_bind_of fun _ _ => returns_bind_of fun _ _ => returns_bind_of fun _ _ => ?_
  exact returns_map_iff

theorem Board.returns_iff_mappable {board : Board} :
    Returns (board.mapOffer tools sourceId raw) ↔ board.mappable tools raw = true := by
  cases board with
  | solidJobs => exact iff_of_true SolidJobs.mapOffer_returns rfl
  | remotive => exact iff_of_true Remotive.mapOffer_returns rfl
  | justJoinIt => exact JustJoinIt.mapOffer_returns_iff
  | remoteOK => exact RemoteOK.mapOffer_returns_iff
  | pracuj => exact Pracuj.mapOffer_returns_iff
  | noFluffJobs =>
    rw [mappable, Bool.and_eq_true]
    exact NoFluffJobs.mapOffer_returns_iff
  | rocketJobs =>
    rw [mappable, Bool.and_eq_true]
    exact RocketJobs.mapOffer_returns_iff
  | bulldogjob =>
    simp only [mappable, Option.any_eq_true, Bool.and_eq_true]
    exact Bulldogjob.mapOffer_returns_iff
  | weWorkRemotely =>
    simp only [mappable, Bool.and_eq_true, and_assoc]
    exact WeWorkRemotely.mapOffer_returns_iff

/-- A connector maps the records that hold what it relies on, and raises on the others. -/
theorem Board.mapOffer_ok_iff (board : Board) (tools : MapTools) (sourceId : Nat) (raw : Dict) :
    (∃ mapped, board.mapOffer tools sourceId raw = .ok mapped) ↔
      board.mappable tools raw = true :=
  Board.returns_iff_mappable

/-- `{"props": null}`, a page without its properties. -/
def nullProps : Dict := ⟨[("props", .none)]⟩

theorem Bulldogjob.mapOffer_nullProps :
    ¬ ∃ mapped, Board.bulldogjob.mapOffer acmeMapTools 1 nullProps = .ok mapped := by
  rintro ⟨mapped, h⟩
  cases h

/-! ## The runs -/

section Run

variable {env : IngestEnv} {args : RunnerArgs} {Cursor : Type} {fetchPage : FetchPage Cursor}
  {initialCursor : Cursor} {state : RunState}

theorem returns_of_foldlM {records : List Dict} {w w' : Walk}
    (h : records.foldlM (step env args) w = .ok w') :
    ∀ record ∈ records, Returns (args.mapOffer args.sourceId record) := by
  induction records generalizing w with
  | nil => simp
  | cons record records ih =>
    rw [List.foldlM_cons] at h
    obtain ⟨m, hstep, hrest⟩ := bind_ok h
    obtain ⟨mapped, hmapped, -⟩ := step_turned hstep
    exact List.forall_mem_cons.mpr ⟨⟨mapped, hmapped⟩, ih hrest⟩

/-- A run that ends without an exception has met no record that its connector raises on. -/
theorem returns_of_run {result : IngestionResult} {state' : RunState}
    (h : runPaginatedIngestion env args fetchPage initialCursor state = .ok (result, state')) :
    ∀ record ∈ walked env args fetchPage initialCursor state,
      Returns (args.mapOffer args.sourceId record) := by
  rw [runPaginatedIngestion_eq] at h
  have hrecords := @walkFeed_records Cursor env args fetchPage initialCursor state
  cases hwalk : walkFeed env args fetchPage initialCursor state with
  | error raised =>
    rw [hwalk] at h
    cases h
  | ok s =>
    rw [hwalk] at hrecords
    exact returns_of_foldlM hrecords.symm

/-- The same, for a connector of the registry. -/
theorem mappable_of_run {board : Board} {result : IngestionResult} {state' : RunState}
    (hboard : args.mapOffer = board.mapOffer tools)
    (h : runPaginatedIngestion env args fetchPage initialCursor state = .ok (result, state')) :
    ∀ record ∈ walked env args fetchPage initialCursor state,
      board.mappable tools record = true := by
  intro record hrecord
  have hreturns := returns_of_run h record hrecord
  rw [hboard] at hreturns
  exact Board.returns_iff_mappable.mp hreturns

end Run

end RecruFlow.Connectors
