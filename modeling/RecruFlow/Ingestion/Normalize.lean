import RecruFlow.Ingestion.Dedup

/-!
# What the mappings of the connectors share

Labels of the job boards are turned into those of the application. The
warnings about labels and currencies are left out, and with them the arguments
that only they read.
-/

namespace RecruFlow.Ingestion

/-- A `datetime` as it is written: its reading, and the offset of an aware one. -/
structure Stamp where
  micros : Int
  offset : Option Int
  deriving DecidableEq

/-- What the standard library does with texts. -/
structure MapTools extends TextTools where
  upper : String → String
  /-- The digit of a character that `\d` matches. -/
  digit : Char → Option Nat
  /-- `datetime.fromisoformat`, without its `ValueError`. -/
  fromisoformat : String → Option Stamp
  parsedateToDatetime : String → Except PyError Stamp
  isoformat : Stamp → String

/-- `value or default`. -/
def orElse (value default : PyValue) : PyValue :=
  if value.truthy then value else default

/-- `value if isinstance(value, dict) else {}`. -/
def dictOrEmpty : PyValue → Dict
  | .dict kvs => ⟨kvs⟩
  | _ => ⟨[]⟩

/-- `value if isinstance(value, list) else []`. -/
def listOrEmpty : PyValue → List PyValue
  | .list xs => xs
  | _ => []

/-- `", ".join(texts) if texts else None`. -/
def joinOrNone (texts : List String) : PyValue :=
  if texts.isEmpty then .none else .str (", ".intercalate texts)

/-- `int(value) if isinstance(value, int | float) else None`. -/
def toInt : PyValue → Except PyError PyValue
  | .bool b => pure (.int (if b then 1 else 0))
  | .int i => pure (.int i)
  | .float x => .int <$> (PyValue.float x).toInt fun _ => none
  | _ => pure .none

/-- Not a `float` that is no number. -/
def isFinite : PyValue → Bool
  | .float (.finite _) => true
  | .float _ => false
  | _ => true

def canonicalSeniorityLevels : List String :=
  ["junior", "mid", "senior", "lead", "expert"]

def seniorityVocab : List (String × List (String × String)) :=
  [ ("solid_jobs",
      [("junior", "junior"), ("regular", "mid"), ("mid", "mid"), ("senior", "senior"),
       ("expert", "expert")]),
    ("justjoinit",
      [("junior", "junior"), ("mid", "mid"), ("senior", "senior"), ("c_level", "lead"),
       ("manager", "lead")]),
    ("nofluffjobs",
      [("trainee", "junior"), ("junior", "junior"), ("mid", "mid"), ("senior", "senior"),
       ("expert", "expert"), ("c-level", "lead")]),
    ("bulldogjob",
      [("junior", "junior"), ("medium", "mid"), ("senior", "senior"), ("lead", "lead")]),
    ("pracuj",
      [("praktykant / praktykantka - stażysta / stażystka", "junior"),
       ("asystent / asystentka", "junior"),
       ("młodszy specjalista / młodsza specjalistka (junior)", "junior"),
       ("specjalista / specjalistka (mid / regular)", "mid"),
       ("starszy specjalista / starsza specjalistka (senior)", "senior"),
       ("ekspert / ekspertka", "expert"),
       ("kierownik / kierowniczka - koordynator / koordynatorka", "lead"),
       ("menedżer / menedżerka", "lead"),
       ("dyrektor / dyrektorka", "lead"),
       ("prezes / prezeska", "lead"),
       ("junior specialist (junior)", "junior"),
       ("specialist (mid / regular)", "mid"),
       ("senior specialist (senior)", "senior"),
       ("manager / supervisor", "lead")]) ]

def remoteStringVocab : List (String × List (String × Bool)) :=
  [ ("justjoinit", [("remote", true), ("hybrid", false), ("office", false)]),
    ("rocket_jobs", [("telecommute", true)]) ]

variable (tools : MapTools)

/-- A label as the vocabularies spell it. -/
def labelOf (s : String) : String :=
  tools.lower (Python.strip s)

def normalizeRemote (sourceName : String) : PyValue → Bool
  | .bool b => b
  | .str s =>
      let vocab := (remoteStringVocab.lookup sourceName).getD []
      (vocab.lookup (labelOf tools s)).getD false
  | _ => false

/-- The level that one label stands for. -/
def canonicalLevel (sourceName : String) : PyValue → Option String
  | .str s =>
      if Python.strip s = "" then none
      else ((seniorityVocab.lookup sourceName).getD []).lookup (labelOf tools s)
  | _ => none

def normalizeSeniority (sourceName : String) (rawValue : PyValue) : PyValue :=
  let items :=
    match rawValue with
    | .none => []
    | .list xs => xs
    | v => [v]
  joinOrNone (items.filterMap (canonicalLevel tools sourceName)).eraseDups

/-- The records of a payload that is their list, or an object that holds it under a key. -/
def extractEnvelopeList (payload : PyValue) (key : String) (allowBareList : Bool) :
    Option (List Dict) :=
  let items : Option (List PyValue) :=
    match payload with
    | .list xs => if allowBareList then some xs else none
    | .dict kvs =>
        match Dict.get ⟨kvs⟩ key with
        | some .none => some []
        | some (.list xs) => some xs
        | _ => none
    | _ => none
  items.map (·.filterMap fun
    | .dict kvs => some ⟨kvs⟩
    | _ => none)

structure Salary where
  min : PyValue
  max : PyValue
  currency : String

def normalizeSalary (salaryMin salaryMax rawCurrency : PyValue) : Salary where
  min := salaryMin
  max := salaryMax
  currency :=
    if rawCurrency.truthy then tools.upper (Python.strip (tools.str rawCurrency)) else "PLN"

variable {tools}

/-- `to_int` raises for the floats that are no numbers only. -/
theorem toInt_returns_iff {value : PyValue} :
    (∃ i, toInt value = .ok i) ↔ isFinite value = true := by
  cases value with
  | float x => cases x <;> simp [toInt, isFinite, PyValue.toInt, Functor.map, Except.map]
  | _ => simp [toInt, isFinite, pure, Except.pure]

/-- A label stands for no level that the application does not have. -/
theorem canonicalLevel_mem {sourceName level : String} {value : PyValue}
    (h : canonicalLevel tools sourceName value = some level) :
    level ∈ canonicalSeniorityLevels := by
  have hvocab : ∀ board ∈ seniorityVocab, ∀ entry ∈ board.2,
      entry.2 ∈ canonicalSeniorityLevels := by
    decide +kernel
  cases value with
  | str s =>
    obtain ⟨-, hlevel⟩ := Option.ite_none_left_eq_some.mp h
    cases hboard : seniorityVocab.lookup sourceName with
    | none =>
      rw [hboard] at hlevel
      cases hlevel
    | some vocab =>
      rw [hboard] at hlevel
      obtain ⟨_, _, hboards, -⟩ := List.lookup_eq_some_iff.mp hboard
      obtain ⟨_, _, hentries, -⟩ := List.lookup_eq_some_iff.mp hlevel
      have hboardMem : (sourceName, vocab) ∈ seniorityVocab := by simp [hboards]
      have hentryMem : (labelOf tools s, level) ∈ vocab := by
        rw [Option.getD_some] at hentries
        simp [hentries]
      exact hvocab _ hboardMem _ hentryMem
  | _ => cases h

end RecruFlow.Ingestion
