import Mathlib.Data.Rat.Floor

/-!
# Python values

The values that JSON columns, mapped offers and configuration dictionaries
hold, with the few operations of the language that the modelled functions apply
to them: truth value, `int(...)`, dictionary lookup and update, and the
comparison of datetimes, which raises `TypeError` when only one is aware.
-/

namespace RecruFlow

/-- The exceptions that the modelled functions raise or let through. -/
inductive PyError where
  | typeError
  | valueError
  | overflowError
  | attributeError
  | keyError
  | assertionError
  | database
  | blockedFetch (statusCode : Nat)
  | unknownConnector
  | sourceNotConfigured
  | connectorDisabled
  | fetchScopeNotSupported
  | jobLookup
  | profileNotFound
  | unknownFailureType
  deriving DecidableEq, Repr

/-- A computation that succeeds got through its first part. -/
theorem bind_ok {ε α β : Type} {x : Except ε α} {f : α → Except ε β} {b : β}
    (h : x >>= f = .ok b) : ∃ a, x = .ok a ∧ f a = .ok b := by
  cases x with
  | error e => cases h
  | ok a => exact ⟨a, rfl, h⟩

theorem mapError_ok {ε ε' α : Type} {x : Except ε α} {f : ε → ε'} {a : α}
    (h : x.mapError f = .ok a) : x = .ok a := by
  cases x with
  | error e => cases h
  | ok b => exact congrArg Except.ok (Except.ok.inj h)

/-- A computation that fails does so in its first part or after it. -/
theorem bind_error {ε α β : Type} {x : Except ε α} {f : α → Except ε β} {e : ε}
    (h : x >>= f = .error e) : x = .error e ∨ ∃ a, x = .ok a ∧ f a = .error e := by
  cases x with
  | error e' =>
      injection h with he
      exact .inl (by rw [he])
  | ok a => exact .inr ⟨a, rfl, h⟩

/-- A `float`; JSON text can also spell the three values that are not numbers. -/
inductive PyFloat where
  | finite (q : ℚ)
  | infinity
  | negInfinity
  | nan
  deriving DecidableEq

/-- `x <= 0`; no comparison with a NaN holds. -/
def PyFloat.nonpos : PyFloat → Bool
  | .finite q => q ≤ 0
  | .negInfinity => true
  | .infinity | .nan => false

/-- A `datetime`: an instant in microseconds when aware, else a wall-clock reading. -/
structure DateTime where
  micros : Int
  aware : Bool
  deriving DecidableEq, Repr

namespace DateTime

/-- The years 1 to 9999, in microseconds since the epoch. -/
def inYears (micros : Int) : Bool :=
  -62135596800 * 10 ^ 6 ≤ micros && micros < 253402300800 * 10 ^ 6

/-- `a < b`. -/
def lt (a b : DateTime) : Except PyError Bool :=
  if a.aware = b.aware then .ok (a.micros < b.micros) else .error .typeError

/-- `a >= b`. -/
def ge (a b : DateTime) : Except PyError Bool :=
  if a.aware = b.aware then .ok (b.micros ≤ a.micros) else .error .typeError

theorem lt_eq_ok_iff {a b : DateTime} {less : Bool} :
    a.lt b = .ok less ↔ a.aware = b.aware ∧ decide (a.micros < b.micros) = less := by
  unfold lt
  split
  · next h => simp [h]
  · next h => simp [h]

theorem ge_eq_ok_iff {a b : DateTime} {notLess : Bool} :
    a.ge b = .ok notLess ↔ a.aware = b.aware ∧ decide (b.micros ≤ a.micros) = notLess := by
  unfold ge
  split
  · next h => simp [h]
  · next h => simp [h]

end DateTime

inductive PyValue where
  | none
  | bool (b : Bool)
  | int (i : Int)
  | float (x : PyFloat)
  | str (s : String)
  | datetime (d : DateTime)
  | list (xs : List PyValue)
  | dict (kvs : List (String × PyValue))

namespace PyValue

mutual

/-- Structural equality, as a computation on the nested type. -/
def same : PyValue → PyValue → Bool
  | none, none => true
  | bool a, bool b => a == b
  | int a, int b => a == b
  | float a, float b => a == b
  | str a, str b => a == b
  | datetime a, datetime b => a == b
  | list xs, list ys => sameList xs ys
  | dict xs, dict ys => sameDict xs ys
  | _, _ => false

def sameList : List PyValue → List PyValue → Bool
  | [], [] => true
  | x :: xs, y :: ys => same x y && sameList xs ys
  | _, _ => false

def sameDict : List (String × PyValue) → List (String × PyValue) → Bool
  | [], [] => true
  | (k, x) :: xs, (l, y) :: ys => k == l && (same x y && sameDict xs ys)
  | _, _ => false

end

mutual

theorem same_iff : ∀ v w : PyValue, same v w = true ↔ v = w
  | none, w => by cases w <;> simp [same]
  | bool _, w => by cases w <;> simp [same]
  | int _, w => by cases w <;> simp [same]
  | float _, w => by cases w <;> simp [same]
  | str _, w => by cases w <;> simp [same]
  | datetime _, w => by cases w <;> simp [same]
  | list xs, w => by cases w <;> simp [same, sameList_iff xs]
  | dict xs, w => by cases w <;> simp [same, sameDict_iff xs]

theorem sameList_iff : ∀ xs ys : List PyValue, sameList xs ys = true ↔ xs = ys
  | [], ys => by cases ys <;> simp [sameList]
  | x :: xs, ys => by cases ys <;> simp [sameList, same_iff x, sameList_iff xs]

theorem sameDict_iff : ∀ xs ys : List (String × PyValue), sameDict xs ys = true ↔ xs = ys
  | [], ys => by cases ys <;> simp [sameDict]
  | (k, x) :: xs, ys => by
      cases ys with
      | nil => simp [sameDict]
      | cons y ys =>
          obtain ⟨l, y⟩ := y
          simp [sameDict, same_iff x, sameDict_iff xs, and_assoc]

end

instance : DecidableEq PyValue := fun v w =>
  decidable_of_iff (same v w = true) (same_iff v w)

/-- Insert an item among items sorted by key. -/
def insertByKey (key : String) (value : PyValue) :
    List (String × PyValue) → List (String × PyValue)
  | [] => [(key, value)]
  | (k, v) :: items =>
      if key ≤ k then (key, value) :: (k, v) :: items else (k, v) :: insertByKey key value items

mutual

/-- Two JSON values are `==` exactly when their canonical forms are the same: a
`bool` is its number, a whole `float` its `int`, and a `dict` has no order. -/
def canon : PyValue → PyValue
  | bool b => int (if b then 1 else 0)
  | float (.finite q) => if q.den = 1 then int q.num else float (.finite q)
  | list xs => list (canonList xs)
  | dict kvs => dict (canonDict kvs)
  | v => v

def canonList : List PyValue → List PyValue
  | [] => []
  | x :: xs => canon x :: canonList xs

def canonDict : List (String × PyValue) → List (String × PyValue)
  | [] => []
  | (k, v) :: kvs => insertByKey k (canon v) (canonDict kvs)

end

/-- `bool(v)`. -/
def truthy : PyValue → Bool
  | none => false
  | bool b => b
  | int i => i ≠ 0
  | float x => x ≠ .finite 0
  | str s => s ≠ ""
  | datetime _ => true
  | list xs => !xs.isEmpty
  | dict kvs => !kvs.isEmpty

/-- `int(v)`; `parse` reads the text of an integer literal. -/
def toInt (parse : String → Option Int) : PyValue → Except PyError Int
  | bool b => .ok (if b then 1 else 0)
  | int i => .ok i
  | float (.finite q) => .ok (if 0 ≤ q then ⌊q⌋ else ⌈q⌉)
  | float .nan => .error .valueError
  | float _ => .error .overflowError
  | str s => match parse s with
      | some i => .ok i
      | Option.none => .error .valueError
  | _ => .error .typeError

end PyValue

/-- A `dict` with text keys, in insertion order. -/
structure Dict where
  items : List (String × PyValue)
  deriving DecidableEq

namespace Dict

/-- `d.get(key)`, with `none` for a missing key. -/
def get (d : Dict) (key : String) : Option PyValue :=
  d.items.lookup key

/-- `d.get(key, default)`. -/
def getD (d : Dict) (key : String) (default : PyValue) : PyValue :=
  (d.get key).getD default

def setItem (key : String) (value : PyValue) : List (String × PyValue) → List (String × PyValue)
  | [] => [(key, value)]
  | (k, v) :: items => if k = key then (k, value) :: items else (k, v) :: setItem key value items

/-- `{**d, key: value}`. -/
def set (d : Dict) (key : String) (value : PyValue) : Dict :=
  ⟨setItem key value d.items⟩

private theorem lookup_cons_ite (l k : String) (v : PyValue) (items : List (String × PyValue)) :
    List.lookup k ((l, v) :: items) = if k = l then some v else List.lookup k items := by
  rw [List.lookup_cons]
  by_cases h : k = l
  · simp [h]
  · simp [h, beq_false_of_ne h]

@[simp] theorem get_set (d : Dict) (key : String) (value : PyValue) (k : String) :
    (d.set key value).get k = if k = key then some value else d.get k := by
  obtain ⟨items⟩ := d
  simp only [set, get]
  induction items with
  | nil => simp [setItem, lookup_cons_ite]
  | cons item items ih =>
      obtain ⟨l, v⟩ := item
      rw [setItem]
      split
      · subst l
        simp only [lookup_cons_ite]
        split <;> rfl
      · simp only [lookup_cons_ite, ih]
        split
        · subst k
          rw [if_neg ‹_›]
        · rfl

@[simp] theorem getD_set_self (d : Dict) (key : String) (value default : PyValue) :
    (d.set key value).getD key default = value := by
  simp [getD]

/-- What `d` holds under `key`, up to `==`. -/
def view (d : Dict) (key : String) : Option PyValue :=
  (d.get key).map PyValue.canon

@[simp] theorem view_set (d : Dict) (key : String) (value : PyValue) (k : String) :
    (d.set key value).view k = if k = key then some value.canon else d.view k := by
  rw [view, get_set]
  split <;> rfl

theorem getD_set_ne (d : Dict) {key k : String} (value default : PyValue) (h : k ≠ key) :
    (d.set key value).getD k default = d.getD k default := by
  simp [getD, h]

end Dict

end RecruFlow
