import Mathlib.Tactic.IntervalCases

/-!
# Minutes of the calendar

The Gregorian calendar, extended in both directions, with minutes counted from
the start of 1970, and the text `YYYY-MM-DDTHH:mm` of a minute.
-/

namespace RecruFlow.Lib.Calendar

/-! ## Years and months -/

/-- The days from the start of 1970 to that of the year. -/
def dayFromYear (year : Int) : Int :=
  365 * (year - 1970) + (year - 1969) / 4 - (year - 1901) / 100 + (year - 1601) / 400

def yearFromDay (day : Int) : Int :=
  let year := 1970 + 400 * day / 146097
  if day < dayFromYear year then year - 1
  else if day < dayFromYear (year + 1) then year
  else year + 1

/-- `1` in a leap year, else `0`. -/
def leapDay (year : Int) : Int :=
  dayFromYear (year + 1) - dayFromYear year - 365

/-- The days of the year ahead of the month; `13` stands for the next year. -/
def dayFromMonth (leapDay : Int) : Nat → Int
  | 1 => 0
  | 2 => 31
  | 3 => 59 + leapDay
  | 4 => 90 + leapDay
  | 5 => 120 + leapDay
  | 6 => 151 + leapDay
  | 7 => 181 + leapDay
  | 8 => 212 + leapDay
  | 9 => 243 + leapDay
  | 10 => 273 + leapDay
  | 11 => 304 + leapDay
  | 12 => 334 + leapDay
  | _ => 365 + leapDay

def monthFromDay (leapDay day : Int) : Nat :=
  if day < 31 then 1
  else if day < 59 + leapDay then 2
  else if day < 90 + leapDay then 3
  else if day < 120 + leapDay then 4
  else if day < 151 + leapDay then 5
  else if day < 181 + leapDay then 6
  else if day < 212 + leapDay then 7
  else if day < 243 + leapDay then 8
  else if day < 273 + leapDay then 9
  else if day < 304 + leapDay then 10
  else if day < 334 + leapDay then 11
  else 12

theorem yearFromDay_spec (day : Int) :
    dayFromYear (yearFromDay day) ≤ day ∧ day < dayFromYear (yearFromDay day + 1) := by
  unfold yearFromDay
  dsimp only
  split
  · next hbefore =>
    rw [Int.sub_add_cancel]
    refine ⟨?_, hbefore⟩
    unfold dayFromYear
    omega
  · next hnot =>
    split
    · next hin => exact ⟨by omega, hin⟩
    · next hafter =>
      unfold dayFromYear at hnot hafter ⊢
      omega

theorem leapDay_le (year : Int) : 0 ≤ leapDay year ∧ leapDay year ≤ 1 := by
  unfold leapDay dayFromYear
  omega

theorem monthFromDay_spec {leapDay day : Int} (hleap : 0 ≤ leapDay ∧ leapDay ≤ 1)
    (hday : 0 ≤ day ∧ day < 365 + leapDay) :
    1 ≤ monthFromDay leapDay day ∧ monthFromDay leapDay day ≤ 12 ∧
      dayFromMonth leapDay (monthFromDay leapDay day) ≤ day ∧
      day < dayFromMonth leapDay (monthFromDay leapDay day + 1) := by
  obtain ⟨hzero, hone⟩ := hleap
  unfold monthFromDay
  repeat' split
  all_goals
    simp only [dayFromMonth]
    omega

theorem daysInMonth_le {leapDay : Int} (hleap : leapDay ≤ 1) {month : Nat}
    (hmonth : 1 ≤ month ∧ month ≤ 12) :
    dayFromMonth leapDay (month + 1) - dayFromMonth leapDay month ≤ 31 := by
  obtain ⟨hfirst, hlast⟩ := hmonth
  interval_cases month <;> simp only [dayFromMonth] <;> omega

/-! ## Minutes -/

structure Minute where
  year : Int
  month : Nat
  day : Nat
  hours : Nat
  minutes : Nat
  deriving DecidableEq

namespace Minute

/-- The minutes from the start of 1970. -/
def count (m : Minute) : Int :=
  (dayFromYear m.year + dayFromMonth (leapDay m.year) m.month + m.day - 1) * 1440 +
    m.hours * 60 + m.minutes

def ofCount (n : Int) : Minute :=
  let day := n / 1440
  let year := yearFromDay day
  let ofYear := day - dayFromYear year
  let month := monthFromDay (leapDay year) ofYear
  { year, month
    day := (ofYear - dayFromMonth (leapDay year) month + 1).toNat
    hours := (n % 1440 / 60).toNat
    minutes := (n % 60).toNat }

/-- The minute is one of the calendar. -/
structure Valid (m : Minute) : Prop where
  month : 1 ≤ m.month ∧ m.month ≤ 12
  day : 1 ≤ m.day ∧
    m.day ≤ dayFromMonth (leapDay m.year) (m.month + 1) - dayFromMonth (leapDay m.year) m.month
  hours : m.hours < 24
  minutes : m.minutes < 60

instance (m : Minute) : Decidable m.Valid :=
  decidable_of_iff ((1 ≤ m.month ∧ m.month ≤ 12) ∧ (1 ≤ m.day ∧
    m.day ≤ dayFromMonth (leapDay m.year) (m.month + 1) - dayFromMonth (leapDay m.year) m.month) ∧
    m.hours < 24 ∧ m.minutes < 60)
    ⟨fun h => ⟨h.1, h.2.1, h.2.2.1, h.2.2.2⟩, fun h => ⟨h.month, h.day, h.hours, h.minutes⟩⟩

theorem month_spec (day : Int) :
    let ofYear := day - dayFromYear (yearFromDay day)
    let month := monthFromDay (leapDay (yearFromDay day)) ofYear
    1 ≤ month ∧ month ≤ 12 ∧ dayFromMonth (leapDay (yearFromDay day)) month ≤ ofYear ∧
      ofYear < dayFromMonth (leapDay (yearFromDay day)) (month + 1) := by
  obtain ⟨hstart, hend⟩ := yearFromDay_spec day
  apply monthFromDay_spec (leapDay_le _)
  unfold leapDay
  omega

theorem ofCount_valid (n : Int) : (ofCount n).Valid := by
  obtain ⟨hfirst, hlast, hstart, hend⟩ := month_spec (n / 1440)
  constructor
  · exact ⟨hfirst, hlast⟩
  · simp only [ofCount]
    omega
  · simp only [ofCount]
    omega
  · simp only [ofCount]
    omega

theorem count_ofCount (n : Int) : (ofCount n).count = n := by
  obtain ⟨hfirst, hlast, hstart, hend⟩ := month_spec (n / 1440)
  simp only [count, ofCount]
  omega

end Minute

/-! ## Texts -/

/-- `text` with zeros ahead of it up to the width. -/
def padStart (width : Nat) (text : String) : String :=
  String.ofList (List.replicate (width - text.length) '0') ++ text

/-- A number of exactly `width` digits, and what follows it. -/
def number (width : Nat) (cs : List Char) : Option (Nat × List Char) :=
  if (cs.take width).length = width ∧ (cs.take width).all Char.isDigit then
    some (Nat.ofDigitChars 10 (cs.take width) 0, cs.drop width)
  else none

def separator (c : Char) : List Char → Option (List Char)
  | [] => none
  | c' :: cs => if c' = c then some cs else none

theorem number_append {width : Nat} {digits rest : List Char} (hlength : digits.length = width)
    (hdigits : ∀ c ∈ digits, c.isDigit) :
    number width (digits ++ rest) = some (Nat.ofDigitChars 10 digits 0, rest) := by
  subst hlength
  rw [number, List.take_left, List.drop_left, if_pos ⟨rfl, List.all_eq_true.mpr hdigits⟩]

theorem number_padStart {width n : Nat} (hwidth : 0 < width) (hn : n < 10 ^ width)
    (rest : List Char) :
    number width ((padStart width (toString n)).toList ++ rest) = some (n, rest) := by
  have htext : (padStart width (toString n)).toList =
      List.replicate (width - (Nat.toDigits 10 n).length) '0' ++ Nat.toDigits 10 n := by
    rw [padStart, String.toList_append, String.toList_ofList, Nat.toString_eq_repr,
      Nat.toList_repr, ← String.length_toList, Nat.toList_repr]
  have hle : (Nat.toDigits 10 n).length ≤ width :=
    (Nat.length_toDigits_le_iff (by decide) hwidth).mpr hn
  rw [htext, number_append]
  · rw [Nat.ofDigitChars_append, Nat.ofDigitChars_replicate_zero, Nat.mul_zero,
      Nat.ofDigitChars_toDigits (by decide) (by decide)]
  · rw [List.length_append, List.length_replicate]
    omega
  · intro c hc
    rcases List.mem_append.mp hc with hzero | hdigit
    · rw [List.eq_of_mem_replicate hzero]
      rfl
    · exact Nat.isDigit_of_mem_toDigits (by decide) (by decide) hdigit

theorem padStart_of_four_digits {n : Nat} (hn : 1000 ≤ n) (hn' : n < 10000) :
    padStart 4 (toString n) = toString n := by
  have hlength : (Nat.toDigits 10 n).length = 4 := by
    have hle : (Nat.toDigits 10 n).length ≤ 4 :=
      (Nat.length_toDigits_le_iff (by decide) (by decide)).mpr hn'
    have hnot : ¬ (Nat.toDigits 10 n).length ≤ 3 := fun hshort =>
      Nat.not_lt.mpr hn ((Nat.length_toDigits_le_iff (by decide) (by decide)).mp hshort)
    omega
  rw [padStart, ← String.length_toList, Nat.toString_eq_repr, Nat.toList_repr, hlength]
  rfl

namespace Minute

/-- The year is not padded. -/
def text (m : Minute) : String :=
  toString m.year ++ "-" ++ padStart 2 (toString m.month) ++ "-" ++
    padStart 2 (toString m.day) ++ "T" ++ padStart 2 (toString m.hours) ++ ":" ++
    padStart 2 (toString m.minutes)

/-- A text of the form `YYYY-MM-DDTHH:mm` for a minute of the calendar. -/
def ofText (text : String) : Option Minute := do
  let (year, cs) ← number 4 text.toList
  let (month, cs) ← separator '-' cs >>= number 2
  let (day, cs) ← separator '-' cs >>= number 2
  let (hours, cs) ← separator 'T' cs >>= number 2
  let (minutes, cs) ← separator ':' cs >>= number 2
  let m : Minute := { year, month, day, hours, minutes }
  if cs = [] ∧ m.Valid then some m else none

theorem ofText_text {m : Minute} (hvalid : m.Valid) (hyear : 1000 ≤ m.year ∧ m.year < 10000) :
    ofText m.text = some m := by
  obtain ⟨year, month, day, hours, minutes⟩ := m
  obtain ⟨n, rfl⟩ := Int.eq_ofNat_of_zero_le (Int.le_trans (by decide) hyear.1)
  have hn : 1000 ≤ n ∧ n < 10000 := by
    dsimp only at hyear
    omega
  have hmonth : month < 10 ^ 2 := Nat.lt_of_le_of_lt hvalid.month.2 (by decide)
  have hday : day < 10 ^ 2 := by
    have hle := Int.le_trans hvalid.day.2 (daysInMonth_le (leapDay_le _).2 hvalid.month)
    dsimp only at hle
    omega
  have hhours : hours < 10 ^ 2 := Nat.lt_trans hvalid.hours (by decide)
  have hminutes : minutes < 10 ^ 2 := Nat.lt_trans hvalid.minutes (by decide)
  have htext : (text ⟨n, month, day, hours, minutes⟩).toList =
      (padStart 4 (toString n)).toList ++ ('-' :: ((padStart 2 (toString month)).toList ++
        ('-' :: ((padStart 2 (toString day)).toList ++ ('T' ::
          ((padStart 2 (toString hours)).toList ++ (':' ::
            ((padStart 2 (toString minutes)).toList ++ [])))))))) := by
    have hyear : toString (n : Int) = toString n := rfl
    rw [padStart_of_four_digits hn.1 hn.2, text, hyear]
    simp [String.toList_append]
  rw [ofText, htext, number_padStart (by decide) hn.2]
  simp only [Option.bind_eq_bind, Option.bind_some, separator, if_true,
    number_padStart (by decide : 0 < 2) hmonth, number_padStart (by decide : 0 < 2) hday,
    number_padStart (by decide : 0 < 2) hhours, number_padStart (by decide : 0 < 2) hminutes]
  exact if_pos ⟨trivial, hvalid⟩

end Minute

end RecruFlow.Lib.Calendar
