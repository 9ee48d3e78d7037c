import RecruFlow.Lib.Calendar
import RecruFlow.Scheduler.FetchRangeUpdate

/-!
# The fetch range in the settings form

The form shows a stored range as two `datetime-local` texts and sends them back as
instants. The request validator and the runner read the same values in their own way.
-/

namespace RecruFlow.Frontend

open Ingestion Lib.Calendar Scheduler Schemas

/-- A browser in a time zone of one offset. -/
structure Browser where
  /-- Local time less UTC, in milliseconds. -/
  offset : Int
  /-- `new Date(text).getTime()` for the texts that are not local minutes; `none` is `NaN`. -/
  dateOf : String → Option Int

inductive RangeMode where
  | range
  | all
  deriving DecidableEq

structure RangeDraft where
  mode : RangeMode
  since : String
  limit : String

/-- `new Date(t).toISOString()` -/
def toISOString (t : Int) : String :=
  let m := Minute.ofCount (t / 60000)
  let year :=
    if 0 ≤ m.year ∧ m.year ≤ 9999 then padStart 4 (toString m.year)
    else (if m.year < 0 then "-" else "+") ++ padStart 6 (toString m.year.natAbs)
  year ++ "-" ++ padStart 2 (toString m.month) ++ "-" ++ padStart 2 (toString m.day) ++ "T" ++
    padStart 2 (toString m.hours) ++ ":" ++ padStart 2 (toString m.minutes) ++ ":" ++
    padStart 2 (toString (t % 60000 / 1000)) ++ "." ++ padStart 3 (toString (t % 1000)) ++ "Z"

namespace Browser

variable (browser : Browser)

/-- `new Date(text).getTime()`; a date and a time without an offset are local time. -/
def newDate (text : String) : Option Int :=
  match Minute.ofText text with
  | some m => some (m.count * 60000 - browser.offset)
  | none => browser.dateOf text

/-- What `getFullYear`, `getMonth`, `getDate`, `getHours` and `getMinutes` return. -/
def localMinute (t : Int) : Minute :=
  .ofCount ((t + browser.offset) / 60000)

def toDatetimeLocalValue : PyValue → String
  | .str iso =>
      if iso = "" then ""
      else match browser.newDate iso with
        | none => ""
        | some t => (browser.localMinute t).text
  | _ => ""

/-- The outer `none` is the `RangeError` of `toISOString` for an invalid date. -/
def fromDatetimeLocalValue (value : String) : Option (Option String) :=
  if value = "" then some none
  else (browser.newDate value).map fun t => some (toISOString t)

def draftFromFetchRange (fetchRange : Option Dict) : RangeDraft :=
  let bound (name : String) := (fetchRange.bind (·.get name)).getD .none
  { mode := if fetchRange.bind (·.get "mode") = some (.str "all") then .all else .range
    since := browser.toDatetimeLocalValue (bound "since")
    limit := browser.toDatetimeLocalValue (bound "until") }

/-- The body of a range; an `undefined` field is left out of it. -/
def rangeBody (since limit : Option String) : Dict :=
  ⟨("mode", .str "range") :: (since.map fun text => ("since", .str text)).toList ++
    [("until", (limit.map PyValue.str).getD .none)]⟩

/-- The body as it is sent; `none` when it is not. -/
def buildRequest (draft : RangeDraft) : Option Dict :=
  match draft.mode with
  | .all => some ⟨[("mode", .str "all")]⟩
  | .range => do
      let since ← browser.fromDatetimeLocalValue draft.since
      let limit ← browser.fromDatetimeLocalValue draft.limit
      return rangeBody since limit

end Browser

/-- The field of `build_source_status`; what is not a `dict` is no valid response. -/
def reportedFetchRange (configJson : Dict) : Option Dict :=
  match configJson.getD "fetch_range" (.dict []) with
  | .dict items => some ⟨items⟩
  | _ => none

/-! ## Opening and saving -/

namespace Browser

variable (browser : Browser) (datetime : PyValue → Option DateTime)

/-- The minute of local time. -/
def minuteOf (d : DateTime) : Int :=
  (d.micros + browser.offset * 1000) / 60000000

/-- The bounds are the same but for their seconds. -/
def SameBound : Option DateTime → Option DateTime → Prop
  | none, none => True
  | some a, some b => a.aware = b.aware ∧ browser.minuteOf a = browser.minuteOf b
  | _, _ => False

/-- The range that is shown is sent back and accepted, and what is stored then has the bounds
that the source had. -/
def SavedUnchanged (isoformat : DateTime → String) (configJson v : Dict) : Prop :=
  ∃ body request, browser.buildRequest (browser.draftFromFetchRange (some v)) = some body ∧
    FetchRangeUpdateRequest.modelValidate datetime body = .ok (some request) ∧
    let saved := resolveFetchRange datetime (some (.dict (request.modelDump isoformat).items))
    let stored := resolveFetchRange datetime (configJson.get "fetch_range")
    browser.SameBound saved.1 stored.1 ∧ browser.SameBound saved.2 stored.2

/-- What `new Date` makes of a stored bound. -/
def read : PyValue → Option Int
  | .str iso => if iso = "" then none else browser.newDate iso
  | _ => none

/-- The instant of the shown text: the local minute, when its year has four digits. -/
def reread (t : Int) : Option Int :=
  if 1000 ≤ (browser.localMinute t).year ∧ (browser.localMinute t).year < 10000 then
    some ((t + browser.offset) / 60000 * 60000 - browser.offset)
  else browser.newDate (browser.localMinute t).text

/-- Both sides read the bound, the browser as the minute `t`, pydantic as an instant in it. -/
def ReadsAs (bound : PyValue) (t : Int) : Prop :=
  (browser.read bound).bind browser.reread = some t ∧ DateTime.inYears (t * 1000) ∧
    ∃ d, datetime bound = some d ∧ d.aware = true ∧
      browser.minuteOf ⟨t * 1000, true⟩ = browser.minuteOf d

/-- Neither side reads the bound. -/
def Unread (bound : PyValue) : Prop :=
  browser.read bound = none ∧ datetime bound = none

/-- The range is everything, or both sides read its bounds alike. -/
def ReadAlike (v : Dict) : Prop :=
  v.get "mode" = some (.str "all") ∨
    v.get "mode" = some (.str "range") ∧ ∃ since,
      browser.ReadsAs datetime (v.getD "since" .none) since ∧
        (browser.Unread datetime (v.getD "until" .none) ∨
          ∃ limit, browser.ReadsAs datetime (v.getD "until" .none) limit ∧ since ≤ limit)

end Browser

/-- pydantic reads the text of `toISOString` within the years of a `datetime`, and its own. -/
structure ReadsInstant (datetime : PyValue → Option DateTime) (isoformat : DateTime → String)
    (t : Int) : Prop where
  request : datetime (.str (toISOString t)) =
    if DateTime.inYears (t * 1000) then some ⟨t * 1000, true⟩ else none
  stored : DateTime.inYears (t * 1000) →
    datetime (.str (isoformat ⟨t * 1000, true⟩)) = some ⟨t * 1000, true⟩

variable {browser : Browser} {datetime : PyValue → Option DateTime}
  {isoformat : DateTime → String} {configJson v : Dict}

/-! ## What is sent -/

namespace Browser

theorem localMinute_valid (t : Int) : (browser.localMinute t).Valid :=
  Minute.ofCount_valid _

theorem newDate_localMinute (t : Int) :
    browser.newDate (browser.localMinute t).text = browser.reread t := by
  unfold reread
  split
  · next hyear =>
    rw [newDate, Minute.ofText_text (localMinute_valid t) hyear]
    dsimp only
    rw [localMinute, Minute.count_ofCount]
  · rfl

theorem text_ne_empty (m : Minute) : m.text ≠ "" := by
  intro hempty
  have hlength := congrArg String.length hempty
  simp [Minute.text] at hlength

theorem toDatetimeLocalValue_eq (bound : PyValue) :
    browser.toDatetimeLocalValue bound =
      ((browser.read bound).map fun t => (browser.localMinute t).text).getD "" := by
  cases bound with
  | str iso =>
      rw [toDatetimeLocalValue, read]
      split
      · rfl
      · cases browser.newDate iso <;> rfl
  | _ => rfl

/-- A bound that the browser does not read is sent as none, and one that it reads as the
instant of the shown text. -/
theorem fromDatetimeLocalValue_toDatetimeLocalValue (bound : PyValue) :
    browser.fromDatetimeLocalValue (browser.toDatetimeLocalValue bound) =
      match browser.read bound with
      | none => some none
      | some t => (browser.reread t).map fun t => some (toISOString t) := by
  rw [toDatetimeLocalValue_eq]
  cases browser.read bound with
  | none => rfl
  | some t =>
      rw [fromDatetimeLocalValue]
      dsimp only [Option.map_some, Option.getD_some]
      rw [if_neg (text_ne_empty _), newDate_localMinute]

end Browser

/-! ## What is accepted -/

open FetchRangeUpdateRequest in
theorem modelValidate_all :
    modelValidate datetime ⟨[("mode", .str "all")]⟩ = .ok (some .all) :=
  rfl

open FetchRangeUpdateRequest in
theorem modelValidate_rangeBody (since limit : Option String) :
    modelValidate datetime (Browser.rangeBody since limit) =
      match since.mapM fun text => datetime (.str text),
        limit.mapM fun text => datetime (.str text) with
      | some since, some limit => validateRange since limit
      | _, _ => .ok none := by
  cases since <;> cases limit <;> rfl

theorem validateRange_eq_some {since limit : Option DateTime} {request : FetchRangeUpdateRequest}
    (h : FetchRangeUpdateRequest.validateRange since limit = .ok (some request)) :
    ∃ bound, since = some bound ∧ request.since = since ∧ request.limit = limit ∧
      ∀ later ∈ limit, later.lt bound = .ok false := by
  unfold FetchRangeUpdateRequest.validateRange at h
  split at h
  · cases h
  · next bound =>
    obtain rfl := Option.some.inj (Except.ok.inj h)
    exact ⟨bound, rfl, rfl, rfl, fun later hlater => by cases hlater⟩
  · next bound later =>
    split at h
    · next hordered =>
      obtain rfl := Option.some.inj (Except.ok.inj h)
      exact ⟨bound, rfl, rfl, rfl, by simpa using hordered⟩
    · cases hlt : later.lt bound with
      | error e =>
          rw [hlt] at h
          cases h
      | ok less =>
          rw [hlt] at h
          cases Except.ok.inj h

theorem validateRange_of_ordered {since : DateTime} {limit : Option DateTime}
    (h : ∀ later ∈ limit, later.lt since = .ok false) :
    ∃ request, FetchRangeUpdateRequest.validateRange (some since) limit = .ok (some request) ∧
      request.since = some since ∧ request.limit = limit := by
  cases limit with
  | none => exact ⟨_, rfl, rfl, rfl⟩
  | some later =>
      refine ⟨.range since (some later) h, ?_, rfl, rfl⟩
      rw [FetchRangeUpdateRequest.validateRange, dif_pos (h later rfl)]

/-! ## A bound on its way -/

namespace Browser

/-- The bound of the request that pydantic reads from what is sent. -/
def requested (browser : Browser) (datetime : PyValue → Option DateTime) (bound : PyValue) :
    Option (Option DateTime) :=
  browser.fromDatetimeLocalValue (browser.toDatetimeLocalValue bound) >>= fun value =>
    value.mapM fun text => datetime (.str text)

/-- The laws of pydantic hold of the instants that are sent. -/
def ReadsSent (browser : Browser) (datetime : PyValue → Option DateTime)
    (isoformat : DateTime → String) (v : Dict) : Prop :=
  ∀ name t, (browser.read (v.getD name .none)).bind browser.reread = some t →
    ReadsInstant datetime isoformat t

theorem requested_eq (hsent : browser.ReadsSent datetime isoformat v) (name : String) :
    browser.requested datetime (v.getD name .none) =
      match browser.read (v.getD name .none) with
      | none => some none
      | some t => (browser.reread t).bind fun t =>
          if DateTime.inYears (t * 1000) then some (some ⟨t * 1000, true⟩) else none := by
  have hsent := hsent name
  rw [requested, fromDatetimeLocalValue_toDatetimeLocalValue]
  cases hread : browser.read (v.getD name .none) with
  | none => rfl
  | some t =>
      rw [hread, Option.bind_some] at hsent
      dsimp only
      cases hreread : browser.reread t with
      | none => rfl
      | some t' =>
          show (some <$> datetime (.str (toISOString t'))) = _
          rw [(hsent t' hreread).request]
          dsimp only [Option.bind_some]
          split <;> rfl

theorem requested_eq_some_iff (hsent : browser.ReadsSent datetime isoformat v) {name : String}
    {value : Option DateTime} :
    browser.requested datetime (v.getD name .none) = some value ↔
      browser.read (v.getD name .none) = none ∧ value = none ∨
        ∃ t, (browser.read (v.getD name .none)).bind browser.reread = some t ∧
          DateTime.inYears (t * 1000) ∧ value = some ⟨t * 1000, true⟩ := by
  rw [requested_eq hsent]
  cases browser.read (v.getD name .none) with
  | none =>
      constructor
      · intro h
        exact .inl ⟨rfl, (Option.some.inj h).symm⟩
      · intro h
        rcases h with ⟨-, rfl⟩ | ⟨t, ht, -⟩
        · rfl
        · cases ht
  | some t =>
      dsimp only
      rw [Option.bind_eq_some_iff, Option.bind_some]
      constructor
      · intro h
        obtain ⟨t', hreread, h⟩ := h
        obtain ⟨hyears, h⟩ := Option.ite_none_right_eq_some.mp h
        exact .inr ⟨t', hreread, hyears, (Option.some.inj h).symm⟩
      · intro h
        rcases h with ⟨hread, -⟩ | ⟨t', hreread, hyears, rfl⟩
        · cases hread
        · exact ⟨t', hreread, if_pos hyears⟩

/-- What is sent and accepted is read back when it has been stored. -/
theorem readBack_of_requested (hsent : browser.ReadsSent datetime isoformat v)
    (hnone : datetime .none = none) {since limit : Option DateTime}
    {request : FetchRangeUpdateRequest}
    (hsince : browser.requested datetime (v.getD "since" .none) = some since)
    (hlimit : browser.requested datetime (v.getD "until" .none) = some limit)
    (hrequest : request.since = since ∧ request.limit = limit) :
    request.ReadBack datetime isoformat := by
  have hstored {name : String} {value : Option DateTime}
      (hvalue : browser.requested datetime (v.getD name .none) = some value) :
      ∀ d ∈ value, datetime (.str (isoformat d)) = some d := by
    intro d hd
    rcases (requested_eq_some_iff hsent).mp hvalue with ⟨-, rfl⟩ | ⟨t, ht, hyears, rfl⟩
    · cases hd
    · obtain rfl := Option.some.inj hd
      exact (hsent name t ht).stored hyears
  constructor
  · exact hnone
  · rw [hrequest.1]
    exact hstored hsince
  · rw [hrequest.2]
    exact hstored hlimit

theorem buildRequest_range (hmode : v.get "mode" ≠ some (.str "all")) :
    browser.buildRequest (browser.draftFromFetchRange (some v)) =
      (browser.fromDatetimeLocalValue (browser.toDatetimeLocalValue (v.getD "since" .none))).bind
        fun since =>
          (browser.fromDatetimeLocalValue
            (browser.toDatetimeLocalValue (v.getD "until" .none))).bind
          fun limit => some (rangeBody since limit) := by
  have hrange : (browser.draftFromFetchRange (some v)).mode = .range := if_neg hmode
  rw [buildRequest, hrange]
  rfl

/-- Unless everything is fetched, the range is kept when its bounds come through. -/
theorem savedUnchanged_iff_requested (hmode : v.get "mode" ≠ some (.str "all"))
    (hsent : browser.ReadsSent datetime isoformat v) (hnone : datetime .none = none) :
    browser.SavedUnchanged datetime isoformat configJson v ↔
      ∃ since limit, browser.requested datetime (v.getD "since" .none) = some (some since) ∧
        browser.requested datetime (v.getD "until" .none) = some limit ∧
        (∀ later ∈ limit, later.lt since = .ok false) ∧
        browser.SameBound (some since)
          (resolveFetchRange datetime (configJson.get "fetch_range")).1 ∧
        browser.SameBound limit
          (resolveFetchRange datetime (configJson.get "fetch_range")).2 := by
  constructor
  · intro h
    obtain ⟨body, request, hbody, haccept, hsame⟩ := h
    rw [buildRequest_range hmode] at hbody
    obtain ⟨since, hsince, hbody⟩ := Option.bind_eq_some_iff.mp hbody
    obtain ⟨limit, hlimit, hbody⟩ := Option.bind_eq_some_iff.mp hbody
    obtain rfl := Option.some.inj hbody
    rw [modelValidate_rangeBody] at haccept
    split at haccept
    · next since' limit' hreadSince hreadLimit =>
      obtain ⟨bound, rfl, hrequestSince, hrequestLimit, hordered⟩ := validateRange_eq_some haccept
      have hsince : browser.requested datetime (v.getD "since" .none) = some (some bound) :=
        Option.bind_eq_some_iff.mpr ⟨since, hsince, hreadSince⟩
      have hlimit : browser.requested datetime (v.getD "until" .none) = some limit' :=
        Option.bind_eq_some_iff.mpr ⟨limit, hlimit, hreadLimit⟩
      have hback := readBack_of_requested hsent hnone hsince hlimit ⟨hrequestSince, hrequestLimit⟩
      dsimp only at hsame
      rw [resolveFetchRange_modelDump hback, hrequestSince, hrequestLimit] at hsame
      exact ⟨bound, limit', hsince, hlimit, hordered, hsame⟩
    · cases haccept
  · intro h
    obtain ⟨since, limit, hsince, hlimit, hordered, hsame⟩ := h
    obtain ⟨sentSince, hsentSince, hreadSince⟩ := Option.bind_eq_some_iff.mp hsince
    obtain ⟨sentLimit, hsentLimit, hreadLimit⟩ := Option.bind_eq_some_iff.mp hlimit
    obtain ⟨request, hrequest, hrequestSince, hrequestLimit⟩ := validateRange_of_ordered hordered
    have hback := readBack_of_requested hsent hnone hsince hlimit ⟨hrequestSince, hrequestLimit⟩
    refine ⟨rangeBody sentSince sentLimit, request, ?_, ?_, ?_⟩
    · rw [buildRequest_range hmode, hsentSince, Option.bind_some, hsentLimit, Option.bind_some]
    · rw [modelValidate_rangeBody, hreadSince, hreadLimit]
      exact hrequest
    · dsimp only
      rw [resolveFetchRange_modelDump hback, hrequestSince, hrequestLimit]
      exact hsame

/-- What is reported has the bounds of what is stored, a missing range among them. -/
theorem resolveFetchRange_reported (hreported : reportedFetchRange configJson = some v) :
    resolveFetchRange datetime (configJson.get "fetch_range") =
      if v.get "mode" = some (.str "range") then
        (datetime (v.getD "since" .none), datetime (v.getD "until" .none))
      else (none, none) := by
  unfold reportedFetchRange Dict.getD at hreported
  cases hstored : configJson.get "fetch_range" with
  | none =>
      rw [hstored] at hreported
      obtain rfl := Option.some.inj hreported
      rfl
  | some value =>
      rw [hstored] at hreported
      cases value with
      | dict items =>
          obtain rfl := Option.some.inj hreported
          rfl
      | _ => cases hreported

theorem savedUnchanged_all (hmode : v.get "mode" = some (.str "all"))
    (hreported : reportedFetchRange configJson = some v) :
    browser.SavedUnchanged datetime isoformat configJson v := by
  have hdraft : (browser.draftFromFetchRange (some v)).mode = .all := if_pos hmode
  refine ⟨_, _, ?_, modelValidate_all, ?_⟩
  · rw [buildRequest, hdraft]
  · rw [resolveFetchRange_reported hreported, if_neg]
    · exact ⟨trivial, trivial⟩
    · rw [hmode]
      decide

theorem lt_eq_ok_false_iff {s t : Int} :
    DateTime.lt ⟨t, true⟩ ⟨s, true⟩ = .ok false ↔ s ≤ t := by
  rw [DateTime.lt_eq_ok_iff]
  simp

theorem readsAs_iff {name : String} {t : Int} :
    browser.ReadsAs datetime (v.getD name .none) t ↔
      (browser.read (v.getD name .none)).bind browser.reread = some t ∧
        DateTime.inYears (t * 1000) ∧
        browser.SameBound (some ⟨t * 1000, true⟩) (datetime (v.getD name .none)) := by
  refine and_congr_right fun _ => and_congr_right fun _ => ?_
  cases datetime (v.getD name .none) with
  | none =>
      constructor
      · intro h
        obtain ⟨d, hd, -⟩ := h
        cases hd
      · exact False.elim
  | some d =>
      constructor
      · intro h
        obtain ⟨d', hd, haware, hminute⟩ := h
        obtain rfl := Option.some.inj hd
        exact ⟨haware.symm, hminute⟩
      · intro h
        exact ⟨d, rfl, h.1.symm, h.2⟩

theorem sameBound_none_iff {bound : Option DateTime} :
    browser.SameBound none bound ↔ bound = none := by
  cases bound with
  | none => exact ⟨fun _ => rfl, fun _ => trivial⟩
  | some d => exact ⟨False.elim, fun h => by cases h⟩

/-- The range is kept exactly when it is everything, or the browser and pydantic read its
bounds alike. -/
theorem savedUnchanged_iff_readAlike (hreported : reportedFetchRange configJson = some v)
    (hnone : datetime .none = none) (hsent : browser.ReadsSent datetime isoformat v) :
    browser.SavedUnchanged datetime isoformat configJson v ↔ browser.ReadAlike datetime v := by
  by_cases hall : v.get "mode" = some (.str "all")
  · exact ⟨fun _ => .inl hall, fun _ => savedUnchanged_all hall hreported⟩
  rw [savedUnchanged_iff_requested hall hsent hnone, resolveFetchRange_reported hreported]
  constructor
  · intro h
    obtain ⟨since, limit, hsince, hlimit, hordered, hsameSince, hsameLimit⟩ := h
    have hrange : v.get "mode" = some (.str "range") := by
      by_contra hother
      rw [if_neg hother] at hsameSince
      exact hsameSince
    rw [if_pos hrange] at hsameSince hsameLimit
    refine .inr ⟨hrange, ?_⟩
    rcases (requested_eq_some_iff hsent).mp hsince with ⟨-, hno⟩ | ⟨t, ht, hyears, heq⟩
    · cases hno
    obtain rfl := Option.some.inj heq
    refine ⟨t, readsAs_iff.mpr ⟨ht, hyears, hsameSince⟩, ?_⟩
    rcases (requested_eq_some_iff hsent).mp hlimit with ⟨hunread, rfl⟩ | ⟨u, hu, huyears, rfl⟩
    · exact .inl ⟨hunread, sameBound_none_iff.mp hsameLimit⟩
    · refine .inr ⟨u, readsAs_iff.mpr ⟨hu, huyears, hsameLimit⟩, ?_⟩
      have hle := lt_eq_ok_false_iff.mp (hordered _ rfl)
      omega
  · intro h
    obtain ⟨hrange, t, hsince, hlimit⟩ := h.resolve_left hall
    obtain ⟨ht, hyears, hsameSince⟩ := readsAs_iff.mp hsince
    have hrequested := (requested_eq_some_iff hsent).mpr (.inr ⟨t, ht, hyears, rfl⟩)
    rw [if_pos hrange]
    rcases hlimit with hunread | ⟨u, hlimit, hle⟩
    · have hrequestedLimit := (requested_eq_some_iff hsent).mpr (.inl ⟨hunread.1, rfl⟩)
      refine ⟨_, none, hrequested, hrequestedLimit, ?_, hsameSince,
        sameBound_none_iff.mpr hunread.2⟩
      intro later hlater
      cases hlater
    · obtain ⟨hu, huyears, hsameLimit⟩ := readsAs_iff.mp hlimit
      have hrequestedLimit := (requested_eq_some_iff hsent).mpr (.inr ⟨u, hu, huyears, rfl⟩)
      refine ⟨_, _, hrequested, hrequestedLimit, ?_, hsameSince, hsameLimit⟩
      intro later hlater
      obtain rfl := Option.some.inj hlater
      exact lt_eq_ok_false_iff.mpr (by omega)

/-- A browser two hours ahead of UTC. -/
def warsaw : Browser where
  offset := 7200000
  dateOf text := if text = "2026-07-01T10:15:30Z" then some 1782900930000 else none

def warsawDatetime : PyValue → Option DateTime
  | .str "2026-07-01T10:15:30Z" => some ⟨1782900930000000, true⟩
  | .str "2026-07-01T10:15:00.000Z" => some ⟨1782900900000000, true⟩
  | .str "2026-07-01T10:15:00Z" => some ⟨1782900900000000, true⟩
  | _ => none

def sinceJuly : Dict :=
  ⟨[("mode", .str "range"), ("since", .str "2026-07-01T10:15:30Z"), ("until", .none)]⟩

theorem savedUnchanged_iff_readAlike_july :
    warsaw.SavedUnchanged warsawDatetime (fun _ => "2026-07-01T10:15:00Z")
      ⟨[("fetch_range", .dict sinceJuly.items)]⟩ sinceJuly := by
  have hsent : warsaw.ReadsSent warsawDatetime (fun _ => "2026-07-01T10:15:00Z") sinceJuly := by
    intro name t ht
    by_cases hsince : name = "since"
    · subst hsince
      obtain rfl : 1782900900000 = t := Option.some.inj (Eq.trans (by decide +kernel) ht)
      exact ⟨by decide +kernel, fun _ => rfl⟩
    · -- the browser reads no other field
      have hread : warsaw.read (sinceJuly.getD name .none) = none := by
        by_cases hmode : name = "mode"
        · subst hmode
          decide +kernel
        · by_cases huntil : name = "until"
          · subst huntil
            rfl
          · simp [Dict.getD, Dict.get, sinceJuly, List.lookup_cons, beq_false_of_ne hsince,
              beq_false_of_ne hmode, beq_false_of_ne huntil, read]
      rw [hread] at ht
      cases ht
  refine (savedUnchanged_iff_readAlike rfl rfl hsent).mpr (.inr ⟨rfl, 1782900900000, ?_, .inl ?_⟩)
  · exact ⟨by decide +kernel, by decide, _, rfl, rfl, by decide⟩
  · exact ⟨rfl, rfl⟩

/-- A source without a range fetches everything; the form shows a range without a start, which
is not accepted. -/
theorem not_savedUnchanged_missing :
    reportedFetchRange ⟨[]⟩ = some ⟨[]⟩ ∧
      resolveFetchRange warsawDatetime none = (none, none) ∧
      ¬ warsaw.SavedUnchanged warsawDatetime (fun _ => "") ⟨[]⟩ ⟨[]⟩ := by
  refine ⟨rfl, rfl, fun h => ?_⟩
  obtain ⟨body, request, hbody, haccept, -⟩ := h
  obtain rfl : rangeBody none none = body := Option.some.inj hbody
  rw [modelValidate_rangeBody] at haccept
  cases Except.ok.inj haccept

end Browser

end RecruFlow.Frontend
