import RecruFlow.Lib.Trace

/-!
# The offer list's requests and their responses

`useOffers` asks for the offers when its filters, sort or page change, after a
pause in which they may change again, and on `refetch()`. The effect's cleanup
keeps a late response of the effect from the list; `refetch` has no such flag.
-/

namespace RecruFlow.Frontend

open Lib.Trace

inductive OfferOrderBy where
  | postedAt
  | scorePercent
  deriving DecidableEq

inductive OfferOrder where
  | asc
  | desc
  deriving DecidableEq

/-- The values that the effect and `refetch` depend on, each compared by `Object.is`. -/
structure OfferQuery (Number : Type) where
  source : Option String := none
  remote : Option Bool := none
  seniority : Option String := none
  minSalary : Option Number := none
  minScore : Option Number := none
  showApplied : Option Bool := none
  showHidden : Option Bool := none
  orderBy : OfferOrderBy
  order : OfferOrder
  limit : Number
  offset : Number
  deriving DecidableEq

structure OfferListResponse (Offer : Type) where
  items : List Offer
  total : Nat

inductive Thrown where
  | error (message : String)
  | other

def errorMessage : Thrown → String
  | .error message => message
  | .other => "failed to load offers"

inductive RequestPath where
  | effect
  | refetch
  deriving DecidableEq

/-- A `fetchOffers` that has been issued. `render` is the run of the hook whose values it
asks with, which for a `refetch` kept by a caller need not be the latest one. -/
structure OfferRequest (Number Offer : Type) where
  path : RequestPath
  render : Nat
  query : OfferQuery Number
  response : Option (Except Thrown (OfferListResponse Offer)) := none

/-- `superseded` holds the earlier values in order; those of run `k` stand at `k`. -/
structure UseOffers (Number Offer : Type) where
  query : OfferQuery Number
  superseded : List (OfferQuery Number) := []
  timer : Bool := false
  requests : List (OfferRequest Number Offer) := []
  offers : List Offer := []
  total : Nat := 0
  loading : Bool := true
  error : Option String := none

inductive OffersEvent (Number Offer : Type) where
  | rerender (query : OfferQuery Number)
  | timeout
  /-- The `refetch` that the hook returned in its run `render` is called. -/
  | refetch (render : Nat)
  | respond (i : Nat) (response : Except Thrown (OfferListResponse Offer))

variable {Number Offer : Type}

namespace UseOffers

/-- The run of the hook whose effect has not been cleaned up. -/
def render (s : UseOffers Number Offer) : Nat :=
  s.superseded.length

/-- The values of the runs so far, in order. -/
def rendered (s : UseOffers Number Offer) : List (OfferQuery Number) :=
  s.superseded ++ [s.query]

/-- `setLoading(true)` and `fetchOffers(...)`. -/
def issue (path : RequestPath) (render : Nat) (query : OfferQuery Number)
    (s : UseOffers Number Offer) : UseOffers Number Offer :=
  { s with loading := true, requests := s.requests ++ [{ path, render, query }] }

/-- The first run of the effect asks at once. -/
def mount (query : OfferQuery Number) : UseOffers Number Offer :=
  issue .effect 0 query { query }

/-- What the handlers of a response set. -/
def settle (s : UseOffers Number Offer) :
    Except Thrown (OfferListResponse Offer) → UseOffers Number Offer
  | .ok result =>
      { s with offers := result.items, total := result.total, error := none, loading := false }
  | .error err => { s with error := some (errorMessage err), loading := false }

/-- `ignore`, which the cleanup of the effect sets. -/
def ignores (s : UseOffers Number Offer) (request : OfferRequest Number Offer) : Bool :=
  request.path = .effect ∧ request.render ≠ s.render

/-- The response is there, whatever becomes of it. -/
def receive (s : UseOffers Number Offer) (i : Nat) (request : OfferRequest Number Offer)
    (response : Except Thrown (OfferListResponse Offer)) : UseOffers Number Offer :=
  { s with requests := s.requests.set i { request with response := some response } }

def respond (s : UseOffers Number Offer) (i : Nat)
    (response : Except Thrown (OfferListResponse Offer)) : Option (UseOffers Number Offer) :=
  match s.requests[i]? with
  | none => none
  | some request =>
      if request.response.isSome then none
      else if s.ignores request then some (s.receive i request response)
      else some ((s.receive i request response).settle response)

def step [DecidableEq Number] (s : UseOffers Number Offer) :
    OffersEvent Number Offer → Option (UseOffers Number Offer)
  | .rerender query =>
      if query = s.query then some s
      else some { s with query, superseded := s.rendered, timer := true }
  | .timeout =>
      if s.timer then some ({ s with timer := false }.issue .effect s.render s.query) else none
  | .refetch render => s.rendered[render]?.map fun query => s.issue .refetch render query
  | .respond i response => s.respond i response

/-- Some request with the latest values got the offers and the total that are shown. -/
def Answered (s : UseOffers Number Offer) : Prop :=
  ∃ request ∈ s.requests, request.query = s.query ∧
    request.response = some (.ok ⟨s.offers, s.total⟩)

/-- What a run of the hook shows is of its latest values. -/
structure ShowsLatest [DecidableEq Number] (query : OfferQuery Number)
    (es : List (OffersEvent Number Offer)) : Prop where
  superseded : ∀ before i response after s t request,
    es = before ++ .respond i response :: after → exec step (mount query) before = some s →
    step s (.respond i response) = some t → s.requests[i]? = some request →
    request.query ≠ s.query → t.offers = s.offers ∧ t.total = s.total ∧ t.error = s.error
  latest : ∀ s, Reaches step (mount query) es s → s.timer = false →
    (∀ request ∈ s.requests, request.response ≠ none) →
    (∃ request ∈ s.requests, request.render = s.render ∧
      ∃ result, request.response = some (.ok result)) → s.Answered

/-- No `refetch` is answered when its values are no longer those of the list. -/
def Timely (s : UseOffers Number Offer) : OffersEvent Number Offer → Prop
  | .respond i _ => ∀ request, s.requests[i]? = some request → request.path = .refetch →
      request.query = s.query
  | _ => True

/-! ## What a step keeps -/

/-- Requests ask with the values of their run; the list answers to the latest ones once a
request with them has succeeded. -/
structure UpToDate (s : UseOffers Number Offer) : Prop where
  asked : ∀ request ∈ s.requests, s.rendered[request.render]? = some request.query
  shown : ∀ request ∈ s.requests, request.render = s.render →
    ∀ result, request.response = some (.ok result) → s.Answered

variable {s t : UseOffers Number Offer} {request other : OfferRequest Number Offer} {i : Nat}
  {response : Except Thrown (OfferListResponse Offer)}

theorem UpToDate.query_eq (h : s.UpToDate) (hmem : request ∈ s.requests)
    (hrender : request.render = s.render) : request.query = s.query := by
  have hasked := h.asked request hmem
  rw [hrender, rendered, render, List.getElem?_concat_length] at hasked
  exact (Option.some.inj hasked).symm

/-- A response that is not ignored comes with the latest values. -/
theorem UpToDate.query_eq_of_not_ignores (h : s.UpToDate)
    (htimely : s.Timely (.respond i response)) (hrequest : s.requests[i]? = some request)
    (hignores : ¬ s.ignores request) : request.query = s.query := by
  cases hpath : request.path with
  | effect =>
      apply h.query_eq (List.mem_of_getElem? hrequest)
      by_contra hrender
      exact hignores (decide_eq_true ⟨hpath, hrender⟩)
  | refetch => exact htimely request hrequest hpath

theorem mem_receive (hrequest : s.requests[i]? = some request) (hnew : request.response = none)
    (hmem : other ∈ s.requests) (hother : other.response ≠ none) :
    other ∈ (s.receive i request response).requests := by
  obtain ⟨j, hj⟩ := List.mem_iff_getElem?.mp hmem
  apply List.mem_iff_getElem?.mpr
  refine ⟨j, ?_⟩
  rw [receive, List.getElem?_set_ne, hj]
  rintro rfl
  rw [hrequest] at hj
  exact hother (Option.some.inj hj ▸ hnew)

theorem respond_eq_some (h : s.respond i response = some t) :
    ∃ request, s.requests[i]? = some request ∧ request.response = none ∧
      t = if s.ignores request then s.receive i request response
        else (s.receive i request response).settle response := by
  unfold respond at h
  cases hrequest : s.requests[i]? with
  | none =>
      rw [hrequest] at h
      cases h
  | some request =>
      rw [hrequest] at h
      dsimp only at h
      split at h
      · cases h
      · next hnew =>
        refine ⟨request, rfl, Option.not_isSome_iff_eq_none.mp hnew, ?_⟩
        split at h
        · next hignores =>
          rw [if_pos hignores]
          exact (Option.some.inj h).symm
        · next hignores =>
          rw [if_neg hignores]
          exact (Option.some.inj h).symm

theorem Answered.receive (h : s.Answered) (hrequest : s.requests[i]? = some request)
    (hnew : request.response = none) : (s.receive i request response).Answered := by
  obtain ⟨answered, hmem, hquery, hresponse⟩ := h
  refine ⟨answered, mem_receive hrequest hnew hmem ?_, hquery, hresponse⟩
  rw [hresponse]
  exact Option.some_ne_none _

theorem mem_of_mem_receive (h : other ∈ (s.receive i request response).requests) :
    other ∈ s.requests ∨ other = { request with response := some response } :=
  List.mem_or_eq_of_mem_set h

theorem UpToDate.asked_receive (h : s.UpToDate) (hrequest : s.requests[i]? = some request) :
    ∀ other ∈ (s.receive i request response).requests,
      s.rendered[other.render]? = some other.query := by
  intro other hother
  rcases mem_of_mem_receive hother with hmem | rfl
  · exact h.asked other hmem
  · exact h.asked request (List.mem_of_getElem? hrequest)

theorem UpToDate.receive_ignored (h : s.UpToDate) (hrequest : s.requests[i]? = some request)
    (hnew : request.response = none) (hignores : s.ignores request) :
    (s.receive i request response).UpToDate := by
  refine ⟨h.asked_receive hrequest, ?_⟩
  intro other hother hrender result hresult
  rcases mem_of_mem_receive hother with hmem | rfl
  · exact (h.shown other hmem hrender result hresult).receive hrequest hnew
  · exact absurd hrender (of_decide_eq_true hignores).2

theorem UpToDate.receive_settle (h : s.UpToDate) (hrequest : s.requests[i]? = some request)
    (hnew : request.response = none) (hquery : request.query = s.query) :
    ((s.receive i request response).settle response).UpToDate := by
  cases response with
  | ok result =>
      refine ⟨h.asked_receive hrequest, fun _ _ _ _ _ => ?_⟩
      refine ⟨{ request with response := some (.ok result) }, ?_, hquery, rfl⟩
      exact List.mem_set (List.getElem?_eq_some_iff.mp hrequest).1 _
  | error err =>
      refine ⟨h.asked_receive hrequest, ?_⟩
      intro other hother hrender result hresult
      rcases mem_of_mem_receive hother with hmem | rfl
      · exact (h.shown other hmem hrender result hresult).receive hrequest hnew
      · cases Option.some.inj hresult

theorem UpToDate.issue {path : RequestPath} {render : Nat} {query : OfferQuery Number}
    (h : s.UpToDate) (hquery : s.rendered[render]? = some query) :
    (s.issue path render query).UpToDate := by
  constructor
  · intro other hother
    rcases List.mem_append.mp hother with hmem | hnew
    · exact h.asked other hmem
    · rw [List.mem_singleton.mp hnew]
      exact hquery
  · intro other hother hrender result hresult
    rcases List.mem_append.mp hother with hmem | hnew
    · obtain ⟨answered, hanswered, hshown⟩ := h.shown other hmem hrender result hresult
      exact ⟨answered, List.mem_append_left _ hanswered, hshown⟩
    · rw [List.mem_singleton.mp hnew] at hresult
      cases hresult

theorem UpToDate.rerender {query : OfferQuery Number} (h : s.UpToDate) :
    ({ s with query, superseded := s.rendered, timer := true } :
      UseOffers Number Offer).UpToDate := by
  have hearlier : ∀ request ∈ s.requests, request.render < s.rendered.length := fun request hmem =>
    (List.getElem?_eq_some_iff.mp (h.asked request hmem)).1
  constructor
  · intro request hmem
    show (s.rendered ++ [query])[request.render]? = _
    rw [List.getElem?_append_left (hearlier request hmem)]
    exact h.asked request hmem
  · intro request hmem hrender
    exact absurd hrender (Nat.ne_of_lt (hearlier request hmem))

theorem upToDate_mount {query : OfferQuery Number} :
    (mount query : UseOffers Number Offer).UpToDate := by
  have hempty : ({ query } : UseOffers Number Offer).UpToDate := by
    constructor <;> intro request hmem <;> cases hmem
  exact hempty.issue rfl

variable [DecidableEq Number] {e : OffersEvent Number Offer} {query : OfferQuery Number}
  {es : List (OffersEvent Number Offer)}

theorem UpToDate.step (h : s.UpToDate) (htimely : s.Timely e) (hstep : s.step e = some t) :
    t.UpToDate := by
  cases e with
  | rerender query =>
      rw [UseOffers.step] at hstep
      split at hstep
      · exact Option.some.inj hstep ▸ h
      · exact Option.some.inj hstep ▸ h.rerender
  | timeout =>
      rw [UseOffers.step] at hstep
      split at hstep
      · have hstopped : ({ s with timer := false } : UseOffers Number Offer).UpToDate :=
          ⟨h.asked, h.shown⟩
        exact Option.some.inj hstep ▸ hstopped.issue List.getElem?_concat_length
      · cases hstep
  | refetch render =>
      obtain ⟨query, hquery, rfl⟩ := Option.map_eq_some_iff.mp hstep
      exact h.issue hquery
  | respond i response =>
      obtain ⟨request, hrequest, hnew, rfl⟩ := respond_eq_some hstep
      split
      · next hignores => exact h.receive_ignored hrequest hnew hignores
      · next hignores =>
        exact h.receive_settle hrequest hnew
          (h.query_eq_of_not_ignores htimely hrequest hignores)

/-- A late response of the effect changes nothing that is shown. -/
theorem UpToDate.shown_kept (h : s.UpToDate) (htimely : s.Timely (.respond i response))
    (hstep : s.step (.respond i response) = some t) (hrequest : s.requests[i]? = some request)
    (hquery : request.query ≠ s.query) :
    t.offers = s.offers ∧ t.total = s.total ∧ t.error = s.error := by
  obtain ⟨found, hfound, hnew, rfl⟩ := respond_eq_some hstep
  obtain rfl : request = found := Option.some.inj (hrequest.symm.trans hfound)
  split
  · exact ⟨rfl, rfl, rfl⟩
  · next hignores =>
    exact absurd (h.query_eq_of_not_ignores htimely hrequest hignores) hquery

/-- The list shows the answer to its latest values in every run of the hook in which no
`refetch` is answered late. -/
theorem showsLatest_of_timely
    (htimely : Along step Timely (mount query : UseOffers Number Offer) es) :
    ShowsLatest query es := by
  have hreached : ∀ s, Reaches step (mount query) es s → s.UpToDate := fun s hs =>
    along_invariant (fun _ _ _ h hevent hstep => h.step hevent hstep) upToDate_mount htimely hs
  constructor
  · intro before i response after s t request hes hrun hstep hrequest hquery
    have hprefix : before <+: es := ⟨_, hes.symm⟩
    have hevent : s.Timely (.respond i response) := (hes ▸ htimely).at_event hrun
    exact (hreached s ⟨before, hprefix, hrun⟩).shown_kept hevent hstep hrequest hquery
  · intro s hs _ _ hsucceeded
    obtain ⟨request, hmem, hrender, result, hresult⟩ := hsucceeded
    exact (hreached s hs).shown request hmem hrender result hresult

def firstPage : OfferQuery Nat :=
  { orderBy := .postedAt, order := .desc, limit := 50, offset := 0 }

/-- The first response comes when the effect has been cleaned up. -/
theorem showsLatest_of_timely_filtered :
    ShowsLatest firstPage
      [.rerender { firstPage with remote := some true }, .timeout, .refetch 1,
        .respond 0 (.ok ⟨["Tester", "Analyst"], 2⟩), .respond 2 (.ok ⟨["Analyst"], 1⟩),
        .respond 1 (.error (.error "failed to load offers"))] := by
  apply showsLatest_of_timely
  refine (along_cons rfl).mpr ⟨trivial, (along_cons rfl).mpr ⟨trivial, (along_cons rfl).mpr
    ⟨trivial, (along_cons rfl).mpr ⟨?_, (along_cons rfl).mpr ⟨?_, (along_cons rfl).mpr
      ⟨?_, trivial⟩⟩⟩⟩⟩⟩
  all_goals
    intro request hrequest hpath
    cases Option.some.inj hrequest
  · cases hpath
  · rfl
  · cases hpath

/-- The `refetch` is answered after the filtered list, and the list is shown unfiltered. -/
theorem not_showsLatest_refetch :
    ¬ ShowsLatest firstPage
      [.respond 0 (.ok ⟨["Tester"], 1⟩), .refetch 0,
        .rerender { firstPage with remote := some true }, .timeout,
        .respond 2 (.ok ⟨["Analyst"], 1⟩), .respond 1 (.ok ⟨["Tester"], 1⟩)] := by
  intro h
  have hkept := h.superseded [.respond 0 (.ok ⟨["Tester"], 1⟩), .refetch 0,
    .rerender { firstPage with remote := some true }, .timeout,
    .respond 2 (.ok ⟨["Analyst"], 1⟩)] 1 _ [] _ _ _ rfl rfl rfl rfl (by decide)
  have hoffers : ["Tester"] = ["Analyst"] := hkept.1
  exact absurd hoffers (by decide)

end UseOffers

end RecruFlow.Frontend
