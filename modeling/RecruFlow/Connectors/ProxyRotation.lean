import RecruFlow.Connectors.Http
import RecruFlow.Python.Text

/-!
# Fetching through a rotation of proxies

Three functions try a url through one proxy after the other: `_get` and
`_fetch_detail_html` with httpx, `_fetch_html_with_proxy_rotation` with a
browser. Each keeps what its last attempt came to in a way of its own. They are
compared over the outcomes that an attempt can have.
-/

namespace RecruFlow.Connectors

variable {Proxy β γ : Type}

def Fetched.map (f : β → γ) : Fetched β → Fetched γ
  | .blocked statusCode => .blocked statusCode
  | .failed => .failed
  | .got value => .got (f value)

/-- What a loop over the attempts comes to. -/
structure Rotation (Proxy β : Type) where
  verdict : Fetched β
  /-- The numbers of the attempts that were made. -/
  made : List Nat
  /-- The proxies of the calls of `report_failure`, in order. -/
  reported : List Proxy
  deriving DecidableEq

namespace Rotation

def map (f : β → γ) (r : Rotation Proxy β) : Rotation Proxy γ :=
  { r with verdict := r.verdict.map f }

theorem map_id (r : Rotation Proxy β) : r.map id = r := by
  obtain ⟨verdict, made, reported⟩ := r
  cases verdict <;> rfl

/-- The loop went on after an attempt. -/
def after (n : Nat) (r : Rotation Proxy β) : Rotation Proxy β :=
  { r with made := n :: r.made }

/-- The loop went on after an attempt whose proxy it has reported. -/
def afterFailure (n : Nat) (proxy : Proxy) (r : Rotation Proxy β) : Rotation Proxy β :=
  { r with made := n :: r.made, reported := proxy :: r.reported }

end Rotation

section Loops

def maxProxyAttempts : Nat := 3

/-- `range(1, max_attempts + 1)` -/
def attemptNumbers (maxAttempts : Nat) : List Nat :=
  List.range' 1 maxAttempts

def isBlockStatus (statusCode : Nat) : Bool :=
  statusCode = 403 || statusCode = 429

structure Response where
  statusCode : Nat
  text : String

/-- What `httpx.get` comes to. -/
inductive HttpxReply where
  | response (response : Response)
  /-- Any other `httpx.HTTPError`. -/
  | httpError

/-- `response.raise_for_status()` lets a response pass. -/
def Response.isSuccess (response : Response) : Bool :=
  200 ≤ response.statusCode && response.statusCode ≤ 299

/-- The loop of the httpx fetches: it remembers the raw status of the last
attempt and looks at the end whether it was a block. -/
def httpxLoop (deliver : Response → β) (attempt : Nat → Option (Proxy × HttpxReply)) :
    List Nat → (lastStatusCode : Option Nat) → Rotation Proxy β
  | [], some statusCode =>
      ⟨if isBlockStatus statusCode then .blocked statusCode else .failed, [], []⟩
  | [], none => ⟨.failed, [], []⟩
  | n :: numbers, lastStatusCode =>
      match attempt n with
      | none => (httpxLoop deliver attempt numbers lastStatusCode).after n
      | some (proxy, .response response) =>
          if response.isSuccess then ⟨.got (deliver response), [n], []⟩
          else
            (httpxLoop deliver attempt numbers (some response.statusCode)).afterFailure n proxy
      | some (proxy, .httpError) =>
          (httpxLoop deliver attempt numbers none).afterFailure n proxy

/-- `_get` -/
def get (attempt : Nat → Option (Proxy × HttpxReply)) (maxAttempts : Nat) :
    Rotation Proxy Response :=
  httpxLoop id attempt (attemptNumbers maxAttempts) none

/-- `_fetch_detail_html` -/
def fetchDetailHtml (attempt : Nat → Option (Proxy × HttpxReply)) (maxAttempts : Nat) :
    Rotation Proxy String :=
  httpxLoop Response.text attempt (attemptNumbers maxAttempts) none

/-- What the navigation of a browser page comes to. -/
inductive Navigation where
  | noResponse
  /-- A `PlaywrightError`, which a timeout is too. -/
  | playwrightError
  | response (status : Nat) (html : String)

variable (lower : String → String)

def challengeMarkers : List String :=
  ["Just a moment", "cf-mitigated", "Enable JavaScript and cookies"]

def isChallengePage (html : String) : Bool :=
  challengeMarkers.any fun marker => Python.contains (lower html) (lower marker)

/-- `_fetch_rendered_page` -/
def fetchRenderedPage : Navigation → Fetched String
  | .noResponse => .failed
  | .playwrightError => .failed
  | .response status html =>
      if 400 ≤ status then if isBlockStatus status then .blocked status else .failed
      else if isChallengePage lower html then .failed
      else .got html

/-- The loop of the browser fetches: it remembers the last attempt only if it
was blocked. -/
def browserLoop (attempt : Nat → Option (Proxy × Navigation)) :
    List Nat → (lastBlockedStatus : Option Nat) → Rotation Proxy String
  | [], some statusCode => ⟨.blocked statusCode, [], []⟩
  | [], none => ⟨.failed, [], []⟩
  | n :: numbers, lastBlockedStatus =>
      match attempt n with
      | none => (browserLoop attempt numbers lastBlockedStatus).after n
      | some (proxy, navigation) =>
          match fetchRenderedPage lower navigation with
          | .got html => ⟨.got html, [n], []⟩
          | .failed => (browserLoop attempt numbers none).afterFailure n proxy
          | .blocked statusCode =>
              (browserLoop attempt numbers (some statusCode)).afterFailure n proxy

/-- `_fetch_html_with_proxy_rotation` -/
def fetchHtmlWithProxyRotation (attempt : Nat → Option (Proxy × Navigation))
    (maxAttempts : Nat) : Rotation Proxy String :=
  browserLoop lower attempt (attemptNumbers maxAttempts) none

end Loops

section Outcomes

/-- The status of an answer that is an error. -/
abbrev ErrorStatus : Type := { statusCode : Nat // 400 ≤ statusCode }

/-- How an attempt with a proxy ends. -/
inductive Outcome where
  | success (html : String)
  | status (code : ErrorStatus)
  | transportError

/-- The outcome that a reply is; a redirection is none. -/
def HttpxReply.outcome : HttpxReply → Option Outcome
  | .response r =>
      if r.isSuccess then some (.success r.text)
      else if h : 400 ≤ r.statusCode then some (.status ⟨r.statusCode, h⟩)
      else none
  | .httpError => some .transportError

/-- The outcome that a navigation is; a challenge page counts as a transport error. -/
def Navigation.outcome (lower : String → String) : Navigation → Outcome
  | .noResponse => .transportError
  | .playwrightError => .transportError
  | .response status html =>
      if h : 400 ≤ status then .status ⟨status, h⟩
      else if isChallengePage lower html then .transportError
      else .success html

def Outcome.succeeded : Outcome → Bool
  | .success _ => true
  | _ => false

def Outcome.statusCode : Outcome → Option Nat
  | .status code => some code
  | _ => none

/-- The verdict without a success, by the remembered status. -/
def exhaustedVerdict (lastStatusCode : Option Nat) : Fetched String :=
  match lastStatusCode.filter isBlockStatus with
  | some statusCode => .blocked statusCode
  | none => .failed

/-- The three loops, over outcomes. -/
def rotate (attempt : Nat → Option (Proxy × Outcome)) :
    List Nat → (lastStatusCode : Option Nat) → Rotation Proxy String
  | [], lastStatusCode => ⟨exhaustedVerdict lastStatusCode, [], []⟩
  | n :: numbers, lastStatusCode =>
      match attempt n with
      | none => (rotate attempt numbers lastStatusCode).after n
      | some (_, .success html) => ⟨.got html, [n], []⟩
      | some (proxy, outcome) => (rotate attempt numbers outcome.statusCode).afterFailure n proxy

variable (attempt : Nat → Option (Proxy × Outcome))

def SucceedsAt (n : Nat) : Prop :=
  ∃ proxy html, attempt n = some (proxy, .success html)

/-- What a rotation has to come to. -/
structure Rotates (numbers : List Nat) (r : Rotation Proxy String) : Prop where
  /-- The first success is returned, and no attempt is made after it. -/
  success : ∀ before n later proxy html, numbers = before ++ n :: later →
    attempt n = some (proxy, .success html) → (∀ m ∈ before, ¬ SucceedsAt attempt m) →
    r.verdict = .got html ∧ r.made = before ++ [n]
  exhausted : (∀ m ∈ numbers, ¬ SucceedsAt attempt m) → r.made = numbers
  /-- Without a success, the last attempt that had a proxy decides. -/
  blocked_iff : (∀ m ∈ numbers, ¬ SucceedsAt attempt m) → ∀ statusCode : Nat,
    (r.verdict = .blocked statusCode ↔
      (statusCode = 403 ∨ statusCode = 429) ∧ ∃ proxy code, code.val = statusCode ∧
        (numbers.filterMap attempt).getLast? = some (proxy, .status code))
  failed : (∀ m ∈ numbers, ¬ SucceedsAt attempt m) →
    (∀ statusCode, r.verdict ≠ .blocked statusCode) → r.verdict = .failed
  /-- The proxies of the failed attempts are reported, once for each and in order. -/
  reported : r.reported =
    ((r.made.filterMap attempt).filter fun a => !a.2.succeeded).map Prod.fst

variable {attempt} {numbers : List Nat} {lastStatusCode : Option Nat}

/-- A rotation forgets a status that is not a block. -/
theorem rotate_filter : rotate attempt numbers (lastStatusCode.filter isBlockStatus) =
    rotate attempt numbers lastStatusCode := by
  induction numbers with
  | nil => simp only [rotate, exhaustedVerdict, Option.filter_filter, Bool.and_self]
  | cons n numbers ih =>
    simp only [rotate]
    split
    · rw [ih]
    · rfl
    · rfl

theorem rotate_success {before later : List Nat} {n : Nat} {proxy : Proxy} {html : String}
    (hn : attempt n = some (proxy, .success html)) (hbefore : ∀ m ∈ before, ¬ SucceedsAt attempt m) :
    (rotate attempt (before ++ n :: later) lastStatusCode).verdict = .got html ∧
      (rotate attempt (before ++ n :: later) lastStatusCode).made = before ++ [n] := by
  induction before generalizing lastStatusCode with
  | nil => simp only [List.nil_append, rotate, hn, and_self]
  | cons m before ih =>
    have hm : ¬ SucceedsAt attempt m := hbefore m List.mem_cons_self
    have hrest := fun last => @ih last fun k hk => hbefore k (.tail m hk)
    simp only [List.cons_append, rotate]
    split
    · exact ⟨(hrest _).1, congrArg (m :: ·) (hrest _).2⟩
    · next proxy html h => exact absurd ⟨proxy, html, h⟩ hm
    · exact ⟨(hrest _).1, congrArg (m :: ·) (hrest _).2⟩

/-- Without a success the memory at the end is that of the last attempt with a proxy. -/
theorem rotate_exhausted (hnone : ∀ m ∈ numbers, ¬ SucceedsAt attempt m) :
    (rotate attempt numbers lastStatusCode).made = numbers ∧
      (rotate attempt numbers lastStatusCode).verdict =
        exhaustedVerdict (((numbers.filterMap attempt).getLast?.map
          fun a => a.2.statusCode).getD lastStatusCode) := by
  induction numbers generalizing lastStatusCode with
  | nil => exact ⟨rfl, rfl⟩
  | cons n numbers ih =>
    have hrest := fun last => @ih last fun k hk => hnone k (.tail n hk)
    rw [rotate]
    split
    · next h =>
      rw [List.filterMap_cons_none h]
      exact ⟨congrArg (n :: ·) (hrest _).1, (hrest _).2⟩
    · next proxy html h => exact absurd ⟨proxy, html, h⟩ (hnone n List.mem_cons_self)
    · next proxy outcome hne h =>
      refine ⟨congrArg (n :: ·) (hrest _).1, (hrest _).2.trans ?_⟩
      rw [List.filterMap_cons_some h, List.getLast?_cons]
      cases (numbers.filterMap attempt).getLast? <;> rfl

theorem rotate_reported : (rotate attempt numbers lastStatusCode).reported =
    (((rotate attempt numbers lastStatusCode).made.filterMap attempt).filter
      fun a => !a.2.succeeded).map Prod.fst := by
  induction numbers generalizing lastStatusCode with
  | nil => rfl
  | cons n numbers ih =>
    rw [rotate]
    split
    · next h =>
      simp only [Rotation.after, List.filterMap_cons_none h]
      exact ih
    · next proxy html h => simp [h, Outcome.succeeded]
    · next proxy outcome hne h =>
      have hfailed : outcome.succeeded = false := by
        cases outcome with
        | success html => exact absurd rfl (hne html)
        | status code => rfl
        | transportError => rfl
      simp only [Rotation.afterFailure, List.filterMap_cons_some h, List.filter_cons, hfailed,
        Bool.not_false, if_true, List.map_cons]
      rw [← ih]

theorem isBlockStatus_iff {statusCode : Nat} :
    isBlockStatus statusCode = true ↔ statusCode = 403 ∨ statusCode = 429 := by
  simp only [isBlockStatus, Bool.or_eq_true, decide_eq_true_eq]

theorem exhaustedVerdict_eq_blocked {statusCode : Nat} :
    exhaustedVerdict lastStatusCode = .blocked statusCode ↔
      isBlockStatus statusCode = true ∧ lastStatusCode = some statusCode := by
  rw [and_comm, ← Option.filter_eq_some_iff, exhaustedVerdict]
  cases lastStatusCode.filter isBlockStatus with
  | none => simp only [reduceCtorEq]
  | some last => simp only [Fetched.blocked.injEq, Option.some.injEq]

theorem exhaustedVerdict_eq_failed
    (h : ∀ statusCode, exhaustedVerdict lastStatusCode ≠ .blocked statusCode) :
    exhaustedVerdict lastStatusCode = .failed := by
  unfold exhaustedVerdict at h ⊢
  cases hlast : lastStatusCode.filter isBlockStatus with
  | none => rfl
  | some statusCode => exact absurd (by rw [hlast]) (h statusCode)

/-- The status of the last attempt with a proxy. -/
theorem lastStatus_eq_some {last : Option (Proxy × Outcome)} {statusCode : Nat} :
    (last.map fun a => a.2.statusCode).getD none = some statusCode ↔
      ∃ proxy code, code.val = statusCode ∧ last = some (proxy, .status code) := by
  constructor
  · intro h
    cases last with
    | none => exact absurd h (by simp)
    | some a =>
      cases houtcome : a.2 with
      | status code =>
        have hcode : a.2.statusCode = some statusCode := h
        rw [houtcome] at hcode
        exact ⟨a.1, code, Option.some.inj hcode, by rw [← houtcome]⟩
      | success html =>
        have hnone : a.2.statusCode = some statusCode := h
        rw [houtcome] at hnone
        exact absurd hnone (by simp [Outcome.statusCode])
      | transportError =>
        have hnone : a.2.statusCode = some statusCode := h
        rw [houtcome] at hnone
        exact absurd hnone (by simp [Outcome.statusCode])
  · intro h
    obtain ⟨proxy, code, hcode, rfl⟩ := h
    exact congrArg some hcode

theorem rotate_rotates : Rotates attempt numbers (rotate attempt numbers none) where
  success before n later proxy html hnumbers hn hbefore := by
    rw [hnumbers]
    exact rotate_success hn hbefore
  exhausted hnone := (rotate_exhausted hnone).1
  blocked_iff hnone statusCode := by
    rw [(rotate_exhausted hnone).2, exhaustedVerdict_eq_blocked, isBlockStatus_iff,
      lastStatus_eq_some]
  failed hnone hblocked := by
    rw [(rotate_exhausted hnone).2] at hblocked ⊢
    exact exhaustedVerdict_eq_failed hblocked
  reported := rotate_reported

/-- The httpx loop is the rotation over the outcomes of its replies. -/
theorem httpxLoop_map {deliver : Response → β} {text : β → String}
    {reply : Nat → Option (Proxy × HttpxReply)} (htext : ∀ r, text (deliver r) = r.text)
    (hreply : ∀ n, (reply n).map (Prod.map id HttpxReply.outcome) =
      (attempt n).map (Prod.map id some)) :
    (httpxLoop deliver reply numbers lastStatusCode).map text =
      rotate attempt numbers lastStatusCode := by
  induction numbers generalizing lastStatusCode with
  | nil =>
    cases lastStatusCode with
    | none => rfl
    | some statusCode =>
      cases hblock : isBlockStatus statusCode <;>
        simp [httpxLoop, rotate, exhaustedVerdict, Rotation.map, Fetched.map, Option.filter, hblock]
  | cons n numbers ih =>
    have hn := hreply n
    rw [httpxLoop, rotate]
    cases ha : attempt n with
    | none =>
      rw [ha, Option.map_none, Option.map_eq_none_iff] at hn
      rw [hn]
      exact congrArg (Rotation.after n) ih
    | some a =>
      rw [ha, Option.map_some, Option.map_eq_some_iff] at hn
      obtain ⟨⟨proxy, r⟩, hr, heq⟩ := hn
      obtain ⟨proxy', outcome⟩ := a
      have hproxy : proxy = proxy' := congrArg Prod.fst heq
      have hout : r.outcome = some outcome := congrArg Prod.snd heq
      subst hproxy
      rw [hr]
      cases r with
      | httpError =>
        obtain rfl := Option.some.inj hout
        exact congrArg (Rotation.afterFailure n proxy) ih
      | response r =>
        simp only [HttpxReply.outcome] at hout
        split at hout
        · next hsuccess =>
          obtain rfl := Option.some.inj hout
          simp only [hsuccess, if_true, Rotation.map, Fetched.map, htext]
        · next hsuccess =>
          split at hout
          · obtain rfl := Option.some.inj hout
            simp only [hsuccess, Bool.false_eq_true, if_false]
            exact congrArg (Rotation.afterFailure n proxy) ih
          · exact absurd hout (by simp)

theorem browserLoop_eq {lower : String → String} {navigation : Nat → Option (Proxy × Navigation)}
    (hnavigation : ∀ n, (navigation n).map (Prod.map id (Navigation.outcome lower)) = attempt n)
    (hlast : lastStatusCode.filter isBlockStatus = lastStatusCode) :
    browserLoop lower navigation numbers lastStatusCode =
      rotate attempt numbers lastStatusCode := by
  induction numbers generalizing lastStatusCode with
  | nil =>
    cases lastStatusCode with
    | none => rfl
    | some statusCode => simp only [browserLoop, rotate, exhaustedVerdict, hlast]
  | cons n numbers ih =>
    have hn := hnavigation n
    rw [browserLoop, rotate, ← hn]
    cases navigation n with
    | none => exact congrArg (Rotation.after n) (ih hlast)
    | some a =>
      obtain ⟨proxy, answer⟩ := a
      cases answer with
      | noResponse => exact congrArg (Rotation.afterFailure n proxy) (ih rfl)
      | playwrightError => exact congrArg (Rotation.afterFailure n proxy) (ih rfl)
      | response status html =>
        simp only [Option.map_some, Prod.map, id, Navigation.outcome, fetchRenderedPage]
        by_cases hstatus : 400 ≤ status
        · simp only [hstatus, dite_true, if_true, Outcome.statusCode]
          cases hblock : isBlockStatus status with
          | false =>
            have hforget : rotate attempt numbers (some status) = rotate attempt numbers none := by
              rw [← rotate_filter, Option.filter_some_neg hblock]
            rw [hforget]
            exact congrArg (Rotation.afterFailure n proxy) (ih rfl)
          | true => exact congrArg (Rotation.afterFailure n proxy) (ih (by simp [hblock]))
        · cases hchallenge : isChallengePage lower html with
          | false => simp only [hstatus, dite_false, if_false, Bool.false_eq_true]
          | true =>
            simp only [hstatus, dite_false, if_false, if_true]
            exact congrArg (Rotation.afterFailure n proxy) (ih rfl)

end Outcomes

/-- The three loops come to the same rotation over the outcomes of their attempts. -/
theorem fetch_rotations_agree {lower : String → String}
    (attempt : Nat → Option (Proxy × Outcome)) (maxAttempts : Nat)
    {getReply detailReply : Nat → Option (Proxy × HttpxReply)}
    {navigation : Nat → Option (Proxy × Navigation)}
    (hget : ∀ n, (getReply n).map (Prod.map id HttpxReply.outcome) =
      (attempt n).map (Prod.map id some))
    (hdetail : ∀ n, (detailReply n).map (Prod.map id HttpxReply.outcome) =
      (attempt n).map (Prod.map id some))
    (hnavigation : ∀ n, (navigation n).map (Prod.map id (Navigation.outcome lower)) = attempt n) :
    ∃ r : Rotation Proxy String,
      (get getReply maxAttempts).map Response.text = r ∧
        fetchDetailHtml detailReply maxAttempts = r ∧
        fetchHtmlWithProxyRotation lower navigation maxAttempts = r ∧
        Rotates attempt (attemptNumbers maxAttempts) r := by
  refine ⟨rotate attempt (attemptNumbers maxAttempts) none, ?_, ?_, ?_, rotate_rotates⟩
  · exact httpxLoop_map (fun _ => rfl) hget
  · exact (Rotation.map_id _).symm.trans (httpxLoop_map (fun _ => rfl) hdetail)
  · exact browserLoop_eq hnavigation rfl

/-- No proxy, then a block, then the page. -/
def replyAfterBlock : Nat → Option (Nat × HttpxReply)
  | 1 => none
  | 2 => some (7, .response ⟨403, "denied"⟩)
  | _ => some (8, .response ⟨200, "offer"⟩)

def navigationAfterBlock : Nat → Option (Nat × Navigation)
  | 1 => none
  | 2 => some (7, .response 403 "denied")
  | _ => some (8, .response 200 "offer")

theorem fetch_rotations_agree_after_block :
    ∃ r : Rotation Nat String,
      (get replyAfterBlock maxProxyAttempts).map Response.text = r ∧
        fetchDetailHtml replyAfterBlock maxProxyAttempts = r ∧
        fetchHtmlWithProxyRotation id navigationAfterBlock maxProxyAttempts = r ∧
        Rotates (fun n => (navigationAfterBlock n).map (Prod.map id (Navigation.outcome id)))
          (attemptNumbers maxProxyAttempts) r := by
  have hpage : isChallengePage id "offer" = false := by decide +kernel
  have hreply : ∀ n, (replyAfterBlock n).map (Prod.map id HttpxReply.outcome) =
      ((navigationAfterBlock n).map (Prod.map id (Navigation.outcome id))).map
        (Prod.map id some) := by
    intro n
    unfold replyAfterBlock navigationAfterBlock
    split <;> simp [HttpxReply.outcome, Navigation.outcome, Response.isSuccess, hpage]
  exact fetch_rotations_agree _ maxProxyAttempts hreply hreply (fun _ => rfl)

end RecruFlow.Connectors
