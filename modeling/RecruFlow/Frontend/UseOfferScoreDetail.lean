import RecruFlow.Db.ProfileRepo
import RecruFlow.Lib.Calls
import RecruFlow.Offers.ConnectorCounts

/-!
# The score of the selected offer

`useOfferScoreDetail` asks for the score of the offer whose drawer is open. A selection
resets what is shown, and the cleanup of its effect keeps the answer from a later one.
-/

namespace RecruFlow.Frontend

open Db Lib.Calls Lib.Paging Lib.Trace Offers

/-- The tables at the moment of a request, and how the database orders scores of one time. -/
structure ScoreServer where
  db : Database
  scores : List ScoreRow
  arrange : List ScoreRow → List ScoreRow
  arranged : ∀ rows, Permitted LaterFirst rows (arrange rows)

/-- The body of an answer to `GET /offers/{offer_id}/score`; `none` stands for a 404. -/
abbrev ScoreAnswer : Type := Option (Option ScoreRow)

/-- What the hook shows of the result of `fetchOfferScore`, which throws for a 404. -/
def shownScore : Except Unit ScoreAnswer → Option ScoreRow
  | .ok (some score) => score
  | _ => none

structure UseOfferScoreDetail where
  offerId : Option Nat := none
  /-- The request of the effect that has not been cleaned up. -/
  current : Option Nat := none
  score : Option ScoreRow := none
  loading : Bool := false

namespace UseOfferScoreDetail

/-- A run of the hook and of the effect that depends on the offer. A request that the effect
makes has the number `n`. -/
def select (n : Nat) (s : UseOfferScoreDetail) (offerId : Option Nat) :
    UseOfferScoreDetail × Option Nat :=
  if offerId = s.offerId then (s, none)
  else
    match offerId with
    | none => ({}, none)
    | some id => ({ offerId := some id, current := some n, loading := true }, some id)

/-- The handlers of a result, which do nothing once the effect has been cleaned up. -/
def settle (i : Nat) (result : Except Unit ScoreAnswer) (s : UseOfferScoreDetail) :
    UseOfferScoreDetail :=
  if s.current = some i then { s with score := shownScore result, loading := false } else s

end UseOfferScoreDetail

/-- The drawer, opened and closed by selections, and the route that it asks. -/
def scoreDrawer : Protocol ScoreServer Nat Unit ScoreAnswer UseOfferScoreDetail (Option Nat) where
  handle offerId server := (getOfferScore server.arrange server.db server.scores offerId, server)
  act n s offerId := some (s.select n offerId)
  settle i _ result s := s.settle i result

abbrev DrawerState : Type := Exchange ScoreServer Nat Unit ScoreAnswer UseOfferScoreDetail

abbrev DrawerEvent : Type := ExchangeEvent ScoreServer Unit (Option Nat)

abbrev drawerStep : DrawerState → DrawerEvent → Option DrawerState :=
  exchangeStep scoreDrawer

/-- The score is the latest one that the active profile has for the offer. -/
structure LatestScore (server : ScoreServer) (offerId : Nat) (score : ScoreRow) : Prop where
  stored : score ∈ server.scores
  offer : score.offerId = offerId
  profile : ∃ profile, getActiveProfile server.db = some profile ∧ score.profileId = profile.id
  latest : ∀ other ∈ server.scores, other.offerId = offerId → other.profileId = score.profileId →
    other.createdAt ≤ score.createdAt

/-- The offer has been selected ever since some moment of the events at which the score was
its latest one. -/
def GivenWhileSelected (start : DrawerState) (es : List DrawerEvent) (offerId : Nat)
    (score : ScoreRow) : Prop :=
  ∃ before after t, es = before ++ after ∧ exec drawerStep start before = some t ∧
    (∀ u, Reaches drawerStep t after u → u.client.offerId = some offerId) ∧
    LatestScore t.server offerId score

/-- What the drawer shows is of the offer that is selected, and the answer to its request
once that is there. -/
structure ShowsSelected (start : DrawerState) (es : List DrawerEvent) (s : DrawerState) :
    Prop where
  closed : s.client.offerId = none → s.client.score = none ∧ s.client.loading = false
  waits : s.client.loading = true → s.client.score = none ∧
    ∃ i call, s.client.current = some i ∧ s.calls[i]? = some call ∧ call.result = none
  settled : s.client.offerId ≠ none → s.client.loading = false →
    ∃ i call result, s.client.current = some i ∧ s.calls[i]? = some call ∧
      call.result = some result ∧ s.client.score = shownScore result
  shown : ∀ score, s.client.score = some score →
    ∃ offerId, s.client.offerId = some offerId ∧ GivenWhileSelected start es offerId score

/-! ## The request of the selection -/

/-- What is shown goes by the request that was made for the selection. -/
structure Current (s : DrawerState) : Prop where
  closed : s.client.offerId = none →
    s.client.current = none ∧ s.client.score = none ∧ s.client.loading = false
  opened : ∀ id, s.client.offerId = some id → ∃ i call, s.client.current = some i ∧
    s.calls[i]? = some call ∧ call.asked = id ∧ s.client.loading = call.result.isNone ∧
    s.client.score = call.result.bind shownScore

variable {start s t : DrawerState} {e : DrawerEvent} {es : List DrawerEvent} {i : Nat}
  {call : Call Nat Unit ScoreAnswer}

theorem Current.selected (h : Current s) (hi : s.client.current = some i)
    (hcall : s.calls[i]? = some call) :
    s.client.offerId = some call.asked ∧ s.client.loading = call.result.isNone ∧
      s.client.score = call.result.bind shownScore := by
  cases hoffer : s.client.offerId with
  | none =>
      rw [(h.closed hoffer).1] at hi
      cases hi
  | some id =>
      obtain ⟨j, found, hj, hfound, rfl, hloading, hscore⟩ := h.opened id hoffer
      obtain rfl : i = j := Option.some.inj (hi.symm.trans hj)
      obtain rfl : call = found := Option.some.inj (hcall.symm.trans hfound)
      exact ⟨rfl, hloading, hscore⟩

theorem Current.settle (h : Current s) (hcall : s.calls[i]? = some call)
    (result : Except Unit ScoreAnswer) : Current (s.settle scoreDrawer i call result) := by
  have hlt : i < s.calls.length := (List.getElem?_eq_some_iff.mp hcall).1
  by_cases hi : s.client.current = some i
  · have hclient : (s.settle scoreDrawer i call result).client =
        { s.client with score := shownScore result, loading := false } := if_pos hi
    obtain ⟨hoffer, -, -⟩ := h.selected hi hcall
    constructor
    · intro hnone
      rw [hclient] at hnone
      rw [hoffer] at hnone
      cases hnone
    · intro id hid
      rw [hclient] at hid ⊢
      obtain rfl : call.asked = id := Option.some.inj (hoffer.symm.trans hid)
      exact ⟨i, _, hi, List.getElem?_set_self hlt, rfl, rfl, rfl⟩
  · have hclient : (s.settle scoreDrawer i call result).client = s.client := if_neg hi
    constructor
    · rw [hclient]
      exact h.closed
    · intro id hid
      rw [hclient] at hid ⊢
      obtain ⟨j, found, hj, hfound, hrest⟩ := h.opened id hid
      have hne : i ≠ j := fun heq => hi (heq ▸ hj)
      exact ⟨j, found, hj, (List.getElem?_set_ne hne).trans hfound, hrest⟩

theorem current_step (h : Current s) (hstep : drawerStep s e = some t) : Current t := by
  cases e with
  | act offerId =>
      obtain ⟨client, asked, hact, rfl⟩ := act_some hstep
      have hselect : s.client.select s.calls.length offerId = (client, asked) :=
        Option.some.inj hact
      unfold UseOfferScoreDetail.select at hselect
      split at hselect
      · obtain ⟨rfl, rfl⟩ := Prod.mk.inj hselect
        refine ⟨h.closed, fun id hid => ?_⟩
        obtain ⟨i, call, hi, hcall, hrest⟩ := h.opened id hid
        have hlt : i < s.calls.length := (List.getElem?_eq_some_iff.mp hcall).1
        exact ⟨i, call, hi, (List.getElem?_append_left hlt).trans hcall, hrest⟩
      · cases offerId with
        | none =>
            obtain ⟨rfl, rfl⟩ := Prod.mk.inj hselect
            exact ⟨fun _ => ⟨rfl, rfl, rfl⟩, fun id hid => by cases hid⟩
        | some offerId =>
            obtain ⟨rfl, rfl⟩ := Prod.mk.inj hselect
            refine ⟨fun hnone => (by cases hnone), fun id hid => ?_⟩
            obtain rfl : offerId = id := Option.some.inj hid
            exact ⟨s.calls.length, { asked := offerId }, rfl, List.getElem?_concat_length, rfl, rfl,
              rfl⟩
  | serve j =>
      obtain ⟨served, hserved, -, rfl⟩ := serve_some hstep
      refine ⟨h.closed, fun id hid => ?_⟩
      obtain ⟨i, call, hi, hcall, hrest⟩ := h.opened id hid
      rcases eq_or_ne j i with rfl | hne
      · obtain rfl : served = call := Option.some.inj (hserved.symm.trans hcall)
        have hlt : j < s.calls.length := (List.getElem?_eq_some_iff.mp hcall).1
        exact ⟨j, _, hi, List.getElem?_set_self hlt, hrest⟩
      · exact ⟨i, call, hi, (List.getElem?_set_ne hne).trans hcall, hrest⟩
  | deliver j =>
      obtain ⟨call, answer, hcall, -, -, rfl⟩ := deliver_some hstep
      exact h.settle hcall (.ok answer)
  | fail j failure =>
      obtain ⟨call, hcall, -, rfl⟩ := fail_some hstep
      exact h.settle hcall (.error failure)
  | change server =>
      obtain rfl := Option.some.inj hstep
      exact ⟨h.closed, h.opened⟩

/-- The request of an earlier selection. -/
def Stale (i : Nat) (s : DrawerState) : Prop :=
  i < s.calls.length ∧ s.client.current ≠ some i

theorem stale_step (h : Stale i s) (hstep : drawerStep s e = some t) : Stale i t := by
  obtain ⟨hlt, hne⟩ := h
  have hsettle : ∀ (j : Nat) (call : Call Nat Unit ScoreAnswer) (result : Except Unit ScoreAnswer),
      Stale i (s.settle scoreDrawer j call result) := by
    intro j call result
    refine ⟨(List.length_set ..).symm ▸ hlt, ?_⟩
    have hcurrent : (s.settle scoreDrawer j call result).client.current = s.client.current := by
      show (s.client.settle j result).current = _
      unfold UseOfferScoreDetail.settle
      split <;> rfl
    rwa [hcurrent]
  cases e with
  | act offerId =>
      obtain ⟨client, asked, hact, rfl⟩ := act_some hstep
      have hselect : s.client.select s.calls.length offerId = (client, asked) :=
        Option.some.inj hact
      refine ⟨by simp only [List.length_append]; omega, ?_⟩
      unfold UseOfferScoreDetail.select at hselect
      split at hselect
      · rwa [← (Prod.mk.inj hselect).1]
      · cases offerId with
        | none =>
            rw [← (Prod.mk.inj hselect).1]
            exact fun hnone => by cases hnone
        | some offerId =>
            rw [← (Prod.mk.inj hselect).1]
            intro hsame
            have := Option.some.inj hsame
            omega
  | serve j =>
      obtain ⟨served, -, -, rfl⟩ := serve_some hstep
      exact ⟨(List.length_set ..).symm ▸ hlt, hne⟩
  | deliver j =>
      obtain ⟨call, answer, -, -, -, rfl⟩ := deliver_some hstep
      exact hsettle j call _
  | fail j failure =>
      obtain ⟨call, -, -, rfl⟩ := fail_some hstep
      exact hsettle j call _
  | change server =>
      obtain rfl := Option.some.inj hstep
      exact ⟨hlt, hne⟩

/-! ## The answers -/

theorem shownScore_eq_some {result : Except Unit ScoreAnswer} {score : ScoreRow} :
    shownScore result = some score ↔ result = .ok (some (some score)) := by
  constructor
  · intro h
    match result with
    | .ok (some (some _)) => rw [Option.some.inj h]
  · rintro rfl
    rfl

theorem latestScore_of_getOfferScore {server : ScoreServer} {offerId : Nat} {score : ScoreRow}
    (h : getOfferScore server.arrange server.db server.scores offerId = some (some score)) :
    LatestScore server offerId score := by
  obtain ⟨_, -, hfirst⟩ := Option.bind_eq_some_iff.mp h
  obtain ⟨profile, hactive, hhead⟩ := Option.bind_eq_some_iff.mp (Option.some.inj hfirst)
  let own := server.scores.filter fun row => row.offerId = offerId ∧ row.profileId = profile.id
  have hmem : ∀ {row}, row ∈ server.arrange own ↔
      row ∈ server.scores ∧ row.offerId = offerId ∧ row.profileId = profile.id := by
    intro row
    rw [(server.arranged own).perm.mem_iff, List.mem_filter, decide_eq_true_eq]
  obtain ⟨rest, hrest⟩ := List.head?_eq_some_iff.mp hhead
  obtain ⟨hstored, hoffer, hprofile⟩ := hmem.mp (hrest ▸ List.mem_cons_self)
  refine ⟨hstored, hoffer, ⟨profile, hactive, hprofile⟩, ?_⟩
  intro other hother hsame hsameProfile
  have hordered := (server.arranged own).ordered
  have hin := hmem.mpr ⟨hother, hsame, hsameProfile.trans hprofile⟩
  rw [hrest] at hordered hin
  rcases List.mem_cons.mp hin with rfl | hlater
  · exact le_refl _
  · exact (List.pairwise_cons.mp hordered).1 other hlater

/-- In every order of selections, requests, answers, failures and changes of the tables, the
drawer shows nothing but the latest score that the selected offer has had since it was selected. -/
theorem drawer_shows_selected_offer {server : ScoreServer}
    (hrun : exec drawerStep ⟨server, {}, []⟩ es = some s) :
    ShowsSelected ⟨server, {}, []⟩ es s := by
  have hstart : Current ⟨server, {}, []⟩ :=
    ⟨fun _ => ⟨rfl, rfl, rfl⟩, fun id hid => by cases hid⟩
  have hcurrent : ∀ {fs u}, exec drawerStep ⟨server, {}, []⟩ fs = some u → Current u := fun h =>
    invariant (fun _ _ _ hs hstep => current_step hs hstep) hstart (.last h)
  have hgenuine : s.Genuine :=
    invariant (fun _ _ _ hs hstep => genuine_step hs hstep)
      (fun i call hcall => by cases hcall) (Reaches.last hrun)
  have h := hcurrent hrun
  refine ⟨fun hnone => (h.closed hnone).2, ?_, ?_, ?_⟩
  · intro hloading
    cases hoffer : s.client.offerId with
    | none =>
        rw [(h.closed hoffer).2.2] at hloading
        cases hloading
    | some id =>
        obtain ⟨i, call, hi, hcall, -, hwaits, hscore⟩ := h.opened id hoffer
        have hnone : call.result = none := Option.isNone_iff_eq_none.mp (hwaits ▸ hloading)
        rw [hscore, hnone]
        exact ⟨rfl, i, call, hi, hcall, hnone⟩
  · intro hoffer hloading
    obtain ⟨id, hid⟩ := Option.ne_none_iff_exists'.mp hoffer
    obtain ⟨i, call, hi, hcall, -, hwaits, hscore⟩ := h.opened id hid
    rw [hloading] at hwaits
    cases hresult : call.result with
    | none =>
        rw [hresult] at hwaits
        cases hwaits
    | some result =>
        rw [hresult] at hscore
        exact ⟨i, call, result, hi, hcall, hresult, hscore⟩
  · intro score hscore
    cases hoffer : s.client.offerId with
    | none =>
        rw [(h.closed hoffer).2.1] at hscore
        cases hscore
    | some id =>
      obtain ⟨i, call, hi, hcall, rfl, -, hshown⟩ := h.opened id hoffer
      rw [hscore] at hshown
      have hresult : call.result = some (.ok (some (some score))) := by
        cases hresult : call.result with
        | none =>
            rw [hresult] at hshown
            cases hshown
        | some result =>
            rw [hresult] at hshown
            exact congrArg some (shownScore_eq_some.mp hshown.symm)
      obtain ⟨before, after, t, t', rfl, hbefore, hserve, hafter, ⟨asked, hasked, hsame⟩, hgiven⟩ :=
        served_at hrun rfl hcall (hgenuine i call hcall _ hresult)
      refine ⟨call.asked, rfl, before, .serve i :: after, t, rfl, hbefore, ?_, ?_⟩
      · rintro u ⟨between, ⟨rest, hsplit⟩, hu⟩
        have hend : exec drawerStep u rest = some s := by
          have hall : exec drawerStep t (between ++ rest) = some s := by
            rw [hsplit]
            exact exec_cons_some.mpr ⟨t', hserve, hafter⟩
          rwa [exec_append, hu] at hall
        have hin : exec drawerStep ⟨server, {}, []⟩ (before ++ between) = some u := by
          rw [exec_append, hbefore]
          exact hu
        obtain ⟨later, hlater, honward⟩ := reaches_onward (.last hu) hasked
        have hselected : u.client.current = some i := by
          by_contra hne
          have hlt : i < u.calls.length := (List.getElem?_eq_some_iff.mp hlater).1
          have hstale : Stale i s :=
            invariant (fun _ _ _ hs hstep => stale_step hs hstep) ⟨hlt, hne⟩ (.last hend)
          exact hstale.2 hi
        rw [((hcurrent hin).selected hselected hlater).1, honward.asked, hsame]
      · exact latestScore_of_getOfferScore (Prod.mk.inj hgiven).1

/-! ## A drawer that is opened again before the first answer comes -/

def scoredTwiceServer : ScoreServer :=
  ⟨scoredTwice.1, scoredTwice.2, fun rows => rows.insertionSort LaterFirst,
    fun _ => permitted_insertionSort⟩

def reopened : List DrawerEvent :=
  [.act (some 7), .serve 0, .act none, .act (some 7), .deliver 0, .serve 1, .deliver 1]

theorem drawer_shows_selected_offer_reopened :
    ∃ s, exec drawerStep ⟨scoredTwiceServer, {}, []⟩ reopened = some s ∧
      s.client.score.map (·.scorePercent) = some 70 ∧
      ShowsSelected ⟨scoredTwiceServer, {}, []⟩ reopened s := by
  obtain ⟨s, hrun⟩ : ∃ s, exec drawerStep ⟨scoredTwiceServer, {}, []⟩ reopened = some s := ⟨_, rfl⟩
  have hscore : (exec drawerStep ⟨scoredTwiceServer, {}, []⟩ reopened).map
      (·.client.score.map (·.scorePercent)) = some (some 70) := by decide +kernel
  rw [hrun] at hscore
  exact ⟨s, hrun, Option.some.inj hscore, drawer_shows_selected_offer hrun⟩

end RecruFlow.Frontend
