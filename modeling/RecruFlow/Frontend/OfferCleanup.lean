import RecruFlow.Lib.Calls
import RecruFlow.Offers.Cleanup

/-!
# The dialog before a cleanup

`useOfferCleanup` asks how many offers a cleanup would delete, and the section shows the
counts in a dialog. What its "Confirm" deletes goes by the date that the section has by then.
-/

namespace RecruFlow.Frontend

open Db Lib.Calls Lib.Trace Offers

/-- `toOlderThanParam`: the first microsecond of a day in UTC, the days counted from the epoch. -/
def toOlderThanParam (date : Int) : Int :=
  date * 86400000000

inductive CleanupRequest where
  | preview (olderThan : Int)
  | delete (olderThan : Int)
  deriving DecidableEq

/-- The two counts of a response; an error status has a message of the client. -/
abbrev CleanupAnswer : Type := Except String (Nat × Nat)

structure OfferCleanup where
  /-- The day of the date input, when it has one. -/
  date : Option Int := none
  previewing : Bool := false
  deleting : Bool := false
  error : Option String := none
  /-- `wouldDelete` and `wouldSkip`; the dialog is there when they are. -/
  preview : Option (Nat × Nat) := none
  /-- `deleted` and `skipped` -/
  result : Option (Nat × Nat) := none

inductive CleanupAct where
  | setDate (date : Option Int)
  | loadPreview
  | confirmDelete
  /-- Of the backdrop, which is not disabled while the offers are deleted. -/
  | cancelPreview

namespace OfferCleanup

/-- What the section lets its user do. -/
def act (s : OfferCleanup) : CleanupAct → Option (OfferCleanup × Option CleanupRequest)
  | .setDate date => some ({ s with date }, none)
  | .loadPreview => s.date.bind fun date =>
      if s.previewing then none
      else some ({ s with previewing := true, error := none },
        some (.preview (toOlderThanParam date)))
  | .confirmDelete => s.date.bind fun date =>
      if s.preview.isNone || s.deleting then none
      else some ({ s with deleting := true, error := none },
        some (.delete (toOlderThanParam date)))
  | .cancelPreview => if s.preview.isNone then none else some ({ s with preview := none }, none)

def settle (s : OfferCleanup) : CleanupRequest → Except String (Nat × Nat) → OfferCleanup
  | .preview _, .ok counts => { s with preview := some counts, previewing := false }
  | .preview _, .error message => { s with error := some message, previewing := false }
  | .delete _, .ok counts =>
      { s with result := some counts, preview := none, deleting := false }
  | .delete _, .error message => { s with error := some message, deleting := false }

end OfferCleanup

section System

variable (maxArguments : Nat)

def handleCleanup (request : CleanupRequest) (db : Database) : CleanupAnswer × Database :=
  match request with
  | .preview olderThan =>
      ((previewOfferCleanup maxArguments olderThan db).mapError fun _ =>
        "failed to preview offer cleanup", db)
  | .delete olderThan =>
      match deleteOffers maxArguments olderThan db with
      | .ok (counts, db') => (.ok counts, db')
      | .error _ => (.error "failed to delete offers", db)

/-- The section and its routes; a request may also fail with a message of the browser. -/
def cleanupSection :
    Protocol Database CleanupRequest String CleanupAnswer OfferCleanup CleanupAct where
  handle := handleCleanup maxArguments
  act _ s e := s.act e
  settle _ request result s := s.settle request (result.bind id)

abbrev CleanupState : Type :=
  Exchange Database CleanupRequest String CleanupAnswer OfferCleanup

abbrev CleanupEvent : Type := ExchangeEvent Database String CleanupAct

abbrev cleanupStep : CleanupState → CleanupEvent → Option CleanupState :=
  exchangeStep (cleanupSection maxArguments)

end System

variable {maxArguments : Nat} {db db' : Database} {olderThan announced : Int}
  {counts deleted : Nat × Nat} {start s t : CleanupState} {e : CleanupEvent}
  {es : List CleanupEvent}

/-- The counts in the dialog are the answer to a preview. -/
def ShowsAnswer (s : CleanupState) : Prop :=
  ∀ counts, s.client.preview = some counts →
    ∃ (i : Nat) (call : Call CleanupRequest String CleanupAnswer) (announced : Int),
      s.calls[i]? = some call ∧ call.asked = .preview announced ∧ call.answer = some (.ok counts)

theorem ShowsAnswer.kept (h : ShowsAnswer s) (hstep : cleanupStep maxArguments s e = some t)
    (hpreview : t.client.preview = s.client.preview ∨ t.client.preview = none) :
    ShowsAnswer t := by
  intro counts hcounts
  rcases hpreview with hsame | hnone
  · obtain ⟨i, call, announced, hcall, hasked, hanswer⟩ := h counts (hsame ▸ hcounts)
    obtain ⟨later, hlater, honward⟩ := calls_onward hstep hcall
    exact ⟨i, later, announced, hlater, honward.asked.trans hasked, honward.answer _ hanswer⟩
  · rw [hnone] at hcounts
    cases hcounts

end RecruFlow.Frontend
