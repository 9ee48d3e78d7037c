import RecruFlow.Frontend.ProfileValidation
import RecruFlow.Lib.Calls
import RecruFlow.Llm.CvExtraction

/-!
# The profile editor

`useProfileEditor` shows the profile that the server last answered it with, and keeps it in
the local storage for the next editor. Its buttons save what is shown, under the id of the
row that it came from, or upload a CV that a new draft is made from.
-/

namespace RecruFlow.Frontend

open Db Lib.Calls Lib.Trace Llm Schemas

/-! ## The routes -/

/-- The rows, and what the language model and `uuid4` would give at the moment of a request. -/
structure EditorServer where
  db : Database
  chains : ExtractionChains
  uuid : String

inductive EditorRequest where
  | load
  | save (profile : ProfileData) (profileId : Option Nat) (activate : Bool)
  | upload (filename : String) (content : ByteArray)

/-- The request of the editor with the number. -/
structure EditorCall where
  editor : Nat
  request : EditorRequest

/-- The body of a response, or the message of the `Error` that the client throws for it. -/
abbrev EditorAnswer : Type := Except String (Option ProfileResponse)

section Routes

variable (pydantic : Pydantic) (reader : FileReader)

/-- The response about a row; a row that cannot be read is a server error. -/
def answerWith (fallback : String) (row : Option ProfileRow) : EditorAnswer :=
  match row.bind (profileResponse pydantic) with
  | some response => .ok (some response)
  | none => .error fallback

def getProfile (db : Database) : EditorAnswer :=
  match getActiveProfile db with
  | none => .ok none
  | some row => answerWith pydantic "failed to load profile" (some row)

/-- `PUT /profile`; the details of a request that is refused are no text. -/
def putProfile (payload : Dict) (profileId : Option Nat) (activate : Bool) (db : Database) :
    EditorAnswer × Database :=
  match Profile.modelValidate pydantic payload with
  | none => (.error "failed to save profile", db)
  | some profile =>
      match upsertProfile profile profileId activate db, resolveProfile profileId activate db with
      | .ok db', .ok (row, _) =>
          (answerWith pydantic "failed to save profile" (getProfileById db' row.id), db')
      | _, _ => (.error ("profile " ++ toString (profileId.getD 0) ++ " not found"), db)

/-- The message of the `Error` for an upload that failed. -/
def uploadMessage : UploadError → String
  | .unsupportedFileType message => message
  | .cvExtraction message => message
  | .unhandled _ => "failed to upload cv"

def handleEditor (call : EditorCall) (server : EditorServer) : EditorAnswer × EditorServer :=
  match call.request with
  | .load => (getProfile pydantic server.db, server)
  | .save profile profileId activate =>
      let put := putProfile pydantic profile.body profileId activate server.db
      (put.1, { server with db := put.2 })
  | .upload filename content =>
      let upload := uploadCv pydantic server.chains reader server.uuid filename content server.db
      ((upload.1.map some).mapError uploadMessage, { server with db := upload.2 })

end Routes

/-! ## The hook -/

/-- The part of a response that the editor reads; `profile` is parsed from its JSON. -/
structure CachedProfile where
  id : Nat
  profile : ProfileData
  isActive : Bool

def emptyProfile : ProfileData where
  skills := some []
  pastRoles := some []
  education := some []
  certifications := some []
  languages := some []
  dealBreakers := some []

structure ProfileEditor where
  profile : ProfileData := emptyProfile
  profileId : Option Nat := none
  isActive : Bool := false
  loading : Bool := false
  saving : Bool := false
  error : Option String := none
  attemptedSubmit : Bool := false
  /-- `loading` of the `CvUploadControl`. -/
  uploading : Bool := false

/-- `setProfile`, `setProfileId`, `setIsActive` and `setError(null)` -/
def ProfileEditor.showing (editor : ProfileEditor) (response : CachedProfile) : ProfileEditor :=
  { editor with
    profile := response.profile
    profileId := some response.id
    isActive := response.isActive
    error := none }

/-- The local storage, and the editors that were mounted; `none` is one that was unmounted. -/
structure EditorPages where
  cache : Option CachedProfile
  editors : List (Option ProfileEditor) := []

inductive EditorAct where
  | mount
  | unmount (m : Nat)
  | setProfile (m : Nat) (profile : ProfileData)
  /-- A click on "Save" or on "Set as active". -/
  | persist (m : Nat) (activate : Bool)
  | uploadCv (m : Nat) (filename : String) (content : ByteArray)

namespace EditorPages

def update (pages : EditorPages) (m : Nat) (f : ProfileEditor → ProfileEditor) : EditorPages :=
  { pages with editors := pages.editors.modify m (Option.map f) }

/-- The editor with the number, when it is mounted. -/
def editor (pages : EditorPages) (m : Nat) : Option ProfileEditor :=
  pages.editors[m]?.join

/-- An editor that finds nothing in the local storage asks for the active profile. -/
def mount (pages : EditorPages) : EditorPages × Option EditorCall :=
  match pages.cache with
  | some response =>
      ({ pages with editors := pages.editors ++ [some (({} : ProfileEditor).showing response)] },
        none)
  | none =>
      ({ pages with editors := pages.editors ++ [some { loading := true }] },
        some ⟨pages.editors.length, .load⟩)

/-- What the page lets its user do: nothing while it loads, no save while one is on its way,
and no upload while one is. -/
def act (pages : EditorPages) : EditorAct → Option (EditorPages × Option EditorCall)
  | .mount => some pages.mount
  | .unmount m => (pages.editor m).map fun _ =>
      ({ pages with editors := pages.editors.set m none }, none)
  | .setProfile m profile => (pages.editor m).bind fun editor =>
      if editor.loading then none
      else some (pages.update m fun editor => { editor with profile }, none)
  | .persist m activate => (pages.editor m).bind fun editor =>
      if editor.loading || editor.saving then none
      else if hasValidationErrors (validateProfile editor.profile) then
        some (pages.update m fun editor => { editor with attemptedSubmit := true }, none)
      else
        some (pages.update m fun editor => { editor with attemptedSubmit := true, saving := true },
          some ⟨m, .save editor.profile editor.profileId activate⟩)
  | .uploadCv m filename content => (pages.editor m).bind fun editor =>
      if editor.loading || editor.uploading then none
      else
        some (pages.update m fun editor => { editor with saving := true, uploading := true },
          some ⟨m, .upload filename content⟩)

end EditorPages

/-- `setLoading(false)` and `setSaving(false)` in the `finally` of a request. -/
def ProfileEditor.finish (editor : ProfileEditor) : EditorRequest → ProfileEditor
  | .load => { editor with loading := false }
  | .save .. => { editor with saving := false }
  | .upload .. => { editor with saving := false, uploading := false }

/-- The handlers of a request. -/
def ProfileEditor.settle (editor : ProfileEditor) (request : EditorRequest) :
    Except String (Option CachedProfile) → ProfileEditor
  | .error message => { editor with error := some message }.finish request
  | .ok none => { editor with error := none }.finish request
  | .ok (some response) =>
      let attemptedSubmit := match request with
        | .upload .. => false
        | _ => editor.attemptedSubmit
      { editor.showing response with attemptedSubmit }.finish request

namespace EditorPages

/-- `writeCachedResponse`, which only the first request leaves out after the unmount. -/
def cached (pages : EditorPages) (call : EditorCall) :
    Except String (Option CachedProfile) → Option CachedProfile
  | .ok (some response) =>
      match call.request with
      | .load => if (pages.editor call.editor).isSome then some response else pages.cache
      | _ => some response
  | _ => pages.cache

def settle (pages : EditorPages) (call : EditorCall)
    (result : Except String (Option CachedProfile)) : EditorPages :=
  { pages.update call.editor (·.settle call.request result) with
    cache := pages.cached call result }

end EditorPages

section System

variable (pydantic : Pydantic) (reader : FileReader) (parsed : Profile → ProfileData)

/-- What the page gets of a response. -/
def received (response : ProfileResponse) : CachedProfile :=
  ⟨response.id, parsed response.profile, response.isActive⟩

/-- What the handlers are given: the response or what was thrown. -/
def outcome : Except String EditorAnswer → Except String (Option CachedProfile)
  | .ok (.ok response) => .ok (response.map (received parsed))
  | .ok (.error message) => .error message
  | .error message => .error message

/-- The editors of a browser and the routes that they call. `parsed` is what `JSON.parse` gives
of a dumped profile; a request may also fail with a message of the browser. -/
def profileEditors :
    Protocol EditorServer EditorCall String EditorAnswer EditorPages EditorAct where
  handle := handleEditor pydantic reader
  act _ pages e := pages.act e
  settle _ call result pages := pages.settle call (outcome parsed result)

abbrev EditorState : Type := Exchange EditorServer EditorCall String EditorAnswer EditorPages

abbrev EditorEvent : Type := ExchangeEvent EditorServer String EditorAct

abbrev editorStep : EditorState → EditorEvent → Option EditorState :=
  exchangeStep (profileEditors pydantic reader parsed)

end System

/-! ## What the routes do -/

def Stored (db : Database) (id : Nat) : Prop :=
  ∃ row ∈ db.profiles, row.id = id

/-- The rows of a response to the request. -/
structure AnsweredWith (pydantic : Pydantic) (db : Database) (request : EditorRequest)
    (response : ProfileResponse) : Prop where
  stored : ∃ row ∈ db.profiles, profileResponse pydantic row = some response
  saved : ∀ profile profileId activate, request = .save profile profileId activate →
    Profile.modelValidate pydantic profile.body = some response.profile ∧
      (∀ id, profileId = some id → response.id = id) ∧ (activate = true → response.isActive = true)

variable {pydantic : Pydantic} {reader : FileReader} {parsed : Profile → ProfileData}
  {db : Database} {server : EditorServer} {call : EditorCall} {response : ProfileResponse}
  {profileId : Option Nat} {activate : Bool}

theorem profileResponse_some {row : ProfileRow}
    (h : profileResponse pydantic row = some response) :
    response.id = row.id ∧ response.isActive = row.isActive ∧
      Scoring.loadProfile pydantic row = some response.profile := by
  obtain ⟨profile, hload, h⟩ := Option.bind_eq_some_iff.mp h
  rw [← Option.some.inj h]
  exact ⟨rfl, rfl, hload⟩

theorem AnsweredWith.id_stored {request : EditorRequest}
    (h : AnsweredWith pydantic db request response) : Stored db response.id := by
  obtain ⟨row, hrow, hresponse⟩ := h.stored
  exact ⟨row, hrow, (profileResponse_some hresponse).1.symm⟩

theorem answerWith_ok {fallback : String} {row : Option ProfileRow}
    (h : answerWith pydantic fallback row = .ok (some response)) :
    ∃ found, row = some found ∧ profileResponse pydantic found = some response := by
  unfold answerWith at h
  split at h
  · next answered hanswered =>
    obtain ⟨found, hfound, hresponse⟩ := Option.bind_eq_some_iff.mp hanswered
    obtain rfl := Option.some.inj (Except.ok.inj h)
    exact ⟨found, hfound, hresponse⟩
  · cases h

/-- A save without an id, or with that of a stored row, finds its row. -/
theorem exists_resolveProfile (hfound : ∀ id, profileId = some id → Stored db id) :
    ∃ row middle, resolveProfile profileId activate db = .ok (row, middle) := by
  unfold resolveProfile
  cases hexisting : existingProfile db profileId with
  | some row => exact ⟨row, db, rfl⟩
  | none =>
    cases profileId with
    | none => exact ⟨_, _, rfl⟩
    | some id =>
        obtain ⟨row, hrow, hid⟩ := hfound id rfl
        have hnone := List.find?_eq_none.mp hexisting row hrow
        exact absurd (decide_eq_true hid) hnone

/-- A save that is accepted and finds its row answers with what it has stored. -/
theorem putProfile_accepted (hown : pydantic.TakesOwn) (hids : ProfileIds db) {payload : Dict}
    {profile : Profile} (hvalid : Profile.modelValidate pydantic payload = some profile)
    (hfound : ∀ id, profileId = some id → Stored db id) :
    ∃ response db', putProfile pydantic payload profileId activate db = (.ok (some response), db') ∧
      ProfileIds db' ∧ (∀ id, Stored db id → Stored db' id) ∧
      (∃ row ∈ db'.profiles, profileResponse pydantic row = some response) ∧
      response.profile = profile ∧ (∀ id, profileId = some id → response.id = id) ∧
      (activate = true → response.isActive = true) := by
  obtain ⟨row, middle, hresolve⟩ := @exists_resolveProfile db profileId activate hfound
  obtain ⟨db', hupsert⟩ : ∃ db', upsertProfile profile profileId activate db = .ok db' := by
    rw [upsertProfile, hresolve]
    exact ⟨_, rfl⟩
  obtain ⟨hmem, hids', -, hcases⟩ := resolveProfile_ok hids hresolve
  obtain ⟨row', middle', hresolve', hprofiles, hnext, -⟩ := upsertProfile_ok hids hupsert
  obtain ⟨rfl, rfl⟩ := Prod.mk.inj (Except.ok.inj (hresolve.symm.trans hresolve'))
  have hsaved : ProfileIds db' :=
    hids'.of_map (f := savedRow row.id profile activate) (fun _ => rfl) hprofiles hnext
  let saved := savedRow row.id profile activate row
  have hin : saved ∈ db'.profiles := by
    rw [hprofiles]
    exact List.mem_map_of_mem hmem
  have hget : getProfileById db' row.id = some saved := hsaved.getProfileById_of_mem hin
  have hread : profileResponse pydantic saved =
      some ⟨saved.id, saved.name, saved.status, saved.isActive, profile⟩ := by
    have hload : Scoring.loadProfile pydantic saved = some profile := by
      have hdata : saved.data = some profile := if_pos rfl
      rw [Scoring.loadProfile, Scoring.profileData, hdata]
      exact Profile.modelValidate_modelDump hown hvalid
    rw [profileResponse, hload]
    rfl
  refine ⟨_, db', ?_, hsaved, ?_, ⟨saved, hin, hread⟩, rfl, ?_, ?_⟩
  · rw [putProfile, hvalid]
    simp only [hupsert, hresolve, hget, answerWith, Option.bind_some, hread]
  · rintro id ⟨other, hother, hid⟩
    have hmiddle : other ∈ middle.profiles := by
      rcases hcases with ⟨-, hsame⟩ | ⟨-, -, -, happend⟩
      · rw [hsame]
        exact hother
      · rw [happend]
        exact List.mem_append_left _ hother
    refine ⟨savedRow row.id profile activate other, ?_, hid⟩
    rw [hprofiles]
    exact List.mem_map_of_mem hmiddle
  · rintro id rfl
    rcases hcases with ⟨hexisting, -⟩ | ⟨hnone, -⟩
    · have hid := List.find?_some hexisting
      exact of_decide_eq_true hid
    · obtain ⟨other, hother, hid⟩ := hfound id rfl
      exact absurd (decide_eq_true hid) (List.find?_eq_none.mp hnone other hother)
  · rintro rfl
    exact decide_eq_true rfl

theorem putProfile_refused {payload : Dict}
    (hinvalid : Profile.modelValidate pydantic payload = none) :
    putProfile pydantic payload profileId activate db = (.error "failed to save profile", db) := by
  rw [putProfile, hinvalid]

/-- The request names no row that is not stored. -/
def Found (db : Database) (request : EditorRequest) : Prop :=
  ∀ profile id activate, request = .save profile (some id) activate → Stored db id

theorem handleEditor_upload {editor : Nat} {filename : String} {content : ByteArray}
    (hids : ProfileIds server.db) :
    let handled := handleEditor pydantic reader ⟨editor, .upload filename content⟩ server
    ProfileIds handled.2.db ∧ (∀ id, Stored server.db id → Stored handled.2.db id) ∧
      ∀ response, handled.1 = .ok (some response) →
        ∃ row ∈ handled.2.db.profiles, profileResponse pydantic row = some response := by
  intro handled
  cases hextract : extractCvText reader filename content >>=
      extractProfileFromCvText pydantic server.chains with
  | error e =>
      have hupload : uploadCv pydantic server.chains reader server.uuid filename content server.db =
          (.error e, server.db) := by
        rw [uploadCv, hextract]
      have hhandled : handled = (.error (uploadMessage e), server) := by
        simp only [handled, handleEditor, hupload]
        rfl
      rw [hhandled]
      exact ⟨hids, fun _ h => h, fun response h => by cases h⟩
  | ok profile =>
      let inserted := insertProfile ("draft-" ++ server.uuid) .draft (some profile) server.db
      have hupload : uploadCv pydantic server.chains reader server.uuid filename content server.db =
          (orUnhandled (profileResponse pydantic inserted.1), inserted.2) := by
        rw [uploadCv, hextract]
      have hhandled : handled =
          (((orUnhandled (profileResponse pydantic inserted.1)).map some).mapError uploadMessage,
            { server with db := inserted.2 }) := by
        simp only [handled, handleEditor, hupload]
      rw [hhandled]
      refine ⟨hids.insertProfile .., ?_, ?_⟩
      · rintro id ⟨row, hrow, hid⟩
        exact ⟨row, List.mem_append_left _ hrow, hid⟩
      · intro response h
        refine ⟨inserted.1, List.mem_append_right _ (List.mem_singleton_self _), ?_⟩
        cases hread : profileResponse pydantic inserted.1 with
        | none =>
            rw [hread] at h
            cases h
        | some read =>
            rw [hread] at h
            exact congrArg some (Option.some.inj (Except.ok.inj h))

/-- What a request that finds its row leaves, and what its answer is about. -/
theorem handleEditor_spec (hown : pydantic.TakesOwn) (hids : ProfileIds server.db)
    (hfound : Found server.db call.request) :
    let handled := handleEditor pydantic reader call server
    ProfileIds handled.2.db ∧ (∀ id, Stored server.db id → Stored handled.2.db id) ∧
      (∀ response, handled.1 = .ok (some response) →
        AnsweredWith pydantic handled.2.db call.request response) ∧
      ∀ profile profileId activate, call.request = .save profile profileId activate →
        Profile.modelValidate pydantic profile.body ≠ none →
          ∃ response, handled.1 = .ok (some response) := by
  obtain ⟨editor, request⟩ := call
  cases request with
  | load =>
      refine ⟨hids, fun _ h => h, ?_, fun _ _ _ h => by cases h⟩
      intro response h
      refine ⟨?_, fun _ _ _ h => by cases h⟩
      change getProfile pydantic server.db = _ at h
      unfold getProfile at h
      split at h
      · cases h
      · next row hactive =>
        obtain ⟨found, hrow, hresponse⟩ := answerWith_ok h
        obtain rfl := Option.some.inj hrow
        exact ⟨row, List.mem_of_find?_eq_some hactive, hresponse⟩
  | save profile profileId activate =>
      cases hvalid : Profile.modelValidate pydantic profile.body with
      | none =>
          have hhandled : handleEditor pydantic reader ⟨editor, .save profile profileId activate⟩
              server = (.error "failed to save profile", server) := by
            simp only [handleEditor, putProfile_refused hvalid]
          simp only [hhandled]
          refine ⟨hids, fun _ h => h, fun _ h => (by cases h), ?_⟩
          intro profile' profileId' activate' h hnot
          obtain ⟨rfl, -, -⟩ := EditorRequest.save.inj h
          exact absurd hvalid hnot
      | some accepted =>
          obtain ⟨response, db', hput, hids', hkept, hstored, hprofile, hid, hactive⟩ :=
            @putProfile_accepted pydantic _ profileId activate hown hids _ _ hvalid
              fun id h => hfound profile id activate (by rw [h])
          have hhandled : handleEditor pydantic reader ⟨editor, .save profile profileId activate⟩
              server = (.ok (some response), { server with db := db' }) := by
            simp only [handleEditor, hput]
          simp only [hhandled]
          refine ⟨hids', hkept, ?_, fun _ _ _ _ _ => ⟨response, rfl⟩⟩
          intro response' h
          obtain rfl := Option.some.inj (Except.ok.inj h)
          refine ⟨hstored, fun profile' profileId' activate' hsame => ?_⟩
          obtain ⟨rfl, rfl, rfl⟩ := EditorRequest.save.inj hsame
          exact ⟨hprofile ▸ hvalid, hid, hactive⟩
  | upload filename content =>
      obtain ⟨hids', hkept, hstored⟩ :=
        @handleEditor_upload pydantic reader server editor filename content hids
      exact ⟨hids', hkept, fun response h => ⟨hstored response h, fun _ _ _ h => by cases h⟩,
        fun _ _ _ h => by cases h⟩

end RecruFlow.Frontend
