import RecruFlow.Frontend.ProfileEditor

/-!
# What the profile editors save

However many editors are mounted and however their requests overlap, a save is about a row
that is stored, and nothing but its body makes the server refuse it.
-/

namespace RecruFlow.Frontend

open Db Lib.Calls Lib.Trace Llm Schemas

variable {pydantic : Pydantic} {reader : FileReader} {parsed : Profile → ProfileData}

/-! ## The editors of a browser -/

section Pages

variable {pages pages' : EditorPages} {m j : Nat} {f : ProfileEditor → ProfileEditor}
  {editor editor' : ProfileEditor} {call : EditorCall} {asked : Option EditorCall}
  {result : Except String (Option CachedProfile)} {response : CachedProfile}

theorem editor_update :
    (pages.update m f).editor j = (pages.editor j).map fun editor =>
      if m = j then f editor else editor := by
  unfold EditorPages.editor EditorPages.update
  rw [List.getElem?_modify]
  cases pages.editors[j]? with
  | none => rfl
  | some found =>
      by_cases hj : m = j
      · simp only [hj, if_true]
        rfl
      · simp only [hj, if_false]
        exact Option.map_id'.symm

theorem editor_append {new : ProfileEditor}
    (h : ({ pages with editors := pages.editors ++ [some new] } : EditorPages).editor j =
      some editor) : pages.editor j = some editor ∨ (j = pages.editors.length ∧ editor = new) := by
  unfold EditorPages.editor at h ⊢
  rcases Nat.lt_trichotomy j pages.editors.length with hlt | rfl | hgt
  · left
    rwa [List.getElem?_append_left hlt] at h
  · right
    rw [List.getElem?_concat_length] at h
    exact ⟨rfl, (Option.some.inj h).symm⟩
  · have hnone : (pages.editors ++ [some new])[j]? = none := by
      apply List.getElem?_eq_none
      rw [List.length_append, List.length_singleton]
      omega
    rw [hnone] at h
    cases h

theorem editor_set_none
    (h : ({ pages with editors := pages.editors.set m none } : EditorPages).editor j =
      some editor) : pages.editor j = some editor := by
  unfold EditorPages.editor at h ⊢
  rcases eq_or_ne m j with rfl | hne
  · rw [List.getElem?_set] at h
    split at h
    · split at h <;> cases h
    · contradiction
  · rwa [List.getElem?_set_ne hne] at h

/-- What a click or a change does to an editor: it is the same one, or it was just mounted. -/
structure Kept (editor editor' : ProfileEditor) : Prop where
  profileId : editor'.profileId = editor.profileId
  loading : editor'.loading = editor.loading
  saving : editor.saving = true → editor'.saving = true

theorem Kept.refl : Kept editor editor :=
  ⟨rfl, rfl, id⟩

theorem kept_update (hf : ∀ editor, Kept editor (f editor))
    (h : (pages.update m f).editor j = some editor') :
    ∃ editor, pages.editor j = some editor ∧ Kept editor editor' := by
  rw [editor_update] at h
  obtain ⟨editor, hj, rfl⟩ := Option.map_eq_some_iff.mp h
  refine ⟨editor, hj, ?_⟩
  split
  · exact hf editor
  · exact .refl

theorem editor_update_self (h : pages.editor m = some editor) :
    (pages.update m f).editor m = some (f editor) := by
  rw [editor_update, h]
  exact congrArg some (if_pos rfl)

theorem editor_update_kept (hf : ∀ editor, Kept editor (f editor))
    (h : pages.editor j = some editor) :
    ∃ editor', (pages.update m f).editor j = some editor' ∧ Kept editor editor' := by
  rw [editor_update, h]
  refine ⟨_, rfl, ?_⟩
  split
  · exact hf editor
  · exact .refl

/-- The request that a click makes, and the editor that it is made from. -/
inductive Asks (pages : EditorPages) : EditorAct → EditorCall → Prop where
  | save (m : Nat) (editor : ProfileEditor) (activate : Bool)
      (mounted : pages.editor m = some editor)
      (idle : editor.loading = false ∧ editor.saving = false)
      (valid : hasValidationErrors (validateProfile editor.profile) = false) :
      Asks pages (.persist m activate) ⟨m, .save editor.profile editor.profileId activate⟩
  | upload (m : Nat) (filename : String) (content : ByteArray) :
      Asks pages (.uploadCv m filename content) ⟨m, .upload filename content⟩

/-- What the user of a mounted editor does. -/
structure ByUser (pages : EditorPages) (a : EditorAct) (pages' : EditorPages)
    (asked : Option EditorCall) : Prop where
  cache : pages'.cache = pages.cache
  editors : ∀ j editor', pages'.editor j = some editor' →
    ∃ editor, pages.editor j = some editor ∧ Kept editor editor'
  mounted : (∀ m, a ≠ .unmount m) → ∀ j editor, pages.editor j = some editor →
    ∃ editor', pages'.editor j = some editor' ∧ Kept editor editor'
  asked : ∀ call, asked = some call → Asks pages a call ∧
    ∃ editor, pages'.editor call.editor = some editor ∧ editor.saving = true

theorem byUser_update {a : EditorAct} (hf : ∀ editor, Kept editor (f editor))
    (hasked : ∀ call, asked = some call → Asks pages a call ∧
      ∃ editor, (pages.update m f).editor call.editor = some editor ∧ editor.saving = true) :
    ByUser pages a (pages.update m f) asked :=
  ⟨rfl, fun _ _ => kept_update hf, fun _ _ _ => editor_update_kept hf, hasked⟩

theorem byUser_of_act {a : EditorAct} (h : pages.act a = some (pages', asked))
    (hmount : a ≠ .mount) : ByUser pages a pages' asked := by
  cases a with
  | mount => exact absurd rfl hmount
  | unmount m =>
      obtain ⟨editor, -, heq⟩ := Option.map_eq_some_iff.mp h
      obtain ⟨rfl, rfl⟩ := Prod.mk.inj heq
      exact ⟨rfl, fun j editor' hj => ⟨editor', editor_set_none hj, .refl⟩,
        fun hnot => absurd rfl (hnot m), fun call hcall => by cases hcall⟩
  | setProfile m profile =>
      obtain ⟨editor, -, h⟩ := Option.bind_eq_some_iff.mp h
      split at h
      · cases h
      · obtain ⟨rfl, rfl⟩ := Prod.mk.inj (Option.some.inj h)
        exact byUser_update (fun _ => ⟨rfl, rfl, id⟩) fun call hcall => by cases hcall
  | persist m activate =>
      obtain ⟨editor, hm, h⟩ := Option.bind_eq_some_iff.mp h
      split at h
      · cases h
      · next hidle =>
        have hidle := Bool.or_eq_false_iff.mp (Bool.eq_false_iff.mpr hidle)
        split at h
        · obtain ⟨rfl, rfl⟩ := Prod.mk.inj (Option.some.inj h)
          exact byUser_update (fun _ => ⟨rfl, rfl, id⟩) fun call hcall => by cases hcall
        · next hvalid =>
          obtain ⟨rfl, rfl⟩ := Prod.mk.inj (Option.some.inj h)
          refine byUser_update (fun _ => ⟨rfl, rfl, fun _ => rfl⟩) ?_
          intro call hcall
          obtain rfl := Option.some.inj hcall
          exact ⟨.save m editor activate hm hidle (Bool.eq_false_iff.mpr hvalid), _,
            editor_update_self hm, rfl⟩
  | uploadCv m filename content =>
      obtain ⟨editor, hm, h⟩ := Option.bind_eq_some_iff.mp h
      split at h
      · cases h
      · obtain ⟨rfl, rfl⟩ := Prod.mk.inj (Option.some.inj h)
        refine byUser_update (fun _ => ⟨rfl, rfl, fun _ => rfl⟩) ?_
        intro call hcall
        obtain rfl := Option.some.inj hcall
        exact ⟨.upload m filename content, _, editor_update_self hm, rfl⟩

/-- A new editor shows what is in the local storage, or asks and shows nothing. -/
theorem mount_cases (h : pages.mount = (pages', asked)) :
    ∃ editor, pages' = { pages with editors := pages.editors ++ [some editor] } ∧
      ((∃ response, pages.cache = some response ∧ asked = none ∧
          editor = ({} : ProfileEditor).showing response) ∨
        (asked = some ⟨pages.editors.length, .load⟩ ∧ editor = { loading := true })) := by
  unfold EditorPages.mount at h
  split at h
  · next response hcache =>
    obtain ⟨rfl, rfl⟩ := Prod.mk.inj h
    exact ⟨_, rfl, .inl ⟨response, hcache, rfl, rfl⟩⟩
  · obtain ⟨rfl, rfl⟩ := Prod.mk.inj h
    exact ⟨_, rfl, .inr ⟨rfl, rfl⟩⟩

theorem editor_settle :
    (pages.settle call result).editor j = (pages.editor j).map fun editor =>
      if call.editor = j then editor.settle call.request result else editor :=
  editor_update

theorem settle_profileId {request : EditorRequest} :
    (editor.settle request result).profileId = editor.profileId ∨
      ∃ response, result = .ok (some response) ∧
        (editor.settle request result).profileId = some response.id := by
  match result with
  | .error message =>
      left
      cases request <;> rfl
  | .ok none =>
      left
      cases request <;> rfl
  | .ok (some response) =>
      right
      refine ⟨response, rfl, ?_⟩
      cases request <;> rfl

theorem cached_cases : pages.cached call result = pages.cache ∨
    ∃ response, result = .ok (some response) ∧ pages.cached call result = some response := by
  match result with
  | .error message => exact .inl rfl
  | .ok none => exact .inl rfl
  | .ok (some response) =>
      unfold EditorPages.cached
      dsimp only
      split
      · split
        · exact .inr ⟨response, rfl, rfl⟩
        · exact .inl rfl
      · exact .inr ⟨response, rfl, rfl⟩

end Pages

/-- A result that shows something is a response of the server. -/
theorem outcome_eq_ok {result : Except String EditorAnswer} {shown : CachedProfile}
    (h : outcome parsed result = .ok (some shown)) :
    ∃ response, result = .ok (.ok (some response)) ∧ shown = received parsed response := by
  match result with
  | .ok (.ok (some response)) =>
      exact ⟨response, rfl, (Option.some.inj (Except.ok.inj h)).symm⟩

/-! ## Every save finds its row -/

variable {s t : EditorState} {e : EditorEvent} {es : List EditorEvent} {i : Nat}

/-- Others leave the rows of the profiles where they are. -/
def KeepsProfiles (s : EditorState) : EditorEvent → Prop
  | .change server => ProfileIds server.db ∧
      ∀ id, Stored s.server.db id → Stored server.db id
  | _ => True

/-- The profile of a save has passed the checks of the editor. -/
def Checked (request : EditorRequest) : Prop :=
  ∀ profile profileId activate, request = .save profile profileId activate →
    hasValidationErrors (validateProfile profile) = false

/-- What the editors know by its id is stored, and what they send has passed their checks. -/
structure EditorInv (s : EditorState) : Prop where
  ids : ProfileIds s.server.db
  cached : ∀ shown, s.client.cache = some shown → Stored s.server.db shown.id
  editors : ∀ m editor, s.client.editor m = some editor →
    ∀ id, editor.profileId = some id → Stored s.server.db id
  found : ∀ (i : Nat) call, s.calls[i]? = some call → Found s.server.db call.asked.request
  checked : ∀ (i : Nat) call, s.calls[i]? = some call → Checked call.asked.request
  answered : ∀ (i : Nat) call response, s.calls[i]? = some call →
    call.answer = some (.ok (some response)) → Stored s.server.db response.id
  genuine : s.Genuine

/-- The rows of another moment. -/
theorem EditorInv.serverMoved (h : EditorInv s) {server : EditorServer}
    (hids : ProfileIds server.db) (hkept : ∀ id, Stored s.server.db id → Stored server.db id) :
    EditorInv { s with server } :=
  { ids := hids
    cached := fun shown hshown => hkept _ (h.cached shown hshown)
    editors := fun m editor hm id hid => hkept _ (h.editors m editor hm id hid)
    found := fun i call hcall profile id activate hrequest =>
      hkept _ (h.found i call hcall profile id activate hrequest)
    checked := h.checked
    answered := fun i call response hcall hanswer =>
      hkept _ (h.answered i call response hcall hanswer)
    genuine := h.genuine }

/-- A result that the server has answered shows a row that is stored. -/
theorem EditorInv.settle (h : EditorInv s) {call : Call EditorCall String EditorAnswer}
    {result : Except String EditorAnswer} (hcall : s.calls[i]? = some call)
    (hanswer : ∀ answer, result = .ok answer → call.answer = some answer)
    (hgenuine : (s.settle (profileEditors pydantic reader parsed) i call result).Genuine) :
    EditorInv (s.settle (profileEditors pydantic reader parsed) i call result) := by
  have hstored : ∀ shown, outcome parsed result = .ok (some shown) →
      Stored s.server.db shown.id := by
    intro shown hshown
    obtain ⟨response, hresult, rfl⟩ := outcome_eq_ok hshown
    exact h.answered i call response hcall (hanswer _ hresult)
  refine ⟨h.ids, ?_, ?_, ?_, ?_, ?_, hgenuine⟩
  · intro shown hshown
    rcases @cached_cases s.client call.asked (outcome parsed result) with
      hsame | ⟨response, hresult, hnew⟩
    · exact h.cached shown (hsame.symm.trans hshown)
    · obtain rfl : response = shown := Option.some.inj (hnew.symm.trans hshown)
      exact hstored response hresult
  · intro m editor' hm profileId hid
    change (s.client.settle call.asked (outcome parsed result)).editor m = some editor' at hm
    rw [editor_settle] at hm
    obtain ⟨editor, hfound, rfl⟩ := Option.map_eq_some_iff.mp hm
    split at hid
    · rcases @settle_profileId editor (outcome parsed result) call.asked.request with
        hsame | ⟨response, hresult, hnew⟩
      · exact h.editors m editor hfound profileId (hsame.symm.trans hid)
      · obtain rfl : response.id = profileId := Option.some.inj (hnew.symm.trans hid)
        exact hstored response hresult
    · exact h.editors m editor hfound profileId hid
  · intro j found hfound
    obtain ⟨before, hbefore, hasked, -⟩ := settle_calls hcall hfound
    rw [hasked]
    exact h.found j before hbefore
  · intro j found hfound
    obtain ⟨before, hbefore, hasked, -⟩ := settle_calls hcall hfound
    rw [hasked]
    exact h.checked j before hbefore
  · intro j found response hfound hanswered
    obtain ⟨before, hbefore, -, hsame, -⟩ := settle_calls hcall hfound
    exact h.answered j before response hbefore (hsame ▸ hanswered)

/-- What a request asks for is in the editors and in the local storage. -/
theorem EditorInv.act (h : EditorInv s) {a : EditorAct} {pages : EditorPages}
    {asked : Option EditorCall} (hact : s.client.act a = some (pages, asked)) :
    (∀ shown, pages.cache = some shown → Stored s.server.db shown.id) ∧
      (∀ m editor, pages.editor m = some editor →
        ∀ profileId, editor.profileId = some profileId → Stored s.server.db profileId) ∧
      ∀ call, asked = some call → Found s.server.db call.request ∧ Checked call.request := by
  by_cases hmount : a = .mount
  · subst hmount
    obtain ⟨new, rfl, hnew⟩ := mount_cases (Option.some.inj hact)
    refine ⟨h.cached, ?_, ?_⟩
    · intro m editor hm profileId hid
      rcases editor_append hm with hold | ⟨-, rfl⟩
      · exact h.editors m editor hold profileId hid
      · rcases hnew with ⟨shown, hcache, -, rfl⟩ | ⟨-, rfl⟩
        · obtain rfl : shown.id = profileId := Option.some.inj hid
          exact h.cached shown hcache
        · cases hid
    · intro call hcall
      rcases hnew with ⟨-, -, rfl, -⟩ | ⟨rfl, -⟩
      · cases hcall
      · obtain rfl := Option.some.inj hcall
        exact ⟨fun _ _ _ hrequest => (by cases hrequest), fun _ _ _ hrequest => (by cases hrequest)⟩
  · have huser := byUser_of_act hact hmount
    refine ⟨fun shown hshown => h.cached shown (huser.cache ▸ hshown), ?_, ?_⟩
    · intro m editor' hm profileId hid
      obtain ⟨editor, hfound, hkept⟩ := huser.editors m editor' hm
      exact h.editors m editor hfound profileId (hkept.profileId ▸ hid)
    · intro call hcall
      cases (huser.asked call hcall).1 with
      | save m editor activate hm hidle hvalid =>
          constructor
          · intro profile profileId activate' hrequest
            obtain ⟨-, hid, -⟩ := EditorRequest.save.inj hrequest
            exact h.editors m editor hm profileId hid
          · intro profile profileId activate' hrequest
            obtain ⟨rfl, -, -⟩ := EditorRequest.save.inj hrequest
            exact hvalid
      | upload =>
          exact ⟨fun _ _ _ hrequest => (by cases hrequest),
            fun _ _ _ hrequest => (by cases hrequest)⟩

theorem editorInv_step (hown : pydantic.TakesOwn) (h : EditorInv s) (hkeeps : KeepsProfiles s e)
    (hstep : editorStep pydantic reader parsed s e = some t) : EditorInv t := by
  have hgenuine : t.Genuine := genuine_step h.genuine hstep
  cases e with
  | act a =>
      obtain ⟨pages, asked, hact, rfl⟩ := act_some hstep
      obtain ⟨hcached, heditors, hasked⟩ := h.act hact
      refine ⟨h.ids, hcached, heditors, ?_, ?_, ?_, hgenuine⟩
      · intro i call hcall
        rcases act_calls hcall with hold | ⟨-, hnew, -⟩
        · exact h.found i call hold
        · exact (hasked call.asked hnew).1
      · intro i call hcall
        rcases act_calls hcall with hold | ⟨-, hnew, -⟩
        · exact h.checked i call hold
        · exact (hasked call.asked hnew).2
      · intro i call response hcall hanswer
        rcases act_calls hcall with hold | ⟨-, -, hnone, -⟩
        · exact h.answered i call response hold hanswer
        · rw [hnone] at hanswer
          cases hanswer
  | serve j =>
      obtain ⟨served, hserved, -, rfl⟩ := serve_some hstep
      obtain ⟨hids, hkept, hanswers, -⟩ := @handleEditor_spec pydantic reader s.server served.asked
        hown h.ids (h.found j served hserved)
      have hmoved := h.serverMoved hids hkept
      refine ⟨hids, hmoved.cached, hmoved.editors, ?_, ?_, ?_, hgenuine⟩
      · intro i call hcall
        rcases serve_calls hserved hcall with ⟨rfl, rfl⟩ | ⟨-, hold⟩
        · exact hmoved.found j served hserved
        · exact hmoved.found i call hold
      · intro i call hcall
        rcases serve_calls hserved hcall with ⟨rfl, rfl⟩ | ⟨-, hold⟩
        · exact h.checked j served hserved
        · exact h.checked i call hold
      · intro i call response hcall hanswer
        rcases serve_calls hserved hcall with ⟨rfl, rfl⟩ | ⟨-, hold⟩
        · exact (hanswers response (Option.some.inj hanswer)).id_stored
        · exact hmoved.answered i call response hold hanswer
  | deliver j =>
      obtain ⟨call, answer, hcall, hanswer, -, rfl⟩ := deliver_some hstep
      exact h.settle hcall (fun _ heq => hanswer.trans (congrArg some (Except.ok.inj heq))) hgenuine
  | fail j failure =>
      obtain ⟨call, hcall, -, rfl⟩ := fail_some hstep
      exact h.settle hcall (fun _ heq => by cases heq) hgenuine
  | change server =>
      obtain rfl := Option.some.inj hstep
      exact h.serverMoved hkeeps.1 hkeeps.2

/-- A save was checked, is about a row that is stored, and is refused for nothing but its
body: else its response says what was stored. -/
structure SavesSound (pydantic : Pydantic) (s : EditorState) : Prop where
  editors : ∀ m editor, s.client.editor m = some editor →
    ∀ profileId, editor.profileId = some profileId → Stored s.server.db profileId
  saves : ∀ (i : Nat) call profile profileId activate, s.calls[i]? = some call →
    call.asked.request = .save profile profileId activate →
    hasValidationErrors (validateProfile profile) = false ∧
      (∀ id, profileId = some id → Stored s.server.db id) ∧
      ∀ answer, call.answer = some answer →
        (Profile.modelValidate pydantic profile.body = none ∧
            answer = .error "failed to save profile") ∨
          ∃ response, answer = .ok (some response) ∧
            Profile.modelValidate pydantic profile.body = some response.profile ∧
            (∀ id, profileId = some id → response.id = id) ∧
            (activate = true → response.isActive = true)

variable {server : EditorServer} {cache : Option CachedProfile}

theorem editorInv_exec (hown : pydantic.TakesOwn) (hids : ProfileIds server.db)
    (hcache : ∀ shown, cache = some shown → Stored server.db shown.id)
    (hkeeps : Along (editorStep pydantic reader parsed) KeepsProfiles ⟨server, ⟨cache, []⟩, []⟩ es)
    (hreach : Reaches (editorStep pydantic reader parsed) ⟨server, ⟨cache, []⟩, []⟩ es s) :
    EditorInv s := by
  refine along_invariant (fun _ _ _ h hP hstep => editorInv_step hown h hP hstep) ?_ hkeeps hreach
  exact
    { ids := hids
      cached := hcache
      editors := fun m editor hm => by cases hm
      found := fun i call hcall => by cases hcall
      checked := fun i call hcall => by cases hcall
      answered := fun i call response hcall => by cases hcall
      genuine := fun i call hcall => by cases hcall }

/-- However many editors are mounted, whatever they do and in whatever order their requests
are served and answered, no save fails for a row that is not there. -/
theorem every_save_finds_its_row (hown : pydantic.TakesOwn) (hids : ProfileIds server.db)
    (hcache : ∀ shown, cache = some shown → Stored server.db shown.id)
    (hkeeps : Along (editorStep pydantic reader parsed) KeepsProfiles ⟨server, ⟨cache, []⟩, []⟩ es)
    (hrun : exec (editorStep pydantic reader parsed) ⟨server, ⟨cache, []⟩, []⟩ es = some s) :
    SavesSound pydantic s := by
  have h : EditorInv s := editorInv_exec hown hids hcache hkeeps (.last hrun)
  refine ⟨h.editors, ?_⟩
  intro i call profile profileId activate hcall hrequest
  refine ⟨h.checked i call hcall profile profileId activate hrequest, ?_, ?_⟩
  · rintro id rfl
    exact h.found i call hcall profile id activate hrequest
  · intro answer hanswer
    obtain ⟨before, after, t, t', rfl, hbefore, -, -, ⟨asked, hasked, hsame⟩, hhandled⟩ :=
      served_at hrun rfl hcall hanswer
    have ht : EditorInv t :=
      editorInv_exec hown hids hcache hkeeps ⟨before, List.prefix_append _ _, hbefore⟩
    obtain ⟨-, -, hanswers, haccepted⟩ := @handleEditor_spec pydantic reader t.server call.asked
      hown ht.ids (hsame ▸ ht.found i asked hasked)
    change handleEditor pydantic reader call.asked t.server = (answer, t'.server) at hhandled
    rw [hhandled] at hanswers haccepted
    cases hvalid : Profile.modelValidate pydantic profile.body with
    | none =>
        left
        refine ⟨rfl, ?_⟩
        have hrefused := @putProfile_refused pydantic t.server.db profileId activate _ hvalid
        have hfirst := congrArg Prod.fst hhandled
        unfold handleEditor at hfirst
        rw [hrequest] at hfirst
        simp only [hrefused] at hfirst
        exact hfirst.symm
    | some accepted =>
        right
        obtain ⟨response, hok⟩ := haccepted profile profileId activate hrequest
          (by rw [hvalid]; exact Option.some_ne_none accepted)
        obtain ⟨hstored, hid, hactive⟩ :=
          (hanswers response hok).saved profile profileId activate hrequest
        exact ⟨response, hok, hvalid ▸ hstored, hid, hactive⟩

/-! ## A save of a text -/

/-- What `JSON.parse` gives of a dumped profile whose lists are empty. -/
def parsedTexts (profile : Profile) : ProfileData :=
  { emptyProfile with
    projects := some []
    industryTags := some []
    links := some []
    headline := profile.headline
    summary := profile.summary
    email := profile.email
    phone := profile.phone
    location := profile.location }

def juniorServer : EditorServer where
  db :=
    { profiles := [⟨1, defaultProfileName, .active, true,
        some { Profile.empty with headline := some "junior" }⟩]
      nextProfileId := 2 }
  chains := eagerChains
  uuid := "1"

def senior : ProfileData :=
  { emptyProfile with headline := some "senior" }

theorem juniorServer_ids : ProfileIds juniorServer.db :=
  ⟨List.nodup_singleton 1, fun row hrow => by rw [List.mem_singleton.mp hrow]; decide⟩

/-- The headlines that are stored. -/
def headlines (s : EditorState) : List (Option String) :=
  s.server.db.profiles.map fun row => row.data.bind (·.headline)

/-- Two editors ask for the profile, and one of them saves it before the other is answered. -/
def twoEditors : List EditorEvent :=
  [.act .mount, .act .mount, .serve 0, .serve 1, .deliver 0, .act (.setProfile 0 senior),
    .act (.persist 0 false), .deliver 1, .act (.unmount 0), .serve 2, .deliver 2]

theorem every_save_finds_its_row_senior :
    ∃ s, exec (editorStep .exact wordReader parsedTexts) ⟨juniorServer, ⟨none, []⟩, []⟩
        twoEditors = some s ∧ headlines s = [some "senior"] ∧ SavesSound .exact s := by
  obtain ⟨s, hrun⟩ : ∃ s, exec (editorStep .exact wordReader parsedTexts)
      ⟨juniorServer, ⟨none, []⟩, []⟩ twoEditors = some s := ⟨_, rfl⟩
  have hheadlines : (exec (editorStep .exact wordReader parsedTexts)
      ⟨juniorServer, ⟨none, []⟩, []⟩ twoEditors).map headlines = some [some "senior"] := by
    decide +kernel
  rw [hrun] at hheadlines
  refine ⟨s, hrun, Option.some.inj hheadlines, ?_⟩
  apply every_save_finds_its_row Pydantic.exact_takesOwn juniorServer_ids
    (fun shown hshown => by cases hshown) ?_ hrun
  exact ⟨trivial, fun _ _ => ⟨trivial, fun _ _ => ⟨trivial, fun _ _ => ⟨trivial, fun _ _ =>
    ⟨trivial, fun _ _ => ⟨trivial, fun _ _ => ⟨trivial, fun _ _ => ⟨trivial, fun _ _ =>
      ⟨trivial, fun _ _ => ⟨trivial, fun _ _ => ⟨trivial, fun _ _ => trivial⟩⟩⟩⟩⟩⟩⟩⟩⟩⟩⟩

end RecruFlow.Frontend
