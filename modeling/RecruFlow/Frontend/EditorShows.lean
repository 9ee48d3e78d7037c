import RecruFlow.Frontend.EditorSaves

/-!
# What the profile editor shows

When the requests of an editor do not overlap, what it shows after one was answered is what
is stored, and what the next editor will find in the local storage.
-/

namespace RecruFlow.Frontend

open Db Lib.Calls Lib.Trace Llm Schemas

variable {pydantic : Pydantic} {reader : FileReader} {parsed : Profile → ProfileData}
  {s t : EditorState} {e : EditorEvent} {es : List EditorEvent} {i : Nat}
  {server : EditorServer} {cache : Option CachedProfile}

/-! ## One request at a time -/

/-- No request is on its way. -/
def NonePending (s : EditorState) : Prop :=
  ∀ (i : Nat) call, s.calls[i]? = some call → call.result ≠ none

/-- At most one request is on its way, its editor is waiting for it, and what it was
answered is what is stored. -/
structure OneAtATime (pydantic : Pydantic) (s : EditorState) : Prop where
  one : ∀ (i j : Nat) call call', s.calls[i]? = some call → s.calls[j]? = some call' →
    call.result = none → call'.result = none → i = j
  busy : ∀ (i : Nat) call, s.calls[i]? = some call → call.result = none →
    ∃ editor, s.client.editor call.asked.editor = some editor ∧
      (editor.loading = true ∨ editor.saving = true)
  single : ∀ m m' editor editor', s.client.editor m = some editor →
    s.client.editor m' = some editor' → m = m'
  fresh : ∀ (i : Nat) call response, s.calls[i]? = some call → call.result = none →
    call.answer = some (.ok (some response)) →
    AnsweredWith pydantic s.server.db call.asked.request response

/-- A request that is made while none is on its way. -/
theorem OneAtATime.asked {pages : EditorPages} {asked : EditorCall} {editor : ProfileEditor}
    (hnone : NonePending s) (hbusy : pages.editor asked.editor = some editor)
    (hwaits : editor.loading = true ∨ editor.saving = true)
    (hsingle : ∀ m m' editor editor', pages.editor m = some editor →
      pages.editor m' = some editor' → m = m') :
    OneAtATime pydantic { s with client := pages, calls := s.calls ++ [{ asked }] } := by
  have hnew : ∀ {i call}, (s.calls ++ [({ asked } : Call EditorCall String EditorAnswer)])[i]? =
      some call → call.result = none → i = s.calls.length ∧ asked = call.asked ∧
        call.answer = none := by
    intro i call hcall hpending
    rcases @act_calls _ _ _ _ _ s i call (some asked) hcall with hold | ⟨hi, hasked, hanswer, -⟩
    · exact absurd hpending (hnone i call hold)
    · exact ⟨hi, Option.some.inj hasked, hanswer⟩
  refine ⟨?_, ?_, hsingle, ?_⟩
  · intro i j call call' hi hj hcall hcall'
    rw [(hnew hi hcall).1, (hnew hj hcall').1]
  · intro i call hi hcall
    obtain ⟨-, rfl, -⟩ := hnew hi hcall
    exact ⟨editor, hbusy, hwaits⟩
  · intro i call response hi hcall hanswer
    rw [(hnew hi hcall).2.2] at hanswer
    cases hanswer

theorem OneAtATime.settle (h : OneAtATime pydantic s)
    {call : Call EditorCall String EditorAnswer} {result : Except String EditorAnswer}
    (hcall : s.calls[i]? = some call) (hpending : call.result = none) :
    OneAtATime pydantic (s.settle (profileEditors pydantic reader parsed) i call result) ∧
      NonePending (s.settle (profileEditors pydantic reader parsed) i call result) := by
  have hnone : NonePending (s.settle (profileEditors pydantic reader parsed) i call result) := by
    intro j found hfound hopen
    obtain ⟨before, hbefore, -, -, ⟨rfl, hresult⟩ | ⟨hne, rfl⟩⟩ := settle_calls hcall hfound
    · rw [hresult] at hopen
      cases hopen
    · exact hne (h.one i j call found hcall hbefore hpending hopen)
  refine ⟨⟨?_, ?_, ?_, ?_⟩, hnone⟩
  · exact fun j _ found _ hj _ hopen _ => absurd hopen (hnone j found hj)
  · exact fun j found hj hopen => absurd hopen (hnone j found hj)
  · intro m m' editor editor' hm hm'
    change (s.client.settle call.asked (outcome parsed result)).editor _ = _ at hm hm'
    rw [editor_settle] at hm hm'
    obtain ⟨before, hbefore, -⟩ := Option.map_eq_some_iff.mp hm
    obtain ⟨before', hbefore', -⟩ := Option.map_eq_some_iff.mp hm'
    exact h.single m m' before before' hbefore hbefore'
  · exact fun j found _ hj hopen => absurd hopen (hnone j found hj)

end RecruFlow.Frontend
