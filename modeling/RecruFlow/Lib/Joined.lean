import Mathlib.Data.List.Basic

/-!
# Joining with a separator

What a text that was joined from several parts still says about the parts. The
separators of the parts themselves are what makes it ambiguous.
-/

namespace RecruFlow.Lib.Joined

variable {α : Type*} [DecidableEq α] {sep : α}

/-- Two texts are split at the same separator when as many stand ahead of it. -/
theorem split_inj {as bs as' bs' : List α} (h : as ++ sep :: bs = as' ++ sep :: bs')
    (hcount : as.count sep = as'.count sep) : as = as' ∧ bs = bs' := by
  induction as generalizing as' with
  | nil =>
    cases as' with
    | nil => exact ⟨rfl, List.tail_eq_of_cons_eq h⟩
    | cons a as' =>
      have ha : a = sep := (List.head_eq_of_cons_eq h).symm
      rw [ha, List.count_cons_self, List.count_nil] at hcount
      omega
  | cons a as ih =>
    cases as' with
    | nil =>
      have ha : a = sep := List.head_eq_of_cons_eq h
      rw [ha, List.count_cons_self, List.count_nil] at hcount
      omega
    | cons a' as' =>
      have ha : a = a' := List.head_eq_of_cons_eq h
      have htail : as ++ sep :: bs = as' ++ sep :: bs' := List.tail_eq_of_cons_eq h
      have hrest : as.count sep = as'.count sep := by
        rw [ha, List.count_cons, List.count_cons] at hcount
        omega
      obtain ⟨has, hbs⟩ := ih htail hrest
      exact ⟨by rw [ha, has], hbs⟩

/-- The first separator ends the first part, when that has none of its own. -/
theorem split_inj_of_notMem {as bs as' bs' : List α} (h : as ++ sep :: bs = as' ++ sep :: bs')
    (has : sep ∉ as) (has' : sep ∉ as') : as = as' ∧ bs = bs' := by
  apply split_inj h
  rw [List.count_eq_zero.mpr has, List.count_eq_zero.mpr has']

/-- The separators that the parts ahead of the last one hold of their own. -/
def inner (sep : α) (parts : List (List α)) : List Nat :=
  parts.dropLast.map (·.count sep)

/-- The parts can be told from the joined text and from where their own separators are. -/
theorem eq_of_intercalate_eq {parts parts' : List (List α)} (hlength : parts.length = parts'.length)
    (h : [sep].intercalate parts = [sep].intercalate parts')
    (hinner : inner sep parts = inner sep parts') : parts = parts' := by
  induction parts generalizing parts' with
  | nil => exact (List.length_eq_zero_iff.mp hlength.symm).symm
  | cons part rest ih =>
    cases parts' with
    | nil => simp at hlength
    | cons part' rest' =>
      cases rest with
      | nil =>
        have hrest' : rest' = [] := List.length_eq_zero_iff.mp (by simpa using hlength.symm)
        rw [hrest'] at h ⊢
        simpa [List.intercalate] using h
      | cons next rest =>
        cases rest' with
        | nil => simp at hlength
        | cons next' rest' =>
          simp only [List.intercalate_cons_cons, List.append_assoc, List.singleton_append] at h
          simp only [inner, List.dropLast_cons_cons, List.map_cons, List.cons.injEq] at hinner
          obtain ⟨hpart, hjoined⟩ := split_inj h hinner.1
          rw [hpart, ih (by simpa using hlength) hjoined hinner.2]

theorem eq_iff_inner_eq {parts parts' : List (List α)} (hlength : parts.length = parts'.length)
    (h : [sep].intercalate parts = [sep].intercalate parts') :
    parts = parts' ↔ inner sep parts = inner sep parts' := by
  constructor
  · intro heq
    rw [heq]
  · exact eq_of_intercalate_eq hlength h

end RecruFlow.Lib.Joined
