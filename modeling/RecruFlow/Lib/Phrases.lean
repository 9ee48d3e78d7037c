import RecruFlow.Lib.Regex
import Mathlib.Data.List.DropRight

/-!
# Phrases in a text

A text is split into words at runs of separators. A phrase occurs in a text where
its words stand in their order with separators, or nothing, between them, and with
a word boundary at either end.
-/

namespace RecruFlow.Lib.Phrases

open Regex

variable {α : Type}

/-- What stands between the runs of separators. -/
def words (sep : α → Bool) (text : List α) : List (List α) :=
  (text.splitOnP sep).filter fun w => !w.isEmpty

/-- The words in their order, with separators, or nothing, between them. -/
inductive Spelled (sep : α → Bool) : List (List α) → List α → Prop
  | nil : Spelled sep [] []
  | one (w : List α) : Spelled sep [w] w
  | more {w gap v : List α} {ws : List (List α)} {text : List α}
      (hgap : ∀ c ∈ gap, sep c = true) (h : Spelled sep (v :: ws) text) :
      Spelled sep (w :: v :: ws) (w ++ gap ++ text)

/-- `gap.join(expressions)` -/
def joined (gap : Regex α) : List (Regex α) → Regex α
  | [] => .empty
  | [r] => r
  | r :: s :: rs => .seq r (.seq gap (joined gap (s :: rs)))

/-- The words in their order between two word boundaries. -/
def phrase [DecidableEq α] (sep word : α → Bool) (ws : List (List α)) : Regex α :=
  .seq (.boundary word) (.seq (joined (.many sep) (ws.map literal)) (.boundary word))

/-- The phrase occurs in the text. -/
def Occurs (sep word : α → Bool) (ws : List (List α)) (text : List α) : Prop :=
  ∃ before found after, text = before ++ found ++ after ∧ Spelled sep ws found ∧
    boundaryAt word before (found ++ after) = true ∧ boundaryAt word (before ++ found) after = true

/-- Words as a text is split into. -/
def AreWords (sep : α → Bool) (ws : List (List α)) : Prop :=
  ∀ w ∈ ws, w ≠ [] ∧ ∀ c ∈ w, sep c = false

/-- Within a text of its own, a phrase has word boundaries at its first word and
at its last. -/
def anchored (sep word : α → Bool) (text : List α) : Bool :=
  boundaryAt word (text.takeWhile sep) (text.dropWhile sep) &&
    boundaryAt word (text.rdropWhile sep) (text.rtakeWhile sep)

variable {sep word : α → Bool} {w gap text : List α} {ws : List (List α)}

/-! ## The pattern of a phrase -/

theorem spans_joined [DecidableEq α] {before found after : List α} :
    (joined (.many sep) (ws.map literal)).Spans before found after ↔ Spelled sep ws found := by
  induction ws generalizing before found with
  | nil =>
      change found = [] ↔ _
      constructor
      · rintro rfl
        exact .nil
      · intro h
        cases h
        rfl
  | cons w ws ih =>
      cases ws with
      | nil =>
          change (literal w).Spans before found after ↔ _
          rw [spans_literal]
          constructor
          · rintro rfl
            exact .one _
          · intro h
            cases h
            rfl
      | cons v ws =>
          constructor
          · rintro ⟨first, second, rfl, hfirst, gap, rest, rfl, hgap, hrest⟩
            rw [spans_literal.mp hfirst, ← List.append_assoc]
            exact .more hgap (ih.mp hrest)
          · intro h
            cases h with
            | more hgap h =>
                exact ⟨w, _, List.append_assoc _ _ _, spans_literal.mpr rfl, _, _, rfl, hgap, ih.mpr h⟩

/-- Searching for a phrase finds where it occurs. -/
theorem search_phrase [DecidableEq α] :
    (phrase sep word ws).search text = true ↔ Occurs sep word ws text := by
  rw [search_iff, Occurs]
  constructor
  · rintro ⟨before, found, after, rfl, first, rest, rfl, ⟨rfl, hfirst⟩, found, last, rfl, hfound,
      rfl, hlast⟩
    rw [List.append_nil] at hlast
    refine ⟨before, found, after, by simp, spans_joined.mp hfound, ?_, hlast⟩
    simpa using hfirst
  · rintro ⟨before, found, after, rfl, hfound, hfirst, hlast⟩
    refine ⟨before, found, after, rfl, [], found, rfl, ⟨rfl, hfirst⟩, found, [],
      (List.append_nil _).symm, spans_joined.mpr hfound, rfl, ?_⟩
    rwa [List.append_nil]

/-! ## Splitting into words -/

theorem words_nil : words sep [] = [] :=
  rfl

theorem words_append_of_sep (hgap : ∀ c ∈ gap, sep c = true) :
    words sep (gap ++ text) = words sep text := by
  induction gap with
  | nil => rfl
  | cons c gap ih =>
      have hc : sep c = true := hgap c List.mem_cons_self
      have hrest := ih fun d hd => hgap d (.tail _ hd)
      rw [← hrest, List.cons_append, words, List.splitOnP_cons_eq_if_modifyHead, if_pos hc]
      rfl

theorem words_append_of_word (hne : w ≠ []) (hw : ∀ c ∈ w, sep c = false)
    (htext : ∀ c ∈ text.head?, sep c = true) : words sep (w ++ text) = w :: words sep text := by
  have hempty : w.isEmpty = false := List.isEmpty_eq_false_iff.mpr hne
  cases text with
  | nil =>
      rw [List.append_nil, words, List.splitOnP_eq_singleton hw]
      simp [hempty, words_nil]
  | cons c text =>
      have hc : sep c = true := htext c rfl
      have hskip : words sep (c :: text) = words sep text :=
        @words_append_of_sep α sep [c] text (by simpa using hc)
      rw [hskip, words, List.splitOnP_append_cons_of_forall_mem hw c hc]
      simp [hempty, words]

/-- A word that goes on into the next one does not add a word. -/
theorem length_words_append {c : α} (hw : ∀ c ∈ w, sep c = false) (hc : sep c = false) :
    (words sep (w ++ c :: text)).length = (words sep (c :: text)).length := by
  induction w with
  | nil => rfl
  | cons d w ih =>
      have hd : sep d = false := hw d List.mem_cons_self
      rw [← ih fun e he => hw e (.tail _ he)]
      obtain ⟨e, rest, hrest, he⟩ : ∃ e rest, w ++ c :: text = e :: rest ∧ sep e = false := by
        cases w with
        | nil => exact ⟨c, text, rfl, hc⟩
        | cons e w => exact ⟨e, w ++ c :: text, rfl, hw e (by simp)⟩
      obtain ⟨s, ss, hsplit⟩ := List.exists_cons_of_ne_nil (List.splitOnP_ne_nil sep rest)
      rw [List.cons_append, hrest]
      simp [words, List.splitOnP_cons_eq_if_modifyHead, hd, he, hsplit]

/-- A text is all separators, or it has a first word. -/
theorem first_word (sep : α → Bool) (text : List α) :
    (∀ c ∈ text, sep c = true) ∨ ∃ lead w tail, text = lead ++ w ++ tail ∧
      (∀ c ∈ lead, sep c = true) ∧ w ≠ [] ∧ (∀ c ∈ w, sep c = false) ∧
      ∀ c ∈ tail.head?, sep c = true := by
  cases hrest : text.dropWhile sep with
  | nil => exact .inl (by simpa using hrest)
  | cons c rest =>
      have hc : sep c = false := by
        have hfirst := List.head?_dropWhile_not sep text
        rw [hrest] at hfirst
        simpa using hfirst
      refine .inr ⟨text.takeWhile sep, (c :: rest).takeWhile fun d => !sep d,
        (c :: rest).dropWhile fun d => !sep d, ?_, fun d hd => List.mem_takeWhile_imp hd,
        by simp [hc], fun d hd => by simpa using List.mem_takeWhile_imp hd, fun d hd => ?_⟩
      · rw [List.append_assoc, List.takeWhile_append_dropWhile, ← hrest,
          List.takeWhile_append_dropWhile]
      · have hnext := List.head?_dropWhile_not (fun d => !sep d) (c :: rest)
        rw [Option.mem_def.mp hd] at hnext
        simpa using hnext

/-- A text has no word, or its words are spelled between separators. -/
theorem words_cases (sep : α → Bool) (text : List α) :
    (words sep text = [] ∧ ∀ c ∈ text, sep c = true) ∨
      ∃ lead body trail, text = lead ++ body ++ trail ∧ (∀ c ∈ lead, sep c = true) ∧
        (∀ c ∈ trail, sep c = true) ∧ words sep text ≠ [] ∧ AreWords sep (words sep text) ∧
        Spelled sep (words sep text) body := by
  -- on the length: what follows the first word is shorter
  induction hlength : text.length using Nat.strong_induction_on generalizing text with
  | _ n ih =>
  rcases first_word sep text with hall | ⟨lead, w, tail, rfl, hlead, hne, hw, htail⟩
  · have hnone := @words_append_of_sep α sep text [] hall
    rw [List.append_nil, words_nil] at hnone
    exact .inl ⟨hnone, hall⟩
  · have hcons : words sep (lead ++ w ++ tail) = w :: words sep tail := by
      rw [List.append_assoc, words_append_of_sep hlead, words_append_of_word hne hw htail]
    have hshorter : tail.length < n := by
      have hpos := List.length_pos_iff.mpr hne
      rw [List.length_append, List.length_append] at hlength
      omega
    rw [hcons]
    rcases ih tail.length hshorter tail rfl with ⟨hnone, hsep⟩ |
      ⟨gap, body, trail, rfl, hgap, htrail, hmore, hare, hspelled⟩
    · refine .inr ⟨lead, w, tail, rfl, hlead, hsep, List.cons_ne_nil _ _, ?_, ?_⟩
      · intro v hv
        rw [hnone, List.mem_singleton] at hv
        exact hv ▸ ⟨hne, hw⟩
      · rw [hnone]
        exact .one w
    · refine .inr ⟨lead, w ++ gap ++ body, trail, by simp only [List.append_assoc], hlead, htrail,
        List.cons_ne_nil _ _, ?_, ?_⟩
      · intro v hv
        rcases List.mem_cons.mp hv with rfl | hv
        · exact ⟨hne, hw⟩
        · exact hare v hv
      · obtain ⟨v, vs, hvs⟩ := List.exists_cons_of_ne_nil hmore
        rw [hvs] at hspelled ⊢
        exact .more hgap hspelled

theorem areWords_words (sep : α → Bool) (text : List α) : AreWords sep (words sep text) := by
  rcases words_cases sep text with ⟨hnone, -⟩ | ⟨_, _, _, _, _, _, _, hare, _⟩
  · intro w hw
    rw [hnone] at hw
    cases hw
  · exact hare

/-! ## What is spelled -/

theorem filter_eq_nil_iff_sep {gap : List α} :
    gap.filter (fun c => !sep c) = [] ↔ ∀ c ∈ gap, sep c = true := by
  simp

theorem Spelled.filter (h : Spelled sep ws text) (hws : AreWords sep ws) :
    text.filter (fun c => !sep c) = ws.flatten := by
  have hkeep {w : List α} (hw : ∀ c ∈ w, sep c = false) : w.filter (fun c => !sep c) = w :=
    List.filter_eq_self.mpr fun c hc => by simp [hw c hc]
  induction h with
  | nil => rfl
  | one w => simpa using hkeep (hws w (by simp)).2
  | @more w gap v ws text hgap h ih =>
      have hrest := ih fun u hu => hws u (.tail _ hu)
      rw [List.filter_append, List.filter_append, hkeep (hws w (by simp)).2,
        filter_eq_nil_iff_sep.mpr hgap, hrest]
      simp

/-- Separators around a text leave the characters of its words. -/
theorem Spelled.filter_between {before found after : List α} (h : Spelled sep ws found)
    (hws : AreWords sep ws) (hbefore : ∀ c ∈ before, sep c = true)
    (hafter : ∀ c ∈ after, sep c = true) :
    (before ++ found ++ after).filter (fun c => !sep c) = ws.flatten := by
  rw [List.filter_append, List.filter_append, filter_eq_nil_iff_sep.mpr hbefore,
    filter_eq_nil_iff_sep.mpr hafter, h.filter hws, List.nil_append, List.append_nil]

/-- The words are parts of the text. -/
theorem mem_of_mem_words {c : α} (h : c ∈ (words sep text).flatten) : c ∈ text := by
  rcases words_cases sep text with ⟨hnone, -⟩ | ⟨lead, body, trail, rfl, -, -, -, hare, hspelled⟩
  · rw [hnone] at h
    cases h
  · rw [← hspelled.filter hare] at h
    exact List.mem_append_left _ (List.mem_append_right _ (List.mem_of_mem_filter h))

/-- What is spelled begins with the first character of its words. -/
theorem Spelled.head? (h : Spelled sep ws text) (hws : AreWords sep ws) :
    text.head? = ws.flatten.head? := by
  cases h with
  | nil => rfl
  | one w => simp
  | more hgap h =>
      rw [List.flatten_cons, List.append_assoc, List.head?_append_of_ne_nil _ (hws _ (by simp)).1,
        List.head?_append_of_ne_nil _ (hws _ (by simp)).1]

/-- It ends with the last one. -/
theorem Spelled.getLast? (h : Spelled sep ws text) (hws : AreWords sep ws) :
    text.getLast? = ws.flatten.getLast? := by
  induction h with
  | nil => rfl
  | one w => simp
  | @more w gap v ws text hgap h ih =>
      have hrest := ih fun u hu => hws u (.tail _ hu)
      have hne : (v :: ws).flatten ≠ [] := by
        have hv := (hws v (by simp)).1
        simp [hv]
      have htext : text ≠ [] := by
        rw [← List.getLast?_isSome, hrest, List.getLast?_isSome]
        exact hne
      rw [List.flatten_cons, List.getLast?_append_of_ne_nil _ htext,
        List.getLast?_append_of_ne_nil _ hne, hrest]

/-- The characters of words are no separators. -/
theorem AreWords.flatten (hws : AreWords sep ws) : ∀ c ∈ ws.flatten, sep c = false := by
  intro c hc
  obtain ⟨w, hw, hcw⟩ := List.mem_flatten.mp hc
  exact (hws w hw).2 c hcw

theorem AreWords.flatten_ne_nil (hws : AreWords sep ws) (hne : ws ≠ []) : ws.flatten ≠ [] := by
  obtain ⟨w, ws, rfl⟩ := List.exists_cons_of_ne_nil hne
  have hw := (hws w List.mem_cons_self).1
  simp [hw]

theorem Spelled.ne_nil (h : Spelled sep ws text) (hws : AreWords sep ws) (hne : ws ≠ []) :
    text ≠ [] := by
  rintro rfl
  exact hws.flatten_ne_nil hne (List.head?_eq_none_iff.mp (h.head? hws).symm)

/-- It begins and ends with characters of words. -/
theorem Spelled.ends (h : Spelled sep ws text) (hws : AreWords sep ws) (hne : ws ≠ []) :
    (∃ c ∈ text.head?, sep c = false) ∧ ∃ c ∈ text.getLast?, sep c = false := by
  have hnil := hws.flatten_ne_nil hne
  rw [h.head? hws, h.getLast? hws]
  exact ⟨⟨_, List.head?_eq_some_head hnil, hws.flatten _ (List.head_mem hnil)⟩,
    ⟨_, List.getLast?_eq_some_getLast hnil, hws.flatten _ (List.getLast_mem hnil)⟩⟩

/-- A text has no more words than it is spelled with, and the same ones if it has as many. -/
theorem Spelled.words (h : Spelled sep ws text) (hws : AreWords sep ws) :
    (words sep text).length ≤ ws.length ∧
      ((words sep text).length = ws.length → words sep text = ws) := by
  induction h with
  | nil => exact ⟨Nat.le_refl _, fun _ => rfl⟩
  | one w =>
      obtain ⟨hne, hw⟩ := hws w (by simp)
      have hone := @words_append_of_word α sep w [] hne hw (by simp)
      rw [List.append_nil, words_nil] at hone
      rw [hone]
      exact ⟨Nat.le_refl _, fun _ => rfl⟩
  | @more w gap v ws text hgap h ih =>
      obtain ⟨hne, hw⟩ := hws w (by simp)
      have htail : AreWords sep (v :: ws) := fun u hu => hws u (.tail _ hu)
      obtain ⟨hle, heq⟩ := ih htail
      obtain ⟨c, rest, rfl⟩ := List.exists_cons_of_ne_nil (h.ne_nil htail (by simp))
      cases gap with
      | nil =>
          have hc : sep c = false := by
            apply htail.flatten
            have hhead := h.head? htail
            exact List.mem_of_mem_head? (Option.mem_def.mpr hhead.symm)
          rw [List.append_nil, length_words_append hw hc, List.length_cons]
          constructor
          · omega
          · intro hlength
            omega
      | cons g gap =>
          have hskip : Phrases.words sep (w ++ (g :: gap) ++ (c :: rest)) =
              w :: Phrases.words sep (c :: rest) := by
            rw [List.append_assoc, words_append_of_word hne hw (by simpa using hgap g (by simp)),
              words_append_of_sep hgap]
          rw [hskip, List.length_cons, List.length_cons]
          constructor
          · omega
          · intro hlength
            rw [heq (by omega)]

/-! ## Where a phrase occurs in a text of its own words -/

theorem boundaryAt_congr {before before' after after' : List α}
    (hbefore : before.getLast?.any word = before'.getLast?.any word)
    (hafter : after.head?.any word = after'.head?.any word) :
    boundaryAt word before after = boundaryAt word before' after' := by
  rw [boundaryAt, boundaryAt, hbefore, hafter]

/-- The separators at the two ends of a text, and what is between them. -/
theorem ends_unique {lead body trail : List α} (hlead : ∀ c ∈ lead, sep c = true)
    (htrail : ∀ c ∈ trail, sep c = true) (hfirst : ∃ c ∈ body.head?, sep c = false)
    (hlast : ∃ c ∈ body.getLast?, sep c = false) :
    (lead ++ body ++ trail).takeWhile sep = lead ∧
      (lead ++ body ++ trail).dropWhile sep = body ++ trail ∧
      (lead ++ body ++ trail).rtakeWhile sep = trail ∧
      (lead ++ body ++ trail).rdropWhile sep = lead ++ body := by
  have key {gap rest : List α} (hgap : ∀ c ∈ gap, sep c = true)
      (hrest : ∃ c ∈ rest.head?, sep c = false) :
      (gap ++ rest).takeWhile sep = gap ∧ (gap ++ rest).dropWhile sep = rest := by
    obtain ⟨c, hc, hsep⟩ := hrest
    cases rest with
    | nil => cases hc
    | cons d rest =>
        obtain rfl : d = c := Option.some.inj hc
        rw [List.takeWhile_append_of_pos hgap, List.dropWhile_append_of_pos hgap]
        simp [hsep]
  obtain ⟨c, hc, hsep⟩ := hfirst
  have hfront := @key lead (body ++ trail) hlead ⟨c, List.mem_head?_append_of_mem_head? hc, hsep⟩
  have htrail' : ∀ c ∈ trail.reverse, sep c = true := fun c hc => htrail c (List.mem_reverse.mp hc)
  obtain ⟨d, hd, hsep'⟩ := hlast
  have hback := @key trail.reverse (lead ++ body).reverse htrail' ⟨d, by
    rw [List.head?_reverse]
    exact List.mem_getLast?_append_of_mem_getLast? hd, hsep'⟩
  rw [← List.reverse_append] at hback
  refine ⟨by rw [List.append_assoc, hfront.1], by rw [List.append_assoc, hfront.2], ?_, ?_⟩
  · rw [List.rtakeWhile, hback.1, List.reverse_reverse]
  · rw [List.rdropWhile, hback.2, List.reverse_reverse]

/-- A phrase does not occur in a text with fewer characters of words. -/
theorem Occurs.length_le (h : Occurs sep word ws text) (hws : AreWords sep ws) :
    ws.flatten.length ≤ (text.filter fun c => !sep c).length := by
  obtain ⟨before, found, after, rfl, hfound, -⟩ := h
  rw [← hfound.filter hws, List.filter_append, List.filter_append, List.length_append,
    List.length_append]
  omega

/-- A phrase with all the characters of a text occurs between the separators at its ends. -/
theorem Occurs.between {ws' : List (List α)} {lead body trail : List α}
    (h : Occurs sep word ws' (lead ++ body ++ trail)) (hws : AreWords sep ws) (hne : ws ≠ [])
    (hws' : AreWords sep ws') (hbody : Spelled sep ws body) (hlead : ∀ c ∈ lead, sep c = true)
    (htrail : ∀ c ∈ trail, sep c = true) (hlength : ws.flatten.length ≤ ws'.flatten.length) :
    Spelled sep ws' body ∧ boundaryAt word lead (body ++ trail) = true ∧
      boundaryAt word (lead ++ body) trail = true := by
  have hne' : ws' ≠ [] := by
    rintro rfl
    exact hws.flatten_ne_nil hne (List.length_eq_zero_iff.mp (Nat.le_zero.mp hlength))
  obtain ⟨before, found, after, hsplit, hfound, hfirst, hlast⟩ := h
  -- there are no characters of words left for what stands around the match
  have hcount := congrArg (fun t => (t.filter fun c => !sep c).length) hsplit
  simp only [hbody.filter_between hws hlead htrail] at hcount
  simp only [List.filter_append, List.length_append, hfound.filter hws'] at hcount
  have hbefore : ∀ c ∈ before, sep c = true :=
    filter_eq_nil_iff_sep.mp (List.length_eq_zero_iff.mp (by omega))
  have hafter : ∀ c ∈ after, sep c = true :=
    filter_eq_nil_iff_sep.mp (List.length_eq_zero_iff.mp (by omega))
  obtain ⟨hhead, hback⟩ := hbody.ends hws hne
  obtain ⟨hhead', hback'⟩ := hfound.ends hws' hne'
  obtain ⟨h₁, h₂, h₃, h₄⟩ := ends_unique hlead htrail hhead hback
  obtain ⟨h₁', h₂', h₃', h₄'⟩ := ends_unique hbefore hafter hhead' hback'
  rw [hsplit] at h₁ h₂ h₃ h₄
  obtain rfl : before = lead := h₁'.symm.trans h₁
  obtain rfl : after = trail := h₃'.symm.trans h₃
  obtain rfl : found = body := List.append_cancel_left (h₄'.symm.trans h₄)
  exact ⟨hfound, hfirst, hlast⟩

/-- The two boundaries of a text that has words. -/
theorem anchored_eq (hne : words sep text ≠ []) :
    ∃ lead body trail, text = lead ++ body ++ trail ∧ (∀ c ∈ lead, sep c = true) ∧
      (∀ c ∈ trail, sep c = true) ∧ Spelled sep (words sep text) body ∧
      anchored sep word text =
        (boundaryAt word lead (body ++ trail) && boundaryAt word (lead ++ body) trail) := by
  rcases words_cases sep text with ⟨hnone, -⟩ |
    ⟨lead, body, trail, htext, hlead, htrail, -, hare, hspelled⟩
  · exact absurd hnone hne
  · obtain ⟨hfirst, hlast⟩ := hspelled.ends hare hne
    obtain ⟨h₁, h₂, h₃, h₄⟩ := ends_unique hlead htrail hfirst hlast
    exact ⟨lead, body, trail, htext, hlead, htrail, hspelled, by
      rw [anchored, htext, h₁, h₂, h₃, h₄]⟩

/-- What stands further out does not matter for the boundary at the front of a text. -/
theorem boundaryAt_front {before lead body rest rest' : List α}
    (hbefore : before.getLast?.any word = false) (hbody : body ≠ []) :
    boundaryAt word (before ++ lead) (body ++ rest) = boundaryAt word lead (body ++ rest') := by
  apply boundaryAt_congr
  · cases lead using List.reverseRecOn with
    | nil => simpa using hbefore
    | append_singleton lead c => simp
  · rw [List.head?_append_of_ne_nil _ hbody, List.head?_append_of_ne_nil _ hbody]

theorem boundaryAt_back {rest rest' body trail after : List α}
    (hafter : after.head?.any word = false) (hbody : body ≠ []) :
    boundaryAt word (rest ++ body) (trail ++ after) = boundaryAt word (rest' ++ body) trail := by
  apply boundaryAt_congr
  · rw [List.getLast?_append_of_ne_nil _ hbody, List.getLast?_append_of_ne_nil _ hbody]
  · cases trail with
    | nil => simpa using hafter
    | cons c trail => rfl

/-- An anchored text is found wherever no word character stands next to it. -/
theorem occurs_of_anchored {before after : List α} (hne : words sep text ≠ [])
    (hanchored : anchored sep word text = true) (hbefore : before.getLast?.any word = false)
    (hafter : after.head?.any word = false) :
    Occurs sep word (words sep text) (before ++ text ++ after) := by
  obtain ⟨lead, body, trail, htext, -, -, hspelled, heq⟩ := @anchored_eq α sep word text hne
  rw [heq, Bool.and_eq_true] at hanchored
  have hbody := hspelled.ne_nil (areWords_words sep text) hne
  refine ⟨before ++ lead, body, trail ++ after, ?_, hspelled, ?_, ?_⟩
  · rw [htext]
    simp only [List.append_assoc]
  · rw [boundaryAt_front hbefore hbody, hanchored.1]
  · rw [boundaryAt_back hafter hbody, hanchored.2]

/-- A text that is found between separators, none of them next to it a word
character, is anchored. -/
theorem anchored_of_occurs {before after : List α} (hne : words sep text ≠ [])
    (hbefore : before.getLast?.any word = false) (hafter : after.head?.any word = false)
    (hsep : ∀ c ∈ before, sep c = true) (hsep' : ∀ c ∈ after, sep c = true)
    (h : Occurs sep word (words sep text) (before ++ text ++ after)) :
    anchored sep word text = true := by
  obtain ⟨lead, body, trail, htext, hlead, htrail, hspelled, heq⟩ := @anchored_eq α sep word text hne
  have hare := areWords_words sep text
  have hbody := hspelled.ne_nil hare hne
  have hsplit : before ++ text ++ after = (before ++ lead) ++ body ++ (trail ++ after) := by
    nth_rewrite 1 [htext]
    simp only [List.append_assoc]
  rw [hsplit] at h
  obtain ⟨-, hfirst, hlast⟩ := h.between hare hne hare hspelled
    (fun c hc => (List.mem_append.mp hc).elim (hsep c) (hlead c))
    (fun c hc => (List.mem_append.mp hc).elim (htrail c) (hsep' c)) (Nat.le_refl _)
  rw [boundaryAt_front hbefore hbody] at hfirst
  rw [boundaryAt_back hafter hbody] at hlast
  rw [heq, hfirst, hlast]
  rfl

/-! ## A text that tells a phrase from the others -/

/-- What to put next to a character for a word boundary, after a text without one. -/
def padding (word : α → Bool) (mark : α) (c : Option α) : List α :=
  if c.any word then [] else [mark]

/-- The words with a gap between them, and with word boundaries at the ends. -/
def spelling (word : α → Bool) (gap mark : α) (ws : List (List α)) : List α :=
  padding word mark ws.flatten.head? ++ [gap].intercalate ws ++
    padding word mark ws.flatten.getLast?

variable {mark g : α}

theorem intercalate_cons_cons {gap w v : List α} {ws : List (List α)} :
    gap.intercalate (w :: v :: ws) = w ++ gap ++ gap.intercalate (v :: ws) := by
  simp [List.intercalate]

theorem spelled_intercalate (hg : sep g = true) : Spelled sep ws ([g].intercalate ws) := by
  induction ws with
  | nil => exact .nil
  | cons w ws ih =>
      cases ws with
      | nil =>
          rw [List.intercalate_singleton]
          exact .one w
      | cons v ws =>
          rw [intercalate_cons_cons]
          exact .more (by simpa using hg) ih

theorem words_intercalate (hg : sep g = true) (hws : AreWords sep ws) :
    words sep ([g].intercalate ws) = ws := by
  induction ws with
  | nil => rfl
  | cons w ws ih =>
      obtain ⟨hne, hw⟩ := hws w List.mem_cons_self
      cases ws with
      | nil =>
          have hone := @words_append_of_word α sep w [] hne hw (by simp)
          rw [List.append_nil, words_nil] at hone
          rw [List.intercalate_singleton, hone]
      | cons v ws =>
          rw [intercalate_cons_cons, List.append_assoc,
            words_append_of_word hne hw (by simpa using hg),
            words_append_of_sep (by simpa using hg), ih fun u hu => hws u (.tail _ hu)]

theorem mem_spelling {c : α} (h : c ∈ spelling word g mark ws) : c = g ∨ c = mark ∨ c ∈ ws.flatten := by
  have hpad {d : Option α} (hc : c ∈ padding word mark d) : c = mark := by
    unfold padding at hc
    split at hc
    · cases hc
    · exact List.mem_singleton.mp hc
  have hbody : ∀ ws : List (List α), c ∈ [g].intercalate ws → c = g ∨ c ∈ ws.flatten := by
    intro ws hc
    induction ws with
    | nil => cases hc
    | cons w ws ih =>
        cases ws with
        | nil =>
            rw [List.intercalate_singleton] at hc
            exact .inr (by simpa using hc)
        | cons v ws =>
            rw [intercalate_cons_cons, List.mem_append, List.mem_append, List.mem_singleton] at hc
            rw [List.flatten_cons, List.mem_append]
            rcases hc with (hc | hc) | hc
            · exact .inr (.inl hc)
            · exact .inl hc
            · exact (ih hc).imp_right .inr
  rw [spelling, List.mem_append, List.mem_append] at h
  rcases h with (h | h) | h
  · exact .inr (.inl (hpad h))
  · exact (hbody ws h).imp_right .inr
  · exact .inr (.inl (hpad h))

theorem spelling_ne_nil (word : α → Bool) (g mark : α) (hws : AreWords sep ws) (hne : ws ≠ []) :
    spelling word g mark ws ≠ [] := by
  intro hnil
  obtain ⟨w, ws, rfl⟩ := List.exists_cons_of_ne_nil hne
  have hbody := (List.append_eq_nil_iff.mp (List.append_eq_nil_iff.mp hnil).1).2
  have hw := (hws w List.mem_cons_self).1
  cases ws with
  | nil => exact hw (by simpa using hbody)
  | cons v ws =>
      rw [intercalate_cons_cons] at hbody
      exact hw (List.append_eq_nil_iff.mp (List.append_eq_nil_iff.mp hbody).1).1

theorem mem_padding {c : Option α} {d : α} (hmark : sep mark = true)
    (h : d ∈ padding word mark c) : sep d = true := by
  unfold padding at h
  split at h
  · cases h
  · rw [List.mem_singleton.mp h, hmark]

/-- A phrase occurs in its spelling, next to no word characters. -/
theorem occurs_spelling {before after : List α} (hg : sep g = true) (hmark : word mark = true)
    (hws : AreWords sep ws) (hne : ws ≠ []) (hbefore : before.getLast?.any word = false)
    (hafter : after.head?.any word = false) :
    Occurs sep word ws (before ++ spelling word g mark ws ++ after) := by
  have hspelled := @spelled_intercalate α sep ws g hg
  have hbody := hspelled.ne_nil hws hne
  refine ⟨before ++ padding word mark ws.flatten.head?, [g].intercalate ws,
    padding word mark ws.flatten.getLast? ++ after, ?_, hspelled, ?_, ?_⟩
  · simp only [spelling, List.append_assoc]
  · rw [@boundaryAt_front α word before _ _ _ [] hbefore hbody, List.append_nil, boundaryAt,
      hspelled.head? hws, padding]
    split
    · next h => simp [h]
    · next h => simp [h, hmark]
  · rw [@boundaryAt_back α word _ [] _ _ after hafter hbody, List.nil_append, boundaryAt,
      hspelled.getLast? hws, padding]
    split
    · next h => simp [h]
    · next h => simp [h, hmark]

/-- A phrase that occurs in the spelling of another, and the other way round, is the same. -/
theorem eq_of_occurs_spelling {before after : List α} {ws' : List (List α)} (hg : sep g = true)
    (hmark : sep mark = true) (hbefore : ∀ c ∈ before, sep c = true)
    (hafter : ∀ c ∈ after, sep c = true) (hws : AreWords sep ws) (hws' : AreWords sep ws')
    (hne : ws ≠ []) (hne' : ws' ≠ [])
    (h : Occurs sep word ws' (before ++ spelling word g mark ws ++ after))
    (h' : Occurs sep word ws (before ++ spelling word g mark ws' ++ after)) : ws = ws' := by
  have hsplit (ws : List (List α)) : before ++ spelling word g mark ws ++ after =
      (before ++ padding word mark ws.flatten.head?) ++ [g].intercalate ws ++
        (padding word mark ws.flatten.getLast? ++ after) := by
    simp only [spelling, List.append_assoc]
  have hfront (c : Option α) : ∀ d ∈ before ++ padding word mark c, sep d = true := fun d hd =>
    (List.mem_append.mp hd).elim (hbefore d) (mem_padding hmark)
  have hback (c : Option α) : ∀ d ∈ padding word mark c ++ after, sep d = true := fun d hd =>
    (List.mem_append.mp hd).elim (mem_padding hmark) (hafter d)
  have hcount {ws : List (List α)} (hws : AreWords sep ws) :
      (before ++ spelling word g mark ws ++ after).filter (fun c => !sep c) = ws.flatten := by
    rw [hsplit]
    exact (spelled_intercalate hg).filter_between hws (hfront _) (hback _)
  have hlength := h.length_le hws'
  have hlength' := h'.length_le hws
  rw [hcount hws] at hlength
  rw [hcount hws'] at hlength'
  rw [hsplit] at h h'
  have hspelled :=
    (h.between hws hne hws' (spelled_intercalate hg) (hfront _) (hback _) hlength').1
  have hspelled' :=
    (h'.between hws' hne' hws (spelled_intercalate hg) (hfront _) (hback _) hlength).1
  obtain ⟨hle, heq⟩ := hspelled.words hws'
  obtain ⟨hle', -⟩ := hspelled'.words hws
  rw [words_intercalate hg hws] at hle heq
  rw [words_intercalate hg hws'] at hle'
  exact heq (Nat.le_antisymm hle hle')

end RecruFlow.Lib.Phrases
