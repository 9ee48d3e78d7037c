import Mathlib.Data.List.Basic

/-!
# Searching for a regular expression

Expressions over the characters of a text, with word boundaries. A backtracking
search tries every place of the text; what it finds is stated on the stretch that
is matched and on the text on its two sides.
-/

namespace RecruFlow.Lib

inductive Regex (α : Type) where
  | empty
  /-- One character of a class. -/
  | char (p : α → Bool)
  /-- Any number of characters of a class. -/
  | many (p : α → Bool)
  /-- `\b`, for these word characters. -/
  | boundary (word : α → Bool)
  | seq (r s : Regex α)

namespace Regex

variable {α : Type}

/-- A word character stands on exactly one side of the place between two texts. -/
def boundaryAt (word : α → Bool) (before after : List α) : Bool :=
  before.getLast?.any word != after.head?.any word

/-- The expression matches `found` when it stands between `before` and `after`. -/
def Spans : Regex α → (before found after : List α) → Prop
  | .empty, _, found, _ => found = []
  | .char p, _, found, _ => ∃ c, found = [c] ∧ p c = true
  | .many p, _, found, _ => ∀ c ∈ found, p c = true
  | .boundary word, before, found, after => found = [] ∧ boundaryAt word before after = true
  | .seq r s, before, found, after => ∃ first second, found = first ++ second ∧
      r.Spans before first (second ++ after) ∧ s.Spans (before ++ first) second after

/-- The ways to match characters of a class from here on, the longest first. -/
def manyEnds (p : α → Bool) : List α → List (List α × List α)
  | [] => [([], [])]
  | c :: rest =>
      if p c then (manyEnds p rest).map (fun e => (c :: e.1, e.2)) ++ [([], c :: rest)]
      else [([], c :: rest)]

/-- The ways to match from here on: what is matched and what is left. -/
def ends : Regex α → (before rest : List α) → List (List α × List α)
  | .empty, _, rest => [([], rest)]
  | .char _, _, [] => []
  | .char p, _, c :: rest => if p c then [([c], rest)] else []
  | .many p, _, rest => manyEnds p rest
  | .boundary word, before, rest => if boundaryAt word before rest then [([], rest)] else []
  | .seq r s, before, rest => (r.ends before rest).flatMap fun e =>
      (s.ends (before ++ e.1) e.2).map fun e' => (e.1 ++ e'.1, e'.2)

/-- The places from here on, one after another. -/
def searchFrom (r : Regex α) : (before rest : List α) → Bool
  | before, [] => !(r.ends before []).isEmpty
  | before, c :: rest =>
      !(r.ends before (c :: rest)).isEmpty || r.searchFrom (before ++ [c]) rest

/-- `re.search`, as whether there is a match. -/
def search (r : Regex α) (text : List α) : Bool :=
  r.searchFrom [] text

/-- These characters, one after another. -/
def literal [DecidableEq α] (text : List α) : Regex α :=
  text.foldr (fun c r => .seq (.char (· = c)) r) .empty

theorem mem_manyEnds {p : α → Bool} {rest found after : List α} :
    (found, after) ∈ manyEnds p rest ↔ rest = found ++ after ∧ ∀ c ∈ found, p c = true := by
  induction rest generalizing found after with
  | nil =>
      constructor
      · intro h
        obtain ⟨rfl, rfl⟩ := Prod.mk.inj (List.mem_singleton.mp h)
        exact ⟨rfl, by simp⟩
      · rintro ⟨h, -⟩
        obtain ⟨rfl, rfl⟩ := List.append_eq_nil_iff.mp h.symm
        exact List.mem_singleton_self _
  | cons c rest ih =>
      have hnone : (found, after) = ([], c :: rest) ↔
          found = [] ∧ c :: rest = found ++ after := by
        rw [Prod.mk.injEq]
        constructor
        · rintro ⟨rfl, rfl⟩
          exact ⟨rfl, rfl⟩
        · rintro ⟨rfl, h⟩
          exact ⟨rfl, h.symm⟩
      rw [manyEnds]
      split
      · next hc =>
        rw [List.mem_append, List.mem_singleton, hnone, List.mem_map]
        constructor
        · rintro (⟨e, he, hpair⟩ | ⟨rfl, hsplit⟩)
          · obtain ⟨rfl, rfl⟩ := Prod.mk.inj hpair
            obtain ⟨rfl, hall⟩ := ih.mp he
            refine ⟨rfl, fun d hd => ?_⟩
            rcases List.mem_cons.mp hd with rfl | hd
            · exact hc
            · exact hall d hd
          · exact ⟨hsplit, by simp⟩
        · rintro ⟨hsplit, hall⟩
          cases found with
          | nil => exact .inr ⟨rfl, hsplit⟩
          | cons d found =>
              obtain ⟨rfl, rfl⟩ := List.cons.inj hsplit
              exact .inl ⟨(found, after), ih.mpr ⟨rfl, fun d hd => hall d (.tail _ hd)⟩, rfl⟩
      · next hc =>
        rw [List.mem_singleton, hnone]
        constructor
        · rintro ⟨rfl, hsplit⟩
          exact ⟨hsplit, by simp⟩
        · rintro ⟨hsplit, hall⟩
          cases found with
          | nil => exact ⟨rfl, hsplit⟩
          | cons d found =>
              obtain ⟨rfl, -⟩ := List.cons.inj hsplit
              exact absurd (hall c List.mem_cons_self) hc

/-- The matcher finds what the expression spans. -/
theorem mem_ends {r : Regex α} {before rest found after : List α} :
    (found, after) ∈ r.ends before rest ↔ rest = found ++ after ∧ r.Spans before found after := by
  induction r generalizing before rest found after with
  | empty =>
      rw [ends, List.mem_singleton, Prod.mk.injEq, Spans]
      constructor
      · rintro ⟨rfl, rfl⟩
        exact ⟨rfl, rfl⟩
      · rintro ⟨rfl, rfl⟩
        exact ⟨rfl, rfl⟩
  | char p =>
      cases rest with
      | nil =>
          simp only [ends, List.not_mem_nil, Spans, false_iff]
          rintro ⟨h, c, rfl, -⟩
          cases h
      | cons c rest =>
          simp only [ends, Spans]
          split
          · next hc =>
            rw [List.mem_singleton, Prod.mk.injEq]
            constructor
            · rintro ⟨rfl, rfl⟩
              exact ⟨rfl, c, rfl, hc⟩
            · rintro ⟨h, d, rfl, -⟩
              obtain ⟨rfl, rfl⟩ := List.cons.inj h
              exact ⟨rfl, rfl⟩
          · next hc =>
            simp only [List.not_mem_nil, false_iff]
            rintro ⟨h, d, rfl, hd⟩
            obtain ⟨rfl, -⟩ := List.cons.inj h
            exact hc hd
  | many p => exact mem_manyEnds
  | boundary word =>
      rw [ends, Spans]
      split
      · next hb =>
        rw [List.mem_singleton, Prod.mk.injEq]
        constructor
        · rintro ⟨rfl, rfl⟩
          exact ⟨rfl, rfl, hb⟩
        · rintro ⟨rfl, rfl, -⟩
          exact ⟨rfl, rfl⟩
      · next hb =>
        simp only [List.not_mem_nil, false_iff]
        rintro ⟨rfl, rfl, h⟩
        exact hb h
  | seq r s ihr ihs =>
      rw [ends, Spans, List.mem_flatMap]
      constructor
      · rintro ⟨⟨first, rest'⟩, hfirst, h⟩
        obtain ⟨⟨second, after'⟩, hsecond, hpair⟩ := List.mem_map.mp h
        obtain ⟨rfl, rfl⟩ := Prod.mk.inj hpair
        obtain ⟨rfl, hr⟩ := ihr.mp hfirst
        obtain ⟨rfl, hs⟩ := ihs.mp hsecond
        exact ⟨(List.append_assoc _ _ _).symm, first, second, rfl, hr, hs⟩
      · rintro ⟨rfl, first, second, rfl, hr, hs⟩
        exact ⟨(first, second ++ after), ihr.mpr ⟨List.append_assoc _ _ _, hr⟩,
          List.mem_map.mpr ⟨(second, after), ihs.mpr ⟨rfl, hs⟩, rfl⟩⟩

theorem ends_ne_nil_iff {r : Regex α} {before rest : List α} :
    (!(r.ends before rest).isEmpty) = true ↔
      ∃ found after, rest = found ++ after ∧ r.Spans before found after := by
  rw [Bool.not_eq_true', List.isEmpty_eq_false_iff_exists_mem]
  constructor
  · rintro ⟨⟨found, after⟩, h⟩
    exact ⟨found, after, mem_ends.mp h⟩
  · rintro ⟨found, after, h⟩
    exact ⟨(found, after), mem_ends.mpr h⟩

theorem searchFrom_iff {r : Regex α} {before rest : List α} :
    r.searchFrom before rest = true ↔ ∃ skipped found after,
      rest = skipped ++ found ++ after ∧ r.Spans (before ++ skipped) found after := by
  induction rest generalizing before with
  | nil =>
      rw [searchFrom, ends_ne_nil_iff]
      constructor
      · rintro ⟨found, after, h, hspans⟩
        exact ⟨[], found, after, h, by rwa [List.append_nil]⟩
      · rintro ⟨skipped, found, after, h, hspans⟩
        obtain ⟨hskipped, rfl⟩ := List.append_eq_nil_iff.mp h.symm
        obtain ⟨rfl, rfl⟩ := List.append_eq_nil_iff.mp hskipped
        exact ⟨[], [], rfl, by rwa [List.append_nil] at hspans⟩
  | cons c rest ih =>
      rw [searchFrom, Bool.or_eq_true, ends_ne_nil_iff, ih]
      constructor
      · rintro (⟨found, after, h, hspans⟩ | ⟨skipped, found, after, rfl, hspans⟩)
        · exact ⟨[], found, after, h, by rwa [List.append_nil]⟩
        · refine ⟨c :: skipped, found, after, rfl, ?_⟩
          rwa [List.append_assoc] at hspans
      · rintro ⟨skipped, found, after, h, hspans⟩
        cases skipped with
        | nil => exact .inl ⟨found, after, h, by rwa [List.append_nil] at hspans⟩
        | cons d skipped =>
            obtain ⟨rfl, rfl⟩ := List.cons.inj h
            refine .inr ⟨skipped, found, after, rfl, ?_⟩
            rwa [List.append_assoc]

/-- A search finds an expression exactly when it spans a stretch of the text. -/
theorem search_iff {r : Regex α} {text : List α} :
    r.search text = true ↔ ∃ before found after,
      text = before ++ found ++ after ∧ r.Spans before found after :=
  searchFrom_iff

theorem spans_literal [DecidableEq α] {text before found after : List α} :
    (literal text).Spans before found after ↔ found = text := by
  induction text generalizing before found with
  | nil => exact Iff.rfl
  | cons c text ih =>
      change (∃ first second, found = first ++ second ∧ (∃ d, first = [d] ∧ decide (d = c) = true) ∧
        (literal text).Spans (before ++ first) second after) ↔ _
      constructor
      · rintro ⟨first, second, rfl, ⟨d, rfl, hd⟩, hrest⟩
        rw [ih.mp hrest, of_decide_eq_true hd]
        rfl
      · rintro rfl
        exact ⟨[c], text, rfl, ⟨c, rfl, decide_eq_true rfl⟩, ih.mpr rfl⟩

end Regex

end RecruFlow.Lib
