import Mathlib.Data.List.Chain
import Mathlib.Data.List.Nodup

/-!
# The bag of browser fingerprints

`FingerprintPool` draws its combinations without replacement from a shuffled bag
and fills the bag again when it is empty.
-/

namespace RecruFlow.Connectors

variable {α : Type}

/-- What `shuffle` may make of `combos`. -/
abbrev Shuffled (combos : List α) := {bag : List α // bag.Perm combos}

structure FingerprintPool (α : Type) where
  comboBag : List α := []
  lastCombo : Option α := none

inductive BrowserVersion where
  | number (n : Nat)
  | text (s : String)
deriving DecidableEq

structure BrowserProfile where
  family : String
  osTokens : List String
  versions : List BrowserVersion

/-- `bag[0], bag[-1] = bag[-1], bag[0]` -/
def swapEnds (bag : List α) : List α :=
  match bag.head?, bag.getLast? with
  | some first, some last => (bag.set 0 last).set (bag.length - 1) first
  | _, _ => bag

variable {combos : List α}

namespace FingerprintPool

def windows : List String := ["Windows NT 10.0; Win64; x64", "Windows NT 11.0; Win64; x64"]

def macos : List String :=
  ["Macintosh; Intel Mac OS X 10_15_7", "Macintosh; Intel Mac OS X 13_6",
    "Macintosh; Intel Mac OS X 14_5"]

def linux : List String := ["X11; Linux x86_64", "X11; Ubuntu; Linux x86_64"]

def languages : List String :=
  ["en-US,en;q=0.9", "en-GB,en;q=0.9", "en-US,en;q=0.8,de;q=0.6", "en-CA,en;q=0.9,fr;q=0.6",
    "en-US,en;q=0.9,es;q=0.5", "en-US,en;q=0.5"]

def profiles : List BrowserProfile :=
  [⟨"chrome", windows ++ macos ++ linux, (List.range' 118 10).map .number⟩,
    ⟨"edge", windows ++ macos, (List.range' 118 10).map .number⟩,
    ⟨"firefox", windows ++ macos ++ linux, (List.range' 115 14).map .number⟩,
    ⟨"safari", macos, ["16.4", "16.6", "17.0", "17.4", "17.5"].map .text⟩]

def allCombos : List (String × String × BrowserVersion × String) :=
  profiles.flatMap fun profile =>
    profile.osTokens.flatMap fun osToken =>
      profile.versions.flatMap fun version =>
        languages.map fun language => (profile.family, osToken, version, language)

variable [DecidableEq α]

/-- The bag that is drawn from. -/
def filledBag (pool : FingerprintPool α) (shuffled : Shuffled combos) : List α :=
  if pool.comboBag = [] then
    if shuffled.val.getLast? = pool.lastCombo then swapEnds shuffled.val else shuffled.val
  else pool.comboBag

/-- `none` is the `IndexError` of an empty list of combinations. -/
def nextCombo (pool : FingerprintPool α) (shuffled : Shuffled combos) :
    Option (α × FingerprintPool α) :=
  let bag := pool.filledBag shuffled
  bag.getLast?.map fun combo => (combo, ⟨bag.dropLast, some combo⟩)

/-- One call after another, each with the shuffle that it makes if it has to. -/
def nextCombos : FingerprintPool α → List (Shuffled combos) → Option (List α × FingerprintPool α)
  | pool, [] => some ([], pool)
  | pool, shuffled :: shuffles => do
      let (combo, pool) ← pool.nextCombo shuffled
      let (draws, pool) ← pool.nextCombos shuffles
      return (combo :: draws, pool)

end FingerprintPool

/-! ## The combinations of the class -/

/-- Lists joined under keys of their own have no element twice. -/
theorem nodup_flatMap_of_key {β γ κ : Type} {f : β → List γ} {xs : List β} (key : γ → κ)
    (keyOf : β → κ) (hkeys : (xs.map keyOf).Nodup) (hkey : ∀ x ∈ xs, ∀ y ∈ f x, key y = keyOf x)
    (hf : ∀ x ∈ xs, (f x).Nodup) : (xs.flatMap f).Nodup := by
  rw [List.nodup_flatMap]
  refine ⟨hf, (List.pairwise_map.mp hkeys).imp_of_mem ?_⟩
  intro a b ha hb hab y hya hyb
  apply hab
  calc
    keyOf a = key y := (hkey a ha y hya).symm
    _ = keyOf b := hkey b hb y hyb

theorem profiles_nodup : ∀ profile ∈ FingerprintPool.profiles,
    profile.osTokens.Nodup ∧ profile.versions.Nodup := by
  decide +kernel

theorem allCombos_nodup : FingerprintPool.allCombos.Nodup := by
  apply nodup_flatMap_of_key (·.1) BrowserProfile.family (by decide)
  · intro profile _ combo hcombo
    simp only [List.mem_flatMap, List.mem_map] at hcombo
    obtain ⟨osToken, -, version, -, language, -, rfl⟩ := hcombo
    rfl
  intro profile hprofile
  obtain ⟨hos, hversions⟩ := profiles_nodup profile hprofile
  apply nodup_flatMap_of_key (·.2.1) id (by rwa [List.map_id])
  · intro osToken _ combo hcombo
    simp only [List.mem_flatMap, List.mem_map] at hcombo
    obtain ⟨version, -, language, -, rfl⟩ := hcombo
    rfl
  intro osToken _
  apply nodup_flatMap_of_key (·.2.2.1) id (by rwa [List.map_id])
  · intro version _ combo hcombo
    obtain ⟨language, -, rfl⟩ := List.mem_map.mp hcombo
    rfl
  intro version _
  apply List.Nodup.map _ (by decide)
  intro a b hab
  exact congrArg (fun combo => combo.2.2.2) hab

/-! ## The two ends of the bag -/

theorem swapEnds_of_ends (first last : α) (inner : List α) :
    swapEnds (first :: inner ++ [last]) = last :: inner ++ [first] := by
  have hlast : (first :: inner ++ [last]).getLast? = some last := List.getLast?_concat
  rw [swapEnds, hlast]
  simp

theorem exists_ends {bag : List α} (hsize : 2 ≤ bag.length) :
    ∃ first inner last, bag = first :: inner ++ [last] := by
  cases bag with
  | nil => cases hsize
  | cons first rest =>
      have hrest : rest ≠ [] := by
        intro hnil
        rw [hnil] at hsize
        simp at hsize
      refine ⟨first, rest.dropLast, rest.getLast hrest, ?_⟩
      rw [List.cons_append, List.dropLast_append_getLast hrest]

theorem swapEnds_perm {bag : List α} (hsize : 2 ≤ bag.length) : (swapEnds bag).Perm bag := by
  obtain ⟨first, inner, last, rfl⟩ := exists_ends hsize
  rw [swapEnds_of_ends]
  calc
    (last :: inner ++ [first]).Perm (first :: last :: inner) := List.perm_append_singleton _ _
    _ |>.Perm (last :: first :: inner) := .swap _ _ _
    _ |>.Perm (first :: inner ++ [last]) := (List.perm_append_singleton _ _).symm

theorem getLast?_swapEnds_ne {bag : List α} (hsize : 2 ≤ bag.length) (hnodup : bag.Nodup) :
    (swapEnds bag).getLast? ≠ bag.getLast? := by
  obtain ⟨first, inner, last, rfl⟩ := exists_ends hsize
  rw [swapEnds_of_ends, List.getLast?_concat, List.getLast?_concat]
  intro heq
  rw [Option.some.inj heq, List.cons_append] at hnodup
  exact (List.nodup_cons.mp hnodup).1 (List.mem_append_right _ List.mem_cons_self)

/-! ## Whole cycles -/

/-- One permutation of `combos` after another. -/
inductive FullCycles (combos : List α) : List α → Prop
  | nil : FullCycles combos []
  | append {full cycle : List α} (hfull : FullCycles combos full) (hcycle : cycle.Perm combos) :
      FullCycles combos (full ++ cycle)

theorem FullCycles.length_dvd {full : List α} (h : FullCycles combos full) :
    combos.length ∣ full.length := by
  induction h with
  | nil => exact Nat.dvd_zero _
  | append hfull hcycle ih =>
      rw [List.length_append, hcycle.length_eq]
      exact Nat.dvd_add ih (Nat.dvd_refl _)

/-- The blocks of the length of `combos` are the cycles. -/
theorem FullCycles.block {full : List α} (h : FullCycles combos full) {c : Nat}
    (hc : (c + 1) * combos.length ≤ full.length) :
    ((full.drop (c * combos.length)).take combos.length).Perm combos := by
  induction h with
  | nil =>
      have hnil : combos.length = 0 := by
        rw [List.length_nil, Nat.succ_mul] at hc
        omega
      rw [List.length_eq_zero_iff.mp hnil]
      exact .refl _
  | @append full cycle hfull hcycle ih =>
      rw [List.length_append, hcycle.length_eq] at hc
      have hle : c * combos.length ≤ full.length := by
        rw [Nat.succ_mul] at hc
        omega
      rw [List.drop_append_of_le_length hle]
      by_cases hin : (c + 1) * combos.length ≤ full.length
      · rw [List.take_append_of_le_length]
        · exact ih hin
        · rw [List.length_drop]
          rw [Nat.succ_mul] at hin
          omega
      · -- the cycle that was appended last
        obtain ⟨k, hk⟩ := hfull.length_dvd
        have hlast : full.length = c * combos.length := by
          rw [Nat.mul_comm] at hk
          rw [hk] at hle hin ⊢
          have hpos : 0 < combos.length := by
            apply Nat.pos_of_ne_zero
            intro hzero
            rw [hzero] at hin
            exact hin (Nat.le_refl _)
          have hck : c ≤ k := Nat.le_of_mul_le_mul_right hle hpos
          have hkc : k < c + 1 := Nat.lt_of_mul_lt_mul_right (Nat.lt_of_not_le hin)
          rw [Nat.le_antisymm hck (Nat.le_of_lt_succ hkc)]
        rw [← hlast, List.drop_length, List.nil_append, ← hcycle.length_eq, List.take_length]
        exact hcycle

/-! ## What a draw keeps -/

/-- The draws are whole cycles and the part of one whose rest is in the bag. -/
structure Cycling (combos draws : List α) (pool : FingerprintPool α) : Prop where
  cycles : ∃ full part, draws = full ++ part ∧ FullCycles combos full ∧
    (pool.comboBag = [] ∧ part = [] ∨
      part ≠ [] ∧ pool.comboBag ≠ [] ∧ (part ++ pool.comboBag.reverse).Perm combos)
  last : pool.lastCombo = draws.getLast?
  apart : draws.IsChain (· ≠ ·)

variable {pool : FingerprintPool α} {draws : List α}

theorem Cycling.block (h : Cycling combos draws pool) {c : Nat}
    (hc : (c + 1) * combos.length ≤ draws.length) :
    ((draws.drop (c * combos.length)).take combos.length).Perm combos := by
  obtain ⟨full, part, rfl, hfull, hbag⟩ := h.cycles
  have hpart : part.length < combos.length ∨ part = [] := by
    rcases hbag with ⟨-, hnil⟩ | ⟨-, hfilled, hrest⟩
    · exact .inr hnil
    · left
      have hlength := hrest.length_eq
      have := List.length_pos_iff.mpr hfilled
      rw [List.length_append, List.length_reverse] at hlength
      omega
  have hin : (c + 1) * combos.length ≤ full.length := by
    rw [List.length_append] at hc
    rcases hpart with hshort | rfl
    · obtain ⟨k, hk⟩ := hfull.length_dvd
      rw [hk, Nat.mul_comm combos.length] at hc ⊢
      have hck : c + 1 < k + 1 := by
        apply Nat.lt_of_mul_lt_mul_right (a := combos.length)
        rw [Nat.succ_mul k]
        omega
      exact Nat.mul_le_mul_right _ (Nat.le_of_lt_succ hck)
    · exact hc
  have hle : c * combos.length ≤ full.length := by
    rw [Nat.succ_mul] at hin
    omega
  rw [List.drop_append_of_le_length hle, List.take_append_of_le_length]
  · exact hfull.block hin
  · rw [List.length_drop]
    rw [Nat.succ_mul] at hin
    omega

variable [DecidableEq α]

/-- With the bag that the next draw takes from, the begun cycle is complete. -/
theorem Cycling.filledBag (h : Cycling combos draws pool) (hnodup : combos.Nodup)
    (hsize : 2 ≤ combos.length) (shuffled : Shuffled combos) :
    pool.filledBag shuffled ≠ [] ∧ (pool.filledBag shuffled).getLast? ≠ pool.lastCombo ∧
      ∃ full part, draws = full ++ part ∧ FullCycles combos full ∧
        (part ++ (pool.filledBag shuffled).reverse).Perm combos := by
  obtain ⟨full, part, hdraws, hfull, hbag⟩ := h.cycles
  unfold FingerprintPool.filledBag
  rcases hbag with ⟨hempty, rfl⟩ | ⟨hpart, hfilled, hrest⟩
  · rw [if_pos hempty]
    have hshuffled : 2 ≤ shuffled.val.length := by rwa [shuffled.property.length_eq]
    let bag := if shuffled.val.getLast? = pool.lastCombo then swapEnds shuffled.val
      else shuffled.val
    have hperm : bag.Perm combos := by
      dsimp only [bag]
      split
      · exact (swapEnds_perm hshuffled).trans shuffled.property
      · exact shuffled.property
    refine ⟨?_, ?_, full, [], hdraws, hfull, (List.reverse_perm _).trans hperm⟩
    · apply List.ne_nil_of_length_pos
      rw [hperm.length_eq]
      omega
    · split
      · next hboundary =>
        rw [← hboundary]
        exact getLast?_swapEnds_ne hshuffled (shuffled.property.nodup_iff.mpr hnodup)
      · next hboundary => exact hboundary
  · rw [if_neg hfilled]
    refine ⟨hfilled, ?_, full, part, hdraws, hfull, hrest⟩
    -- what was drawn last is in the begun cycle, and not in the bag
    rw [h.last, hdraws, List.getLast?_append_of_ne_nil _ hpart, List.getLast?_eq_some_getLast hpart,
      List.getLast?_eq_some_getLast hfilled]
    intro heq
    have hapart := (List.nodup_append.mp (hrest.nodup_iff.mpr hnodup)).2.2
    apply hapart _ (List.getLast_mem hpart) _ (List.mem_reverse.mpr (List.getLast_mem hfilled))
    exact (Option.some.inj heq).symm

theorem Cycling.nextCombo (h : Cycling combos draws pool) (hnodup : combos.Nodup)
    (hsize : 2 ≤ combos.length) (shuffled : Shuffled combos) :
    ∃ combo next, pool.nextCombo shuffled = some (combo, next) ∧
      Cycling combos (draws ++ [combo]) next := by
  obtain ⟨hfilled, hlast, full, part, hdraws, hfull, hcycle⟩ := h.filledBag hnodup hsize shuffled
  let bag := pool.filledBag shuffled
  have hdraw : pool.nextCombo shuffled =
      some (bag.getLast hfilled, ⟨bag.dropLast, some (bag.getLast hfilled)⟩) := by
    rw [FingerprintPool.nextCombo, List.getLast?_eq_some_getLast hfilled]
    rfl
  have hbegun : (part ++ [bag.getLast hfilled] ++ bag.dropLast.reverse).Perm combos := by
    rw [← List.dropLast_append_getLast hfilled, List.reverse_append] at hcycle
    rwa [List.append_assoc]
  refine ⟨_, _, hdraw, ⟨?_, List.getLast?_concat.symm, ?_⟩⟩
  · by_cases hrest : bag.dropLast = []
    · rw [hrest, List.reverse_nil, List.append_nil] at hbegun
      refine ⟨full ++ (part ++ [bag.getLast hfilled]), [], ?_, hfull.append hbegun, ?_⟩
      · rw [hdraws, List.append_nil, List.append_assoc]
      · exact .inl ⟨hrest, rfl⟩
    · refine ⟨full, part ++ [bag.getLast hfilled], ?_, hfull, ?_⟩
      · rw [hdraws, List.append_assoc]
      · exact .inr ⟨List.append_ne_nil_of_right_ne_nil _ (List.cons_ne_nil _ _), hrest, hbegun⟩
  · rw [List.isChain_append]
    refine ⟨h.apart, .singleton _, ?_⟩
    intro a ha b hb hab
    rw [List.head?_cons] at hb
    rw [← h.last] at ha
    apply hlast
    rw [List.getLast?_eq_some_getLast hfilled, ha, hab]
    exact hb

theorem Cycling.nextCombos (h : Cycling combos draws pool) (hnodup : combos.Nodup)
    (hsize : 2 ≤ combos.length) (shuffles : List (Shuffled combos)) :
    ∃ more next, pool.nextCombos shuffles = some (more, next) ∧
      more.length = shuffles.length ∧ Cycling combos (draws ++ more) next := by
  induction shuffles generalizing draws pool with
  | nil => exact ⟨[], pool, rfl, rfl, by rwa [List.append_nil]⟩
  | cons shuffled shuffles ih =>
      obtain ⟨combo, pool', hdraw, h'⟩ := h.nextCombo hnodup hsize shuffled
      obtain ⟨more, next, hmore, hlength, hnext⟩ := ih h'
      refine ⟨combo :: more, next, ?_, congrArg (· + 1) hlength, ?_⟩
      · rw [FingerprintPool.nextCombos, hdraw]
        show (pool'.nextCombos shuffles).bind _ = _
        rw [hmore]
        rfl
      · rwa [List.append_assoc] at hnext

/-- Every cycle has each combination once, and no draw repeats the one before it. -/
theorem nextCombos_cycle (hnodup : combos.Nodup) (hsize : 2 ≤ combos.length)
    (shuffles : List (Shuffled combos)) :
    ∃ draws next, ({} : FingerprintPool α).nextCombos shuffles = some (draws, next) ∧
      draws.length = shuffles.length ∧
      (∀ c, (c + 1) * combos.length ≤ draws.length →
        ((draws.drop (c * combos.length)).take combos.length).Perm combos) ∧
      draws.IsChain (· ≠ ·) := by
  have hstart : Cycling combos [] ({} : FingerprintPool α) :=
    ⟨⟨[], [], rfl, .nil, .inl ⟨rfl, rfl⟩⟩, rfl, .nil⟩
  obtain ⟨draws, next, hrun, hlength, h⟩ := hstart.nextCombos hnodup hsize shuffles
  rw [List.nil_append] at h
  exact ⟨draws, next, hrun, hlength, fun c => h.block, h.apart⟩

open FingerprintPool in
/-- The first cycle of the class and the first draw of the second. -/
theorem nextCombos_cycle_allCombos :
    ∃ draws next, ({} : FingerprintPool (String × String × BrowserVersion × String)).nextCombos
        (List.replicate (allCombos.length + 1) (⟨allCombos, .refl _⟩ : Shuffled allCombos)) =
          some (draws, next) ∧
      draws.length = (List.replicate (allCombos.length + 1)
        (⟨allCombos, .refl _⟩ : Shuffled allCombos)).length ∧
      (∀ c, (c + 1) * allCombos.length ≤ draws.length →
        ((draws.drop (c * allCombos.length)).take allCombos.length).Perm allCombos) ∧
      draws.IsChain (· ≠ ·) :=
  nextCombos_cycle allCombos_nodup (by decide +kernel) _

end RecruFlow.Connectors
