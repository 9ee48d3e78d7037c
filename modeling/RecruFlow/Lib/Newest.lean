import Mathlib.Data.Finset.Max

/-!
# The newest item of each kind

Of the items with one key those of the highest rank are kept: there is one for each key,
and only one when ranks differ.
-/

namespace RecruFlow.Lib.Newest

variable {α κ ι : Type*} [DecidableEq κ] [LinearOrder ι] (key : α → κ) (rank : α → ι)

def newest (xs : List α) : List α :=
  xs.filter fun x => ¬ ∃ y ∈ xs, key y = key x ∧ rank x < rank y

variable {key rank} {xs : List α} {x y : α}

theorem mem_newest : x ∈ newest key rank xs ↔
    x ∈ xs ∧ ∀ y ∈ xs, key y = key x → rank y ≤ rank x := by
  rw [newest, List.mem_filter, decide_eq_true_eq]
  push Not
  rfl

theorem newest_sublist : (newest key rank xs).Sublist xs :=
  List.filter_sublist

/-- Every item has a newest one of its key. -/
theorem exists_newest (hx : x ∈ xs) : ∃ y ∈ newest key rank xs, key y = key x := by
  classical
  let same := (xs.filter (key · = key x)).toFinset
  have hmem : ∀ {y}, y ∈ same ↔ y ∈ xs ∧ key y = key x := by
    intro y
    rw [List.mem_toFinset, List.mem_filter, decide_eq_true_eq]
  obtain ⟨y, hy, hmax⟩ := same.exists_max_image rank ⟨x, hmem.mpr ⟨hx, rfl⟩⟩
  obtain ⟨hyxs, hkey⟩ := hmem.mp hy
  refine ⟨y, mem_newest.mpr ⟨hyxs, fun z hz hzkey => ?_⟩, hkey⟩
  exact hmax z (hmem.mpr ⟨hz, hzkey.trans hkey⟩)

/-- Newest items of one key have the same rank. -/
theorem rank_eq_of_mem_newest (hx : x ∈ newest key rank xs) (hy : y ∈ newest key rank xs)
    (hkey : key x = key y) : rank x = rank y := by
  obtain ⟨hxs, hxmax⟩ := mem_newest.mp hx
  obtain ⟨hys, hymax⟩ := mem_newest.mp hy
  exact le_antisymm (hymax x hxs hkey) (hxmax y hys hkey.symm)

/-- When ranks are not repeated, neither are the keys of the newest items. -/
theorem nodup_newest_keys (hrank : (xs.map rank).Nodup) :
    ((newest key rank xs).map key).Nodup := by
  have hnodup : ((newest key rank xs).map rank).Nodup := (newest_sublist.map rank).nodup hrank
  rw [List.nodup_map_iff_inj_on hnodup.of_map]
  intro x hx y hy hkey
  exact List.inj_on_of_nodup_map hnodup hx hy (rank_eq_of_mem_newest hx hy hkey)

end RecruFlow.Lib.Newest
