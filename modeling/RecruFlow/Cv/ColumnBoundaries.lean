import RecruFlow.Cv.TextExtraction

/-!
# Which column a segment is put into

A boundary is the mean of a cluster of starts. A start that is left of the mean
of its own cluster is put into the column before the boundary.
-/

namespace RecruFlow.Cv

open Lib.Clusters

section Segments

variable {row : List Word} {x : ℚ}

/-- Behind each gap a segment starts. -/
theorem exists_segment_of_gapStart (hx : x ∈ gapStarts row) :
    ∃ segment ∈ (rowSegments row).tail, ∃ first rest, segment = first :: rest ∧ first.x0 = x := by
  induction row with
  | nil => exact absurd hx List.not_mem_nil
  | cons previous row ih =>
    cases row with
    | nil => exact absurd hx List.not_mem_nil
    | cons word row =>
      obtain ⟨rest, segments, hsegments⟩ :=
        splitBy_cons_eq (r := fun v w => !gapBetween v w) (a := word) (l := row)
      have hstarts : gapStarts (previous :: word :: row) =
          (if gapBetween previous word then [word.x0] else []) ++ gapStarts (word :: row) := by
        simp only [gapStarts, List.tail_cons, List.zip_cons_cons, List.filter_cons]
        split <;> rfl
      rw [hstarts, List.mem_append] at hx
      cases hgap : gapBetween previous word with
      | false =>
        have hcut : rowSegments (previous :: word :: row) = (previous :: word :: rest) :: segments :=
          splitBy_cons_of (by simp [hgap]) hsegments
        rw [hgap] at hx
        have hrest := ih (hx.resolve_left List.not_mem_nil)
        rw [rowSegments, hsegments] at hrest
        rw [hcut]
        exact hrest
      | true =>
        have hcut : rowSegments (previous :: word :: row) = [previous] :: (word :: rest) :: segments := by
          rw [rowSegments, splitBy_cons_of_not (by simp [hgap]), hsegments]
        rw [hcut]
        rcases hx with hx | hx
        · rw [hgap, if_pos rfl, List.mem_singleton] at hx
          exact ⟨_, List.mem_cons_self, word, rest, rfl, hx.symm⟩
        · have hrest := ih hx
          rw [rowSegments, hsegments] at hrest
          obtain ⟨segment, hsegment, hfirst⟩ := hrest
          exact ⟨segment, .tail _ hsegment, hfirst⟩

end Segments

section Boundaries

variable {rows : List (List Word)} {cluster : List ℚ} {x : ℚ}

theorem columnStarts_sorted : (columnStarts rows).Pairwise (· ≤ ·) :=
  List.pairwise_insertionSort _ _

theorem mem_columnStarts : x ∈ columnStarts rows ↔ ∃ row ∈ rows, x ∈ gapStarts row := by
  rw [columnStarts, List.mem_insertionSort, List.mem_flatMap]

theorem columnClusters_of_kept (h : cluster ∈ keptClusters rows) :
    cluster ∈ columnClusters rows ∧ minRowsForColumn ≤ cluster.length := by
  rw [keptClusters, List.mem_filter, decide_eq_true_eq] at h
  exact h

theorem kept_ne_nil (h : cluster ∈ keptClusters rows) : cluster ≠ [] :=
  ne_nil_of_mem (columnClusters_of_kept h).1

theorem keptClusters_apart :
    (keptClusters rows).Pairwise (Apart columnClusterTolerance) :=
  (pairwise_apart columnStarts_sorted).sublist List.filter_sublist

/-- The boundaries are found in increasing order. -/
theorem findColumnBoundaries_eq :
    findColumnBoundaries rows = (keptClusters rows).map average ∧
      ((keptClusters rows).map average).Pairwise (· < ·) := by
  have hlt : ((keptClusters rows).map average).Pairwise (· < ·) := by
    rw [List.pairwise_map]
    refine keptClusters_apart.imp_of_mem fun hlower hupper happart => ?_
    exact average_lt_of_apart (by decide) (kept_ne_nil hlower) (kept_ne_nil hupper) happart
  exact ⟨(hlt.imp fun h => h.le).insertionSort_eq, hlt⟩

/-- Between boundaries left of `x` and boundaries right of it, one more decides. -/
theorem findIdx_middle {before after : List ℚ} {boundary : ℚ} (hleft : ∀ b ∈ before, b ≤ x)
    (hright : ∀ b ∈ after, x < b) :
    (before ++ boundary :: after).findIdx (x < ·) =
      before.length + if x < boundary then 0 else 1 := by
  have hskip : ¬ before.findIdx (x < ·) < before.length := by
    rw [List.findIdx_lt_length]
    intro h
    obtain ⟨b, hb, hlt⟩ := h
    exact absurd (of_decide_eq_true hlt) (not_lt.mpr (hleft b hb))
  have hstop : after.findIdx (x < ·) = 0 := by
    cases after with
    | nil => rfl
    | cons next after =>
      rw [List.findIdx_cons, decide_eq_true (hright next List.mem_cons_self), cond_true]
  rw [List.findIdx_append, if_neg hskip, List.findIdx_cons, hstop, Nat.add_comm]
  by_cases h : x < boundary
  · rw [if_pos h, decide_eq_true h, cond_true]
  · rw [if_neg h, decide_eq_false h, cond_false]

/-- A member of a cluster is put beside the boundary of its cluster: before it
if it is left of it. -/
theorem columnIndex_of_mem (hcluster : cluster ∈ keptClusters rows) (hx : x ∈ cluster) :
    columnIndex x (findColumnBoundaries rows) =
      (findColumnBoundaries rows).idxOf (average cluster) +
        if x < average cluster then 0 else 1 := by
  obtain ⟨hboundaries, hlt⟩ := @findColumnBoundaries_eq rows
  have happart := @keptClusters_apart rows
  rw [hboundaries]
  have hne := fun c (h : c ∈ keptClusters rows) => kept_ne_nil h
  obtain ⟨before, after, hkept⟩ := List.append_of_mem hcluster
  rw [hkept] at happart hlt hne ⊢
  rw [List.pairwise_append, List.pairwise_cons] at happart
  obtain ⟨-, ⟨hafter, -⟩, hbefore⟩ := happart
  have hleft : ∀ b ∈ before.map average, b ≤ x := List.forall_mem_map.mpr fun c hc =>
    average_le (hne c (List.mem_append_left _ hc)) fun y hy => by
      have h : (12 : ℚ) < x - y := hbefore c hc cluster List.mem_cons_self y hy x hx
      linarith
  have hright : ∀ b ∈ after.map average, x < b := List.forall_mem_map.mpr fun c hc => by
    have h : x + 12 ≤ average c :=
      le_average (hne c (List.mem_append_right _ (.tail _ hc))) fun y hy => by
        have h : (12 : ℚ) < y - x := hafter c hc x hx y hy
        linarith
    linarith
  have hnotMem : average cluster ∉ before.map average := fun h => by
    rw [List.map_append, List.map_cons, List.pairwise_append] at hlt
    exact lt_irrefl _ (hlt.2.2 _ h _ List.mem_cons_self)
  rw [List.map_append, List.map_cons, List.idxOf_append_of_notMem hnotMem, List.idxOf_cons_self,
    columnIndex, findIdx_middle hleft hright, Nat.add_zero]

end Boundaries

section Columns

/-- The segments of a page that start at a gap. -/
def GapSegment (rows : List (List Word)) (segment : List Word) : Prop :=
  ∃ row ∈ rows, segment ∈ (rowSegments row).tail

def StartsIn (cluster : List ℚ) (segment : List Word) : Prop :=
  ∃ first ∈ segment.head?, first.x0 ∈ cluster

/-- Segments that start in the cluster of a boundary are put into the column to
its right, and hence into one column. -/
structure ColumnsKept (words : List Word) : Prop where
  right_of_boundary : ∀ cluster ∈ keptClusters (groupIntoRows words), ∀ segment,
    GapSegment (groupIntoRows words) segment → StartsIn cluster segment →
    segmentColumn (findColumnBoundaries (groupIntoRows words)) segment =
      (findColumnBoundaries (groupIntoRows words)).idxOf (average cluster) + 1
  same_column : ∀ cluster ∈ keptClusters (groupIntoRows words), ∀ segment segment',
    GapSegment (groupIntoRows words) segment → GapSegment (groupIntoRows words) segment' →
    StartsIn cluster segment → StartsIn cluster segment' →
    segmentColumn (findColumnBoundaries (groupIntoRows words)) segment =
      segmentColumn (findColumnBoundaries (groupIntoRows words)) segment'

/-- Three or more starts, each at most the tolerance to the right of another,
are at one position. -/
def StartsAligned (words : List Word) : Prop :=
  ∀ chain : List ℚ, chain.Subperm ((groupIntoRows words).flatMap gapStarts) →
    chain.Pairwise (· ≤ ·) →
    chain.IsChain (fun last start => start - last ≤ columnClusterTolerance) →
    minRowsForColumn ≤ chain.length → ∀ x ∈ chain, ∀ y ∈ chain, x = y

variable {words : List Word}

theorem startsAligned_iff : StartsAligned words ↔
    ∀ cluster ∈ keptClusters (groupIntoRows words), ∀ x ∈ cluster, ∀ y ∈ cluster, x = y := by
  have hperm : (columnStarts (groupIntoRows words)).Perm
      ((groupIntoRows words).flatMap gapStarts) := List.perm_insertionSort _ _
  constructor
  · intro h cluster hcluster
    obtain ⟨hmem, hlength⟩ := columnClusters_of_kept hcluster
    have hsub := sublist_of_mem hmem
    exact h cluster (hsub.subperm.trans hperm.subperm) (columnStarts_sorted.sublist hsub)
      (isChain_of_mem hmem) hlength
  · intro h chain hsub hsorted hclose hlength x hx y hy
    have htolerance : 0 ≤ columnClusterTolerance := by decide
    obtain ⟨cluster, hcluster, hchain⟩ :=
      chain_subperm columnStarts_sorted htolerance
        (hsub.trans hperm.symm.subperm) (List.ne_nil_of_mem hx) hsorted hclose
    have hkept : cluster ∈ keptClusters (groupIntoRows words) :=
      List.mem_filter.mpr ⟨hcluster, decide_eq_true (hlength.trans hchain.length_le)⟩
    exact h cluster hkept x (hchain.subset hx) y (hchain.subset hy)

theorem segmentColumn_of_startsIn {cluster : List ℚ} {segment : List Word}
    (hcluster : cluster ∈ keptClusters (groupIntoRows words))
    (haligned : ∀ x ∈ cluster, ∀ y ∈ cluster, x = y) (hstart : StartsIn cluster segment) :
    segmentColumn (findColumnBoundaries (groupIntoRows words)) segment =
      (findColumnBoundaries (groupIntoRows words)).idxOf (average cluster) + 1 := by
  obtain ⟨first, hfirst, hx⟩ := hstart
  obtain ⟨rest, rfl⟩ := List.head?_eq_some_iff.mp hfirst
  have hmean : average cluster ≤ first.x0 :=
    average_le (List.ne_nil_of_mem hx) fun y hy => (haligned y hy first.x0 hx).le
  rw [segmentColumn, columnIndex_of_mem hcluster hx, if_neg (not_lt.mpr hmean)]

/-- Columns are kept exactly of pages whose clustered starts are aligned. -/
theorem columnsKept_iff (words : List Word) : ColumnsKept words ↔ StartsAligned words := by
  rw [startsAligned_iff]
  constructor
  · intro h cluster hcluster
    have hright : ∀ x ∈ cluster, average cluster ≤ x := by
      intro x hx
      have hstart : x ∈ columnStarts (groupIntoRows words) :=
        (sublist_of_mem (columnClusters_of_kept hcluster).1).subset hx
      obtain ⟨row, hrow, hgap⟩ := mem_columnStarts.mp hstart
      obtain ⟨segment, hsegment, first, rest, rfl, rfl⟩ := exists_segment_of_gapStart hgap
      have hcolumn := h.right_of_boundary cluster hcluster _ ⟨row, hrow, hsegment⟩
        ⟨first, rfl, hx⟩
      rw [segmentColumn, columnIndex_of_mem hcluster hx] at hcolumn
      by_contra hlt
      rw [if_pos (not_le.mp hlt)] at hcolumn
      omega
    intro x hx y hy
    rw [eq_average hright x hx, eq_average hright y hy]
  · intro h
    refine ⟨fun cluster hcluster segment _ hstart => ?_,
      fun cluster hcluster segment segment' _ _ hstart hstart' => ?_⟩
    · exact segmentColumn_of_startsIn hcluster (h cluster hcluster) hstart
    · rw [segmentColumn_of_startsIn hcluster (h cluster hcluster) hstart,
        segmentColumn_of_startsIn hcluster (h cluster hcluster) hstart']

/-- Two columns, the right one not quite aligned. -/
def jitteredPage : List Word :=
  [⟨"Skills:", 0, 50, 0⟩, ⟨"Senior", 100, 150, 0⟩,
    ⟨"Python", 0, 50, 20⟩, ⟨"Engineer", 101, 150, 20⟩,
    ⟨"Django", 0, 50, 40⟩, ⟨"Acme", 102, 150, 40⟩]

theorem jittered_column_is_split :
    findColumnBoundaries (groupIntoRows jitteredPage) ≠ [] ∧ ¬ ColumnsKept jitteredPage := by
  have hboundaries : findColumnBoundaries (groupIntoRows jitteredPage) = [101] := by
    decide +kernel
  refine ⟨by rw [hboundaries]; exact List.cons_ne_nil _ _, fun h => ?_⟩
  have hcolumn := h.right_of_boundary [100, 101, 102] (by decide +kernel)
    [⟨"Senior", 100, 150, 0⟩]
    ⟨[⟨"Skills:", 0, 50, 0⟩, ⟨"Senior", 100, 150, 0⟩], by decide +kernel, by decide +kernel⟩
    ⟨⟨"Senior", 100, 150, 0⟩, rfl, List.mem_cons_self⟩
  rw [hboundaries] at hcolumn
  exact absurd hcolumn (by decide +kernel)

end Columns

end RecruFlow.Cv
