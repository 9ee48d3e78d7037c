import RecruFlow.Cv.TextExtraction

/-!
# The order in which the words of a page are read

Rows, segments and columns each divide the words of a page. The text that comes
of them has every word once, with the words of a segment next to one another.
-/

namespace RecruFlow.Cv

open Lib.Clusters Lib.Grouping

section Rows

variable {words current : List Word} {currentTop : ℚ} {row : List Word}

theorem perm_sortByTop (words : List Word) : (sortByTop words).Perm words :=
  List.perm_insertionSort _ words

theorem perm_sortByX0 (words : List Word) : (sortByX0 words).Perm words :=
  List.perm_insertionSort _ words

theorem pairwise_sortByTop (words : List Word) :
    (sortByTop words).Pairwise fun v w => v.top ≤ w.top :=
  have : IsTrans Word fun v w => v.top ≤ w.top := ⟨fun _ _ _ => le_trans⟩
  have : Std.Total fun v w : Word => v.top ≤ w.top := ⟨fun v w => le_total v.top w.top⟩
  List.pairwise_insertionSort _ words

theorem pairwise_sortByX0 (words : List Word) :
    (sortByX0 words).Pairwise fun v w => v.x0 ≤ w.x0 :=
  have : IsTrans Word fun v w => v.x0 ≤ w.x0 := ⟨fun _ _ _ => le_trans⟩
  have : Std.Total fun v w : Word => v.x0 ≤ w.x0 := ⟨fun v w => le_total v.x0 w.x0⟩
  List.pairwise_insertionSort _ words

theorem perm_groupRows : (groupRows currentTop current words).flatten.Perm (current ++ words) := by
  induction words generalizing currentTop current with
  | nil => simpa [groupRows] using perm_sortByX0 current
  | cons word words ih =>
    rw [groupRows]
    split
    · have h := @ih (current ++ [word]) currentTop
      rwa [List.append_assoc] at h
    · exact (perm_sortByX0 current).append ih

theorem pairwise_of_mem_groupRows (hrow : row ∈ groupRows currentTop current words) :
    row.Pairwise fun v w => v.x0 ≤ w.x0 := by
  induction words generalizing currentTop current with
  | nil =>
    obtain rfl := List.mem_singleton.mp hrow
    exact pairwise_sortByX0 current
  | cons word words ih =>
    rw [groupRows] at hrow
    split at hrow
    · exact ih hrow
    · rcases List.mem_cons.mp hrow with rfl | hrow
      · exact pairwise_sortByX0 current
      · exact ih hrow

/-- The upper row is above the lower one. -/
def Above (upper lower : List Word) : Prop :=
  ∀ v ∈ upper, ∀ w ∈ lower, v.top < w.top

/-- A row has the words within the tolerance of its first word, and those that
come are below all of them. -/
theorem groupRows_above (hcurrent : ∀ w ∈ current, w.top ≤ currentTop + rowTopTolerance)
    (hbelow : ∀ w ∈ words, currentTop ≤ w.top)
    (hsorted : words.Pairwise fun v w => v.top ≤ w.top) :
    (groupRows currentTop current words).Pairwise Above := by
  induction words generalizing currentTop current with
  | nil => exact List.pairwise_singleton _ _
  | cons word words ih =>
    rw [List.pairwise_cons] at hsorted
    rw [groupRows]
    split
    · next hclose =>
      refine ih (fun w hw => ?_) (fun w hw => hbelow w (.tail _ hw)) hsorted.2
      rcases List.mem_append.mp hw with hw | hw
      · exact hcurrent w hw
      · obtain rfl := List.mem_singleton.mp hw
        have h := (abs_le.mp hclose).2
        linarith
    · next hfar =>
      have hself : word.top ≤ word.top + rowTopTolerance := by
        rw [le_add_iff_nonneg_right]
        decide
      have hrest := @ih [word] word.top
        (fun w hw => by obtain rfl := List.mem_singleton.mp hw; exact hself) hsorted.1 hsorted.2
      refine List.pairwise_cons.mpr ⟨fun lower hlower v hv w hw => ?_, hrest⟩
      have hpast : currentTop + rowTopTolerance < word.top := by
        have hle := hbelow word List.mem_cons_self
        rw [abs_of_nonneg (sub_nonneg.mpr hle), not_le] at hfar
        linarith
      have hv' : v.top ≤ currentTop + rowTopTolerance :=
        hcurrent v ((perm_sortByX0 current).subset hv)
      have hw' : word.top ≤ w.top := by
        have hmem := perm_groupRows.subset (List.mem_flatten.mpr ⟨lower, hlower, hw⟩)
        rcases List.mem_cons.mp hmem with rfl | hmem
        · exact le_rfl
        · exact hsorted.1 w hmem
      linarith

theorem perm_groupIntoRows (words : List Word) : (groupIntoRows words).flatten.Perm words := by
  refine List.Perm.trans ?_ (perm_sortByTop words)
  unfold groupIntoRows
  split
  · next h => rw [h]; exact .nil
  · next word rest h => rw [h]; exact perm_groupRows

theorem pairwise_of_mem_rows (hrow : row ∈ groupIntoRows words) :
    row.Pairwise fun v w => v.x0 ≤ w.x0 := by
  unfold groupIntoRows at hrow
  split at hrow
  · exact absurd hrow List.not_mem_nil
  · exact pairwise_of_mem_groupRows hrow

theorem groupIntoRows_above (words : List Word) : (groupIntoRows words).Pairwise Above := by
  have hsorted := pairwise_sortByTop words
  unfold groupIntoRows
  split
  · exact List.Pairwise.nil
  · next word rest h =>
    rw [h, List.pairwise_cons] at hsorted
    refine groupRows_above (fun w hw => ?_) hsorted.1 hsorted.2
    obtain rfl := List.mem_singleton.mp hw
    rw [le_add_iff_nonneg_right]
    decide

end Rows

section Columns

variable {rows : List (List Word)} {boundaries : List ℚ} {segment : List Word}

def pageSegments (rows : List (List Word)) : List (List Word) :=
  rows.flatMap rowSegments

theorem flatten_pageSegments (rows : List (List Word)) :
    (pageSegments rows).flatten = rows.flatten := by
  induction rows with
  | nil => rfl
  | cons row rows ih =>
    rw [pageSegments, List.flatMap_cons, List.flatten_append, List.flatten_cons, rowSegments,
      List.flatten_splitBy]
    exact congrArg (row ++ ·) ih

/-- The columns that segments are put into, from left to right. -/
def usedColumns (rows : List (List Word)) (boundaries : List ℚ) : List Nat :=
  ((group (segmentColumn boundaries) joinWords (pageSegments rows)).map Prod.fst).insertionSort
    (· ≤ ·)

def columnSegments (rows : List (List Word)) (boundaries : List ℚ) (column : Nat) :
    List (List Word) :=
  (pageSegments rows).filter (segmentColumn boundaries · = column)

theorem usedColumns_nodup : (usedColumns rows boundaries).Nodup :=
  (List.perm_insertionSort _ _).nodup_iff.mpr nodup_keys

theorem usedColumns_increasing : (usedColumns rows boundaries).Pairwise (· < ·) := by
  have hle : (usedColumns rows boundaries).Pairwise (· ≤ ·) := List.pairwise_insertionSort _ _
  exact (hle.and usedColumns_nodup).imp fun h => lt_of_le_of_ne h.1 h.2

theorem mem_usedColumns (hsegment : segment ∈ pageSegments rows) :
    segmentColumn boundaries segment ∈ usedColumns rows boundaries :=
  (List.mem_insertionSort _).mpr (mem_keys.mpr ⟨segment, hsegment, rfl⟩)

theorem joinRowsByColumn_eq : joinRowsByColumn rows boundaries =
    "\n\n".intercalate ((usedColumns rows boundaries).map fun column =>
      "\n".intercalate ((columnSegments rows boundaries column).map joinWords)) := by
  unfold joinRowsByColumn usedColumns columnSegments
  simp only [lookup_group, pageSegments]

theorem perm_columnSegments :
    ((usedColumns rows boundaries).map (columnSegments rows boundaries)).flatten.Perm
      (pageSegments rows) := by
  rw [← List.flatMap_def]
  exact perm_flatMap_filter usedColumns_nodup fun segment hsegment => mem_usedColumns hsegment

/-- Some boundary has the segments of the first column to its left, and those of
the second to its right. -/
def Divided (boundaries : List ℚ) (left right : List (List Word)) : Prop :=
  ∃ boundary ∈ boundaries,
    (∀ segment ∈ left, ∀ first ∈ segment.head?, first.x0 < boundary) ∧
      ∀ segment ∈ right, ∀ first ∈ segment.head?, boundary ≤ first.x0

theorem segmentColumn_eq {first : Word} (hfirst : first ∈ segment.head?) :
    segmentColumn boundaries segment = columnIndex first.x0 boundaries := by
  obtain ⟨rest, rfl⟩ := List.head?_eq_some_iff.mp hfirst
  rfl

theorem segmentColumn_le : segmentColumn boundaries segment ≤ boundaries.length := by
  cases segment with
  | nil => exact Nat.zero_le _
  | cons first rest => exact List.findIdx_le_length

/-- The boundary between two columns is the one that the left column ends at. -/
theorem divided {left right : Nat} (hlt : left < right)
    (hright : right ∈ usedColumns rows boundaries) :
    Divided boundaries (columnSegments rows boundaries left)
      (columnSegments rows boundaries right) := by
  obtain ⟨segment, -, rfl⟩ := mem_keys.mp ((List.mem_insertionSort _).mp hright)
  have hleft : left < boundaries.length := hlt.trans_le segmentColumn_le
  refine ⟨boundaries.get ⟨left, hleft⟩, List.get_mem _ _, fun s hs first hfirst => ?_,
    fun s hs first hfirst => ?_⟩
  · have hcolumn : columnIndex first.x0 boundaries = left := by
      rw [← segmentColumn_eq hfirst]
      exact of_decide_eq_true (List.mem_filter.mp hs).2
    subst hcolumn
    exact of_decide_eq_true (List.findIdx_getElem (w := hleft))
  · have hcolumn : columnIndex first.x0 boundaries = segmentColumn boundaries segment := by
      rw [← segmentColumn_eq hfirst]
      exact of_decide_eq_true (List.mem_filter.mp hs).2
    rw [← hcolumn] at hlt
    exact not_lt.mp (of_decide_eq_false (List.not_of_lt_findIdx hlt))

theorem columns_divided :
    ((usedColumns rows boundaries).map (columnSegments rows boundaries)).Pairwise
      (Divided boundaries) := by
  rw [List.pairwise_map]
  exact usedColumns_increasing.imp_of_mem fun _ hright hlt => divided hlt hright

/-- The segments of a page, column by column. -/
def pageColumns (words : List Word) : List (List (List Word)) :=
  let rows := groupIntoRows words
  let boundaries := findColumnBoundaries rows
  if boundaries.isEmpty then [pageSegments rows]
  else (usedColumns rows boundaries).map (columnSegments rows boundaries)

/-- The lines of the text: the rows of a page that is read row by row, and the
segments otherwise. -/
def pageLines (words : List Word) : List (List (List Word)) :=
  if (findColumnBoundaries (groupIntoRows words)).isEmpty then [groupIntoRows words]
  else pageColumns words

/-- The text of a page has these lines in each column. -/
structure Reading (words : List Word) (lines columns : List (List (List Word))) : Prop where
  text : extractPageText words =
    "\n\n".intercalate (lines.map fun column => "\n".intercalate (column.map joinWords))
  /-- Column by column, the lines are the segments in their order. -/
  lines_eq : lines.map List.flatten = columns.map List.flatten
  words_perm : columns.flatten.flatten.Perm words
  segments_perm : columns.flatten.Perm (pageSegments (groupIntoRows words))
  by_x0 : ∀ segment ∈ pageSegments (groupIntoRows words),
    segment.Pairwise fun v w => v.x0 ≤ w.x0
  rows_above : (groupIntoRows words).Pairwise Above
  in_row_order : ∀ column ∈ columns, column.Sublist (pageSegments (groupIntoRows words))
  left_to_right : columns.Pairwise (Divided (findColumnBoundaries (groupIntoRows words)))

variable {words : List Word}

theorem by_x0_of_mem (hsegment : segment ∈ pageSegments (groupIntoRows words)) :
    segment.Pairwise fun v w => v.x0 ≤ w.x0 := by
  obtain ⟨row, hrow, hsegment⟩ := List.mem_flatMap.mp hsegment
  have hsub : segment.Sublist row := by
    have h := List.sublist_flatten_of_mem hsegment
    rwa [rowSegments, List.flatten_splitBy] at h
  exact (pairwise_of_mem_rows hrow).sublist hsub

/-- A page without boundaries is one column, whose lines are the rows. -/
theorem reading_of_no_boundaries (h : findColumnBoundaries (groupIntoRows words) = []) :
    Reading words [groupIntoRows words] [pageSegments (groupIntoRows words)] where
  text := by
    have htext : extractPageText words = joinRowsInReadingOrder (groupIntoRows words) := by
      simp only [extractPageText, h, List.isEmpty_nil, if_true]
      split
      · next hempty => rw [List.isEmpty_iff.mp hempty]; rfl
      · rfl
    rw [htext]
    rfl
  lines_eq := by rw [List.map_singleton, List.map_singleton, flatten_pageSegments]
  words_perm := by
    rw [List.flatten_singleton, flatten_pageSegments]
    exact perm_groupIntoRows words
  segments_perm := by rw [List.flatten_singleton]
  by_x0 _ := by_x0_of_mem
  rows_above := groupIntoRows_above words
  in_row_order column hcolumn := by
    obtain rfl := List.mem_singleton.mp hcolumn
    exact List.Sublist.refl _
  left_to_right := List.pairwise_singleton _ _

theorem reading_of_boundaries (h : findColumnBoundaries (groupIntoRows words) ≠ [])
    {columns : List (List (List Word))}
    (hcolumns : columns =
      (usedColumns (groupIntoRows words) (findColumnBoundaries (groupIntoRows words))).map
        (columnSegments (groupIntoRows words) (findColumnBoundaries (groupIntoRows words)))) :
    Reading words columns columns where
  text := by
    have hrows : groupIntoRows words ≠ [] := fun hrows => h (by rw [hrows]; rfl)
    rw [extractPageText, if_neg (by simpa using hrows), if_neg (by simpa using h),
      joinRowsByColumn_eq, hcolumns, List.map_map]
    rfl
  lines_eq := rfl
  words_perm := by
    rw [hcolumns]
    refine (perm_columnSegments.flatten).trans ?_
    rw [flatten_pageSegments]
    exact perm_groupIntoRows words
  segments_perm := hcolumns ▸ perm_columnSegments
  by_x0 _ := by_x0_of_mem
  rows_above := groupIntoRows_above words
  in_row_order column hcolumn := by
    rw [hcolumns] at hcolumn
    obtain ⟨index, -, rfl⟩ := List.mem_map.mp hcolumn
    exact List.filter_sublist
  left_to_right := hcolumns ▸ columns_divided

theorem extractPageText_reading (words : List Word) :
    Reading words (pageLines words) (pageColumns words) := by
  by_cases h : findColumnBoundaries (groupIntoRows words) = []
  · rw [pageLines, pageColumns, h]
    exact reading_of_no_boundaries h
  · have hne : ¬ (findColumnBoundaries (groupIntoRows words)).isEmpty = true := by simpa using h
    rw [pageLines, if_neg hne]
    exact reading_of_boundaries h (if_neg hne)

end Columns

end RecruFlow.Cv
