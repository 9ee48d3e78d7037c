import Mathlib.Algebra.Order.Field.Rat
import RecruFlow.Lib.Clusters
import RecruFlow.Lib.Grouping

/-!
# The text of a page of a CV

The words of a page are put into rows by their vertical position. Gaps that
recur at about the same horizontal position are column gutters; a page that has
them is read column by column, any other page row by row.
-/

namespace RecruFlow.Cv

structure Word where
  text : String
  x0 : ℚ
  x1 : ℚ
  top : ℚ
  deriving DecidableEq

def columnGapThreshold : ℚ := 10
def rowTopTolerance : ℚ := 3
def columnClusterTolerance : ℚ := 12
def minRowsForColumn : Nat := 3

def sortByTop (words : List Word) : List Word :=
  words.insertionSort fun v w => v.top ≤ w.top

def sortByX0 (words : List Word) : List Word :=
  words.insertionSort fun v w => v.x0 ≤ w.x0

/-- The loop over the words, in a row that starts at `currentTop`. -/
def groupRows (currentTop : ℚ) : (current : List Word) → List Word → List (List Word)
  | current, [] => [sortByX0 current]
  | current, word :: words =>
      if |word.top - currentTop| ≤ rowTopTolerance then
        groupRows currentTop (current ++ [word]) words
      else sortByX0 current :: groupRows word.top [word] words

def groupIntoRows (words : List Word) : List (List Word) :=
  match sortByTop words with
  | [] => []
  | word :: words => groupRows word.top [word] words

/-- There is a wide gap between two neighbours of a row. -/
def gapBetween (previous word : Word) : Bool :=
  columnGapThreshold ≤ word.x0 - previous.x1

/-- A row, cut at its gaps. -/
def rowSegments (row : List Word) : List (List Word) :=
  row.splitBy fun previous word => !gapBetween previous word

/-- Where the words after the gaps of a row start. -/
def gapStarts (row : List Word) : List ℚ :=
  ((row.zip row.tail).filter fun pair => gapBetween pair.1 pair.2).map fun pair => pair.2.x0

def columnStarts (rows : List (List Word)) : List ℚ :=
  (rows.flatMap gapStarts).insertionSort (· ≤ ·)

/-- A start joins the cluster of the one before it if it is close to it. -/
def columnClusters (rows : List (List Word)) : List (List ℚ) :=
  Lib.Clusters.clusters columnClusterTolerance (columnStarts rows)

/-- The clusters that make a boundary. -/
def keptClusters (rows : List (List Word)) : List (List ℚ) :=
  (columnClusters rows).filter fun cluster => minRowsForColumn ≤ cluster.length

def findColumnBoundaries (rows : List (List Word)) : List ℚ :=
  ((keptClusters rows).map Lib.Clusters.average).insertionSort (· ≤ ·)

def columnIndex (x : ℚ) (boundaries : List ℚ) : Nat :=
  boundaries.findIdx (x < ·)

def joinWords (words : List Word) : String :=
  " ".intercalate (words.map Word.text)

def joinRowsInReadingOrder (rows : List (List Word)) : String :=
  "\n".intercalate (rows.map joinWords)

/-- The column of a segment, by its first word; no segment is empty. -/
def segmentColumn (boundaries : List ℚ) : (segment : List Word) → Nat
  | [] => 0
  | first :: _ => columnIndex first.x0 boundaries

def joinRowsByColumn (rows : List (List Word)) (boundaries : List ℚ) : String :=
  let columns :=
    Lib.Grouping.group (segmentColumn boundaries) joinWords (rows.flatMap rowSegments)
  let indexes := (columns.map Prod.fst).insertionSort (· ≤ ·)
  "\n\n".intercalate
    (indexes.map fun index => "\n".intercalate ((columns.lookup index).getD []))

/-- `_extract_page_text` of a page with these words -/
def extractPageText (words : List Word) : String :=
  let rows := groupIntoRows words
  if rows.isEmpty then ""
  else
    let boundaries := findColumnBoundaries rows
    if boundaries.isEmpty then joinRowsInReadingOrder rows
    else joinRowsByColumn rows boundaries

end RecruFlow.Cv
