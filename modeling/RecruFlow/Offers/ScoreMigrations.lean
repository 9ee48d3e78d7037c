import RecruFlow.Lib.Newest
import RecruFlow.Offers.ListOffers

/-!
# The data migrations of the match scores

One migration replaced letter grades by percentages and can be reverted. A later one deleted
the rows of a race, all but the newest one that an offer has for a profile: the scores that
the offers are listed with stay the same, and no longer depend on the order of ties.
-/

namespace RecruFlow.Offers

open Db Lib.Newest Lib.Paging

/-! ## Grades and percentages -/

/-- A row of `match_scores` with the column that was replaced. -/
structure GradedRow (σ : Type) where
  id : Nat
  offerId : Nat
  profileId : Nat
  score : σ
  createdAt : Int
  deriving DecidableEq

/-- The `CASE` of the upgrade. -/
def percentOf (grade : String) : Int :=
  if grade = "A" then 92
  else if grade = "B" then 77
  else if grade = "C" then 62
  else if grade = "D" then 47
  else 20

/-- The `CASE` of the downgrade. -/
def gradeOf (percent : Int) : String :=
  if 85 ≤ percent then "A"
  else if 70 ≤ percent then "B"
  else if 55 ≤ percent then "C"
  else if 40 ≤ percent then "D"
  else "F"

def upgradeGrades (rows : List (GradedRow String)) : List (GradedRow Int) :=
  rows.map fun row => { row with score := percentOf row.score }

def downgradeGrades (rows : List (GradedRow Int)) : List (GradedRow String) :=
  rows.map fun row => { row with score := gradeOf row.score }

/-! ## The rows of a race -/

/-- A score with its primary key. -/
structure StoredScore extends ScoreRow where
  id : Nat
  deriving DecidableEq

def StoredScore.pair (row : StoredScore) : Nat × Nat :=
  (row.offerId, row.profileId)

/-- `DELETE FROM match_scores a USING match_scores b` -/
def dedupeScores (rows : List StoredScore) : List StoredScore :=
  rows.filter fun a => ¬ ∃ b ∈ rows,
    a.offerId = b.offerId ∧ a.profileId = b.profileId ∧ a.id < b.id

def scoreRows (rows : List StoredScore) : List ScoreRow :=
  rows.map (·.toScoreRow)

/-- Of the scores of one offer and profile, later rows were not created earlier. -/
def CreatedInOrder (rows : List StoredScore) : Prop :=
  ∀ a ∈ rows, ∀ b ∈ rows, a.pair = b.pair → a.id ≤ b.id → a.createdAt ≤ b.createdAt

/-- What the migration leaves of the scores. -/
structure Deduped (db : Database) (rows after : List StoredScore) : Prop where
  sublist : after.Sublist rows
  one : (after.map (·.pair)).Nodup
  kept : ∀ row ∈ rows, ∃ newest ∈ after, newest.pair = row.pair
  /-- The latest score of an offer is one that was its latest, or one of them in a tie. -/
  latest : ∀ offerId percent, IsLatest db (scoreRows after) offerId percent →
    IsLatest db (scoreRows rows) offerId percent
  /-- Without ties no listing has changed. -/
  listed : ∀ (rank rank' : List ScoreRow → List ScoreRow) ilike params,
    ListingTables db (scoreRows rows) → (∀ rows, Permitted LaterFirst rows (rank rows)) →
      (∀ rows, Permitted LaterFirst rows (rank' rows)) →
        selectOffers rank ilike db (scoreRows after) params =
          selectOffers rank' ilike db (scoreRows rows) params
  /-- Afterwards there are no ties, if the keys of the other tables hold. -/
  tables : (db.offers.map (·.id)).Nodup → (db.sources.map (·.id)).Nodup →
    (∀ row ∈ db.offers, ∃ source ∈ db.sources, source.id = row.offer.sourceId) →
      ListingTables db (scoreRows after)

/-- What replacing the grades keeps: they come back, and no row overtakes another one. -/
structure GradesKept : Prop where
  restored : ∀ rows : List (GradedRow String),
    (∀ row ∈ rows, row.score ∈ ["A", "B", "C", "D", "F"]) →
      downgradeGrades (upgradeGrades rows) = rows
  settled : ∀ rows : List (GradedRow Int),
    downgradeGrades (upgradeGrades (downgradeGrades rows)) = downgradeGrades rows
  ordered : ∀ percent percent', percent ≤ percent' →
    percentOf (gradeOf percent) ≤ percentOf (gradeOf percent')

variable {db : Database} {rows : List StoredScore} {percent percent' : Int} {grade : String}

/-! ## The grades -/

theorem gradeOf_percentOf (h : grade ∈ ["A", "B", "C", "D", "F"]) :
    gradeOf (percentOf grade) = grade := by
  simp only [List.mem_cons, List.not_mem_nil, or_false] at h
  rcases h with rfl | rfl | rfl | rfl | rfl <;> decide

theorem gradeOf_mem (percent : Int) : gradeOf percent ∈ ["A", "B", "C", "D", "F"] := by
  unfold gradeOf
  split_ifs <;> decide

theorem percentOf_gradeOf_mono (h : percent ≤ percent') :
    percentOf (gradeOf percent) ≤ percentOf (gradeOf percent') := by
  have hvalue : ∀ percent, percentOf (gradeOf percent) =
      if 85 ≤ percent then 92 else if 70 ≤ percent then 77 else if 55 ≤ percent then 62
        else if 40 ≤ percent then 47 else 20 := by
    intro percent
    unfold gradeOf
    split_ifs <;> decide
  rw [hvalue, hvalue]
  split_ifs <;> omega

/-- The grades come back, and percentages keep their order. -/
theorem gradesKept : GradesKept := by
  refine ⟨?_, ?_, fun _ _ => percentOf_gradeOf_mono⟩
  · intro rows hrows
    rw [downgradeGrades, upgradeGrades, List.map_map]
    calc rows.map _ = rows.map id := by
          apply List.map_congr_left
          intro row hrow
          show { row with score := gradeOf (percentOf row.score) } = row
          rw [gradeOf_percentOf (hrows row hrow)]
      _ = rows := List.map_id rows
  · intro rows
    rw [downgradeGrades, upgradeGrades, downgradeGrades, List.map_map, List.map_map]
    apply List.map_congr_left
    intro row _
    show ({ row with score := gradeOf (percentOf (gradeOf row.score)) } : GradedRow String) = _
    rw [gradeOf_percentOf (gradeOf_mem row.score)]

/-! ## The newest rows -/

theorem dedupeScores_eq : dedupeScores rows = newest (·.pair) (·.id) rows := by
  unfold dedupeScores newest
  apply List.filter_congr
  intro a _
  apply decide_eq_decide.mpr
  simp only [StoredScore.pair, Prod.mk.injEq, and_assoc]
  constructor
  · rintro h ⟨b, hb, hoffer, hprofile, hid⟩
    exact h ⟨b, hb, hoffer.symm, hprofile.symm, hid⟩
  · rintro h ⟨b, hb, hoffer, hprofile, hid⟩
    exact h ⟨b, hb, hoffer.symm, hprofile.symm, hid⟩

theorem mem_scoreRows {score : ScoreRow} :
    score ∈ scoreRows rows ↔ ∃ row ∈ rows, row.toScoreRow = score :=
  List.mem_map

/-- A newest row was created last. -/
theorem createdAt_le_newest (horder : CreatedInOrder rows) {a b : StoredScore}
    (ha : a ∈ dedupeScores rows) (hb : b ∈ rows) (hpair : b.pair = a.pair) :
    b.createdAt ≤ a.createdAt := by
  rw [dedupeScores_eq] at ha
  obtain ⟨hrows, hnewest⟩ := mem_newest.mp ha
  exact horder b hb a hrows hpair (hnewest b hb hpair)

theorem isLatest_dedupeScores (horder : CreatedInOrder rows) {offerId : Nat}
    {percent : Option ScorePercent}
    (h : IsLatest db (scoreRows (dedupeScores rows)) offerId percent) :
    IsLatest db (scoreRows rows) offerId percent := by
  cases percent with
  | none =>
      intro score hscore hoffer profile hprofile hown
      obtain ⟨row, hrow, rfl⟩ := mem_scoreRows.mp hscore
      obtain ⟨kept, hkept, hpair⟩ := @exists_newest _ _ _ _ _ (·.pair) (·.id) rows row hrow
      obtain ⟨hsameOffer, hsameProfile⟩ := Prod.mk.inj hpair
      rw [← dedupeScores_eq] at hkept
      exact h kept.toScoreRow (mem_scoreRows.mpr ⟨kept, hkept, rfl⟩) (hsameOffer.trans hoffer)
        profile hprofile (hsameProfile.trans hown)
  | some percent =>
      obtain ⟨score, hscore, hoffer, hown, hpercent, -⟩ := h
      obtain ⟨row, hrow, rfl⟩ := mem_scoreRows.mp hscore
      have hsub : row ∈ rows := List.filter_sublist.subset hrow
      refine ⟨row.toScoreRow, mem_scoreRows.mpr ⟨row, hsub, rfl⟩, hoffer, hown, hpercent, ?_⟩
      intro other hother hotherOffer hotherProfile
      obtain ⟨stored, hstored, rfl⟩ := mem_scoreRows.mp hother
      exact createdAt_le_newest horder hrow hstored
        (Prod.ext (hotherOffer.trans hoffer.symm) hotherProfile)

/-- Rows of different pairs are never in a tie. -/
theorem listingTables_of_nodup (hpairs : (rows.map (·.pair)).Nodup)
    (hoffers : (db.offers.map (·.id)).Nodup) (hsources : (db.sources.map (·.id)).Nodup)
    (hsource : ∀ row ∈ db.offers, ∃ source ∈ db.sources, source.id = row.offer.sourceId) :
    ListingTables db (scoreRows rows) := by
  refine ⟨hoffers, hsources, hsource, ?_⟩
  rw [scoreRows, List.pairwise_map]
  rw [List.Nodup, List.pairwise_map] at hpairs
  exact hpairs.imp fun hne hoffer hprofile => absurd (Prod.ext hoffer hprofile) hne

/-- The migrations keep what the scores mean: grades come back from the percentages, and
deleting the rows of a race leaves every offer its latest score. -/
theorem migrations_keep_scores (hids : (rows.map (·.id)).Nodup) (horder : CreatedInOrder rows) :
    Deduped db rows (dedupeScores rows) ∧ GradesKept := by
  refine ⟨?_, gradesKept⟩
  have hone : ((dedupeScores rows).map (·.pair)).Nodup := by
    rw [dedupeScores_eq]
    exact nodup_newest_keys hids
  refine ⟨List.filter_sublist, hone, ?_, fun _ _ => isLatest_dedupeScores horder, ?_,
    listingTables_of_nodup hone⟩
  · intro row hrow
    rw [dedupeScores_eq]
    exact exists_newest hrow
  · intro rank rank' ilike params htables hrank hrank'
    have hafter : ListingTables db (scoreRows (dedupeScores rows)) :=
      listingTables_of_nodup hone htables.offer_ids htables.source_ids htables.source_id
    unfold selectOffers joinTables
    congr 1
    apply List.flatMap_congr
    intro offer _
    apply List.flatMap_congr
    intro source _
    obtain ⟨percent, hjoin, hlatest⟩ := joinScores_eq hafter hrank offer source
    obtain ⟨percent', hjoin', hlatest'⟩ := joinScores_eq htables hrank' offer source
    obtain rfl := (isLatest_dedupeScores horder hlatest).eq htables hlatest'
    rw [hjoin, hjoin']

/-! ## Two scores of a race -/

def raced : List StoredScore :=
  (scoredTwice.2.zip [4, 9]).map fun scored => ⟨scored.1, scored.2⟩

theorem migrations_keep_scores_raced :
    (dedupeScores raced).map (fun row => (row.id, row.scorePercent)) = [(9, 70)] ∧
      Deduped scoredTwice.1 raced (dedupeScores raced) ∧ GradesKept := by
  have horder : CreatedInOrder raced := by
    unfold CreatedInOrder
    decide
  exact ⟨by decide, migrations_keep_scores (by decide) horder⟩

end RecruFlow.Offers
