import RecruFlow.Db.Models
import RecruFlow.Lib.Paging
import Mathlib.Data.List.Pairwise

/-!
# Listing the offers

`GET /offers` joins each offer with its source and with the latest score of the
active profile, filters the rows, and orders them by a list of columns that ends
with the primary key. What the database makes of ties, in the window function
and in the result, is a parameter.
-/

namespace RecruFlow.Offers

open Db Lib.Paging

/-- A row of `match_scores` with its `created_at`; the scores that are stored
have passed the bounds of the schema. -/
structure ScoreRow extends MatchScore where
  createdAt : Int
  scorePercent_le : scorePercent ≤ 100
  deriving DecidableEq

abbrev ScorePercent : Type := { percent : Nat // percent ≤ 100 }

def ScoreRow.percent (row : ScoreRow) : ScorePercent :=
  ⟨row.scorePercent, row.scorePercent_le⟩

inductive OrderBy where
  | postedAt
  | scorePercent
  deriving DecidableEq

inductive Direction where
  | asc
  | desc
  deriving DecidableEq

structure ListParams where
  source : Option String := none
  remote : Option Bool := none
  seniority : Option String := none
  minSalary : Option Nat := none
  minScore : Option ScorePercent := none
  applied : Option Bool := none
  showHidden : Bool := false
  orderBy : OrderBy := .postedAt
  order : Direction := .desc

/-- A row of the joined tables. -/
structure Listed where
  offer : OfferRow
  source : Source
  scorePercent : Option ScorePercent
  deriving DecidableEq

def noActiveProfileId : Int := -1

def activeProfileId (db : Database) : Int :=
  ((db.profiles.find? (·.isActive)).map fun profile => (profile.id : Int)).getD noActiveProfileId

section Query

-- the order of the rows of a window partition
variable (rank : List ScoreRow → List ScoreRow)

/-- `row_number()` of a row of a partition. -/
def rowNumber (partition : List ScoreRow) (row : ScoreRow) : Nat :=
  (rank partition).idxOf row + 1

/-- The rows of `ranked_scores` whose row number is 1. -/
def latestScore (profileId : Int) (scores : List ScoreRow) : List ScoreRow :=
  let own := scores.filter fun row => (row.profileId : Int) = profileId
  own.filter fun row => rowNumber rank (own.filter (·.offerId = row.offerId)) row = 1

/-- The outer join of an offer with the latest scores. -/
def joinScores (latest : List ScoreRow) (offer : OfferRow) (source : Source) : List Listed :=
  match latest.filter (·.offerId = offer.id) with
  | [] => [⟨offer, source, none⟩]
  | scores => scores.map fun row => ⟨offer, source, some row.percent⟩

def joinTables (db : Database) (scores : List ScoreRow) : List Listed :=
  let latest := latestScore rank (activeProfileId db) scores
  db.offers.flatMap fun offer =>
    (db.sources.filter (·.id = offer.offer.sourceId)).flatMap (joinScores latest offer)

/-- The `WHERE` clause; `ilike value s` is `value ILIKE '%s%'`. -/
def whereClause (ilike : String → String → Bool) (params : ListParams) (row : Listed) : Bool :=
  params.source.all (row.source.connector = some ·) &&
    params.remote.all (row.offer.offer.remote = ·) &&
    params.seniority.all (fun s => row.offer.offer.seniority.any (ilike · s)) &&
    params.minSalary.all (fun low =>
      row.offer.offer.salaryMax.any (low ≤ ·) ||
        (row.offer.offer.salaryMax.isNone && row.offer.offer.salaryMin.any (low ≤ ·))) &&
    params.minScore.all (fun low => row.scorePercent.any (low ≤ ·)) &&
    params.applied.all (row.offer.applied = ·) &&
    (params.showHidden || !row.offer.hide)

def selectOffers (ilike : String → String → Bool) (db : Database) (scores : List ScoreRow)
    (params : ListParams) : List Listed :=
  (joinTables rank db scores).filter (whereClause ilike params)

end Query

section Order

def compareBy : Direction → Int → Int → Ordering
  | .asc, a, b => compare a b
  | .desc, a, b => compare b a

/-- A column in a direction, `NULLS LAST`. -/
def nullsLast (direction : Direction) : Option Int → Option Int → Ordering
  | some a, some b => compareBy direction a b
  | some _, none => .lt
  | none, some _ => .gt
  | none, none => .eq

def Listed.postedAt (row : Listed) : Option Int :=
  row.offer.offer.postedAt.map (·.micros)

def Listed.score (row : Listed) : Option Int :=
  row.scorePercent.map fun percent => (percent.val : Int)

/-- The `ORDER BY` of a request. -/
def orderClauses (params : ListParams) (a b : Listed) : Ordering :=
  match params.orderBy with
  | .scorePercent =>
      (nullsLast params.order a.score b.score).then
        ((nullsLast .desc a.postedAt b.postedAt).then
          ((compareBy .desc a.offer.createdAt b.offer.createdAt).then
            (compareBy .desc a.offer.id b.offer.id)))
  | .postedAt =>
      (nullsLast params.order a.postedAt b.postedAt).then
        ((compareBy .desc a.offer.createdAt b.offer.createdAt).then
          (compareBy .desc a.offer.id b.offer.id))

/-- A row may come before another one. -/
def Before (params : ListParams) (a b : Listed) : Prop :=
  (orderClauses params a b).isLE = true

end Order

/-- The columns of the offer that a summary has are those of its row. -/
structure OfferSummary where
  offer : OfferRow
  source : String
  scorePercent : Option ScorePercent
  deriving DecidableEq

/-- `_offer_summary` with the label `connector or name`. -/
def offerSummary (row : Listed) : OfferSummary where
  offer := row.offer
  source := (row.source.connector.filter (· ≠ "")).getD row.source.name
  scorePercent := row.scorePercent

/-- What the database does where the queries of a request leave it open. -/
structure Choices where
  countRank : List ScoreRow → List ScoreRow
  pageRank : List ScoreRow → List ScoreRow
  arrange : List Listed → List Listed

structure OfferListResponse where
  items : List OfferSummary
  total : Nat
  deriving DecidableEq

def listOffers (ilike : String → String → Bool) (choices : Choices) (db : Database)
    (scores : List ScoreRow) (params : ListParams) (limit offset : Nat) : OfferListResponse :=
  let total := (selectOffers choices.countRank ilike db scores params).length
  let rows := choices.arrange (selectOffers choices.pageRank ilike db scores params)
  ⟨((rows.drop offset).take limit).map offerSummary, total⟩

/-! ## What a request asks for -/

/-- The latest score of the active profile for an offer. -/
def IsLatest (db : Database) (scores : List ScoreRow) (offerId : Nat) :
    Option ScorePercent → Prop
  | some percent => ∃ row ∈ scores, row.offerId = offerId ∧
      (∃ profile ∈ db.profiles.find? (·.isActive), row.profileId = profile.id) ∧
      row.percent = percent ∧ ∀ other ∈ scores, other.offerId = offerId →
        other.profileId = row.profileId → other.createdAt ≤ row.createdAt
  | none => ∀ row ∈ scores, row.offerId = offerId →
      ∀ profile ∈ db.profiles.find? (·.isActive), row.profileId ≠ profile.id

/-- The filters of a request. -/
structure Satisfies (ilike : String → String → Bool) (params : ListParams) (row : Listed) :
    Prop where
  source : ∀ connector ∈ params.source, row.source.connector = some connector
  remote : ∀ remote ∈ params.remote, row.offer.offer.remote = remote
  seniority : ∀ s ∈ params.seniority, ∃ v ∈ row.offer.offer.seniority, ilike v s = true
  min_salary : ∀ low ∈ params.minSalary, (∃ high ∈ row.offer.offer.salaryMax, low ≤ high) ∨
    row.offer.offer.salaryMax = none ∧ ∃ v ∈ row.offer.offer.salaryMin, low ≤ v
  min_score : ∀ low ∈ params.minScore, ∃ percent ∈ row.scorePercent, low ≤ percent
  applied : ∀ applied ∈ params.applied, row.offer.applied = applied
  hide : params.showHidden = true ∨ row.offer.hide = false

/-- The order of two values in a direction, a missing one last. -/
def InOrder (direction : Direction) : Option Int → Option Int → Prop
  | _, none => True
  | none, some _ => False
  | some a, some b => match direction with
    | .asc => a ≤ b
    | .desc => b ≤ a

def Listed.sortKey (params : ListParams) (row : Listed) : Option Int :=
  match params.orderBy with
  | .scorePercent => row.score
  | .postedAt => row.postedAt

/-- A row of the joined tables that a request asks for. -/
structure Wanted (ilike : String → String → Bool) (db : Database) (scores : List ScoreRow)
    (params : ListParams) (row : Listed) : Prop where
  offer : row.offer ∈ db.offers
  source : row.source ∈ db.sources
  source_id : row.source.id = row.offer.offer.sourceId
  score : IsLatest db scores row.offer.id row.scorePercent
  satisfies : Satisfies ilike params row

/-- The offers that a request asks for, once each and in its order. -/
structure ListsOnce (ilike : String → String → Bool) (db : Database) (scores : List ScoreRow)
    (params : ListParams) (rows : List Listed) : Prop where
  once : (rows.map (·.offer.id)).Nodup
  mem_iff : ∀ row, row ∈ rows ↔ Wanted ilike db scores params row
  ordered : rows.Pairwise fun a b =>
    InOrder params.order (a.sortKey params) (b.sortKey params)

/-- What the keys of the tables guarantee, and scores without ties. -/
structure ListingTables (db : Database) (scores : List ScoreRow) : Prop where
  offer_ids : (db.offers.map (·.id)).Nodup
  source_ids : (db.sources.map (·.id)).Nodup
  source_id : ∀ row ∈ db.offers, ∃ source ∈ db.sources, source.id = row.offer.sourceId
  created_at : scores.Pairwise fun a b =>
    a.offerId = b.offerId → a.profileId = b.profileId → a.createdAt ≠ b.createdAt

variable {ilike : String → String → Bool} {db : Database} {scores : List ScoreRow}
  {params : ListParams} {rank : List ScoreRow → List ScoreRow}

theorem whereClause_iff {row : Listed} :
    whereClause ilike params row = true ↔ Satisfies ilike params row := by
  simp only [whereClause, Bool.and_eq_true, Bool.or_eq_true, Option.all_eq_true,
    Option.any_eq_true, Option.isNone_iff_eq_none, decide_eq_true_eq, Bool.not_eq_true']
  constructor
  · intro h
    obtain ⟨⟨⟨⟨⟨⟨hsource, hremote⟩, hseniority⟩, hsalary⟩, hscore⟩, happlied⟩, hhide⟩ := h
    exact ⟨hsource, hremote, hseniority, hsalary, hscore, happlied, hhide⟩
  · intro h
    exact ⟨⟨⟨⟨⟨⟨h.source, h.remote⟩, h.seniority⟩, h.min_salary⟩, h.min_score⟩, h.applied⟩, h.hide⟩

section Latest

/-- The orders of a partition that the window function permits. -/
def LaterFirst (a b : ScoreRow) : Prop :=
  b.createdAt ≤ a.createdAt

instance : DecidableRel LaterFirst := fun a b =>
  inferInstanceAs (Decidable (b.createdAt ≤ a.createdAt))

instance : IsTrans ScoreRow LaterFirst := ⟨fun _ _ _ hab hbc => le_trans hbc hab⟩

instance : Std.Total LaterFirst := ⟨fun _ b => le_total b.createdAt _⟩

def ownScores (db : Database) (scores : List ScoreRow) : List ScoreRow :=
  scores.filter fun row => (row.profileId : Int) = activeProfileId db

theorem activeProfileId_eq {profileId : Nat} : (profileId : Int) = activeProfileId db ↔
    ∃ profile ∈ db.profiles.find? (·.isActive), profileId = profile.id := by
  unfold activeProfileId
  cases db.profiles.find? (·.isActive) with
  | none =>
    simp only [Option.map_none, Option.getD_none, noActiveProfileId, Option.mem_def, reduceCtorEq,
      false_and, exists_false]
  | some profile => simp

variable (h : ListingTables db scores)

include h

/-- Scores of one offer and one profile have different times. -/
theorem eq_of_createdAt {a b : ScoreRow} (ha : a ∈ scores) (hb : b ∈ scores)
    (hoffer : a.offerId = b.offerId) (hprofile : a.profileId = b.profileId)
    (htime : a.createdAt = b.createdAt) : a = b := by
  by_contra hne
  have hsymm : Std.Symm fun a b : ScoreRow =>
      a.offerId = b.offerId → a.profileId = b.profileId → a.createdAt ≠ b.createdAt :=
    ⟨fun a b h ho hp => (h ho.symm hp.symm).symm⟩
  exact h.created_at.forall ha hb hne hoffer hprofile htime

omit h in
theorem mem_partition {row : ScoreRow} {offerId : Nat} :
    row ∈ (ownScores db scores).filter (·.offerId = offerId) ↔
      row ∈ scores ∧ (row.profileId : Int) = activeProfileId db ∧ row.offerId = offerId := by
  simp only [ownScores, List.mem_filter, decide_eq_true_eq, and_assoc]

theorem partition_nodup {offerId : Nat} :
    ((ownScores db scores).filter (·.offerId = offerId)).Nodup := by
  have hscores : scores.Nodup := h.created_at.imp fun htime heq => by
    subst heq
    exact htime rfl rfl rfl
  exact (hscores.filter _).filter _

omit h in
theorem latestScore_filter (offerId : Nat) :
    (latestScore rank (activeProfileId db) scores).filter (·.offerId = offerId) =
      ((ownScores db scores).filter (·.offerId = offerId)).filter fun row =>
        rowNumber rank ((ownScores db scores).filter (·.offerId = offerId)) row = 1 := by
  change List.filter _ (List.filter _ (ownScores db scores)) = _
  rw [List.filter_filter, List.filter_filter]
  refine List.filter_congr fun row _ => ?_
  by_cases hoffer : row.offerId = offerId
  · rw [hoffer, Bool.and_comm]
    rfl
  · simp [hoffer]

/-- The latest score of an offer, if it has one, is the only row that the
window function numbers 1. -/
theorem latestScore_cases (hrank : ∀ rows, Permitted LaterFirst rows (rank rows))
    (offerId : Nat) :
    (latestScore rank (activeProfileId db) scores).filter (·.offerId = offerId) = [] ∧
      IsLatest db scores offerId none ∨
    ∃ row, (latestScore rank (activeProfileId db) scores).filter (·.offerId = offerId) = [row] ∧
      IsLatest db scores offerId (some row.percent) := by
  rw [latestScore_filter]
  have hnodup := @partition_nodup _ _ h offerId
  have hranked := hrank ((ownScores db scores).filter (·.offerId = offerId))
  unfold rowNumber
  cases hrows : rank ((ownScores db scores).filter (·.offerId = offerId)) with
  | nil =>
    rw [hrows] at hranked
    have hnone := hranked.perm.nil_eq
    refine .inl ⟨by rw [← hnone]; rfl, fun row hrow hoffer profile hprofile heq => ?_⟩
    have hmem : row ∈ (ownScores db scores).filter (·.offerId = offerId) :=
      mem_partition.mpr ⟨hrow, activeProfileId_eq.mpr ⟨profile, hprofile, heq⟩, hoffer⟩
    rw [← hnone] at hmem
    exact absurd hmem List.not_mem_nil
  | cons first rest =>
    rw [hrows] at hranked
    have hfirst := hranked.perm.subset List.mem_cons_self
    obtain ⟨hscore, hown, hoffer⟩ := mem_partition.mp hfirst
    refine .inr ⟨first, ?_, first, hscore, hoffer, activeProfileId_eq.mp hown, rfl,
      fun other hother hoffer' hprofile' => ?_⟩
    · have hnumber : ∀ row, decide ((first :: rest).idxOf row + 1 = 1) = (row == first) := by
        intro row
        rw [List.idxOf_cons]
        by_cases heq : first = row
        · simp [heq]
        · rw [beq_eq_false_iff_ne.mpr heq, beq_eq_false_iff_ne.mpr (Ne.symm heq)]
          simp
      simp only [hnumber, List.filter_beq, hnodup.count, if_pos hfirst, List.replicate_one]
    · have hmem := mem_partition.mpr ⟨hother, hprofile' ▸ hown, hoffer'⟩
      rcases List.mem_cons.mp (hranked.perm.symm.subset hmem) with rfl | hlater
      · exact le_rfl
      · exact (List.pairwise_cons.mp hranked.ordered).1 other hlater

/-- An offer has one latest score at most. -/
theorem IsLatest.eq {offerId : Nat} {percent percent' : Option ScorePercent}
    (hp : IsLatest db scores offerId percent) (hp' : IsLatest db scores offerId percent') :
    percent = percent' := by
  cases percent with
  | none =>
    cases percent' with
    | none => rfl
    | some percent' =>
      obtain ⟨row, hrow, hoffer, ⟨profile, hprofile, hown⟩, -⟩ := hp'
      exact absurd hown (hp row hrow hoffer profile hprofile)
  | some percent =>
    obtain ⟨row, hrow, hoffer, ⟨profile, hprofile, hown⟩, rfl, hlast⟩ := hp
    cases percent' with
    | none => exact absurd hown (hp' row hrow hoffer profile hprofile)
    | some percent' =>
      obtain ⟨row', hrow', hoffer', ⟨profile', hprofile', hown'⟩, rfl, hlast'⟩ := hp'
      have hsame : row.profileId = row'.profileId := by
        rw [hown, hown', Option.mem_unique hprofile hprofile']
      have heq : row = row' := eq_of_createdAt h hrow hrow' (hoffer.trans hoffer'.symm) hsame
        (le_antisymm (hlast' row hrow hoffer hsame) (hlast row' hrow' hoffer' hsame.symm))
      rw [heq]

/-- Without ties the window function is determined. -/
theorem latestScore_eq {rank' : List ScoreRow → List ScoreRow}
    (hrank : ∀ rows, Permitted LaterFirst rows (rank rows))
    (hrank' : ∀ rows, Permitted LaterFirst rows (rank' rows)) :
    latestScore rank (activeProfileId db) scores = latestScore rank' (activeProfileId db) scores := by
  refine List.filter_congr fun row _ => ?_
  have hpartition := (hrank ((ownScores db scores).filter (·.offerId = row.offerId))).eq
    (fun a ha b hb hab hba => by
      obtain ⟨ha, hown, hoffer⟩ := mem_partition.mp ha
      obtain ⟨hb, hown', hoffer'⟩ := mem_partition.mp hb
      exact eq_of_createdAt h ha hb (hoffer.trans hoffer'.symm)
        (Int.ofNat_inj.mp (hown.trans hown'.symm)) (le_antisymm hba hab))
    (hrank' _)
  change decide ((rank ((ownScores db scores).filter (·.offerId = row.offerId))).idxOf row + 1 = 1) =
    decide ((rank' ((ownScores db scores).filter (·.offerId = row.offerId))).idxOf row + 1 = 1)
  rw [hpartition]

end Latest

section Join

variable (h : ListingTables db scores) (hrank : ∀ rows, Permitted LaterFirst rows (rank rows))

include h hrank

theorem joinScores_eq (offer : OfferRow) (source : Source) :
    ∃ percent, joinScores (latestScore rank (activeProfileId db) scores) offer source =
      [⟨offer, source, percent⟩] ∧ IsLatest db scores offer.id percent := by
  unfold joinScores
  rcases latestScore_cases h hrank offer.id with ⟨hnone, hlatest⟩ | ⟨row, hrow, hlatest⟩
  · rw [hnone]
    exact ⟨none, rfl, hlatest⟩
  · rw [hrow]
    exact ⟨some row.percent, rfl, hlatest⟩

omit hrank in
theorem source_eq {offer : OfferRow} (hoffer : offer ∈ db.offers) :
    ∃ source ∈ db.sources, source.id = offer.offer.sourceId ∧
      db.sources.filter (·.id = offer.offer.sourceId) = [source] := by
  obtain ⟨source, hsource, hid⟩ := h.source_id offer hoffer
  refine ⟨source, hsource, hid, ?_⟩
  have hsame : ∀ other ∈ db.sources, decide (other.id = offer.offer.sourceId) = (other == source) := by
    intro other hother
    rw [← hid]
    by_cases heq : other = source
    · simp [heq]
    · rw [beq_eq_false_iff_ne.mpr heq]
      exact decide_eq_false fun hid => heq (List.inj_on_of_nodup_map h.source_ids hother hsource hid)
  rw [List.filter_congr hsame, List.filter_beq, (List.Nodup.of_map _ h.source_ids).count,
    if_pos hsource, List.replicate_one]

/-- The join has one row for each offer. -/
theorem joined_eq {offer : OfferRow} (hoffer : offer ∈ db.offers) :
    ∃ source percent, (db.sources.filter (·.id = offer.offer.sourceId)).flatMap
        (joinScores (latestScore rank (activeProfileId db) scores) offer) =
      [⟨offer, source, percent⟩] ∧ source ∈ db.sources ∧ source.id = offer.offer.sourceId ∧
      IsLatest db scores offer.id percent := by
  obtain ⟨source, hsource, hid, hfilter⟩ := source_eq h hoffer
  obtain ⟨percent, hjoin, hlatest⟩ := joinScores_eq h hrank offer source
  exact ⟨source, percent, by rw [hfilter, List.flatMap_singleton, hjoin], hsource, hid, hlatest⟩

theorem map_joinTables : (joinTables rank db scores).map (·.offer) = db.offers := by
  unfold joinTables
  rw [List.map_flatMap]
  calc _ = db.offers.flatMap fun offer => [offer] := by
        refine List.flatMap_congr fun offer hoffer => ?_
        obtain ⟨source, percent, hjoined, -⟩ := joined_eq h hrank hoffer
        rw [hjoined]
        rfl
    _ = db.offers := List.flatMap_singleton' _

theorem nodup_joinTables : ((joinTables rank db scores).map (·.offer.id)).Nodup := by
  have hids := h.offer_ids
  rwa [← map_joinTables h hrank, List.map_map] at hids

theorem mem_joinTables {row : Listed} : row ∈ joinTables rank db scores ↔
    row.offer ∈ db.offers ∧ row.source ∈ db.sources ∧
      row.source.id = row.offer.offer.sourceId ∧
      IsLatest db scores row.offer.id row.scorePercent := by
  unfold joinTables
  rw [List.mem_flatMap]
  constructor
  · intro hrow
    obtain ⟨offer, hoffer, hrow⟩ := hrow
    obtain ⟨source, percent, hjoined, hsource, hid, hlatest⟩ := joined_eq h hrank hoffer
    rw [hjoined] at hrow
    obtain rfl := List.mem_singleton.mp hrow
    exact ⟨hoffer, hsource, hid, hlatest⟩
  · intro hrow
    obtain ⟨hoffer, hsource, hid, hlatest⟩ := hrow
    obtain ⟨source, percent, hjoined, hsource', hid', hlatest'⟩ := joined_eq h hrank hoffer
    refine ⟨row.offer, hoffer, ?_⟩
    rw [hjoined, List.mem_singleton]
    have hsame : row.source = source :=
      List.inj_on_of_nodup_map h.source_ids hsource hsource' (hid.trans hid'.symm)
    have hpercent : row.scorePercent = percent := hlatest.eq h hlatest'
    rw [← hsame, ← hpercent]

theorem mem_selectOffers {row : Listed} :
    row ∈ selectOffers rank ilike db scores params ↔ Wanted ilike db scores params row := by
  rw [selectOffers, List.mem_filter, mem_joinTables h hrank, whereClause_iff]
  constructor
  · intro hrow
    obtain ⟨⟨hoffer, hsource, hid, hlatest⟩, hsatisfies⟩ := hrow
    exact ⟨hoffer, hsource, hid, hlatest, hsatisfies⟩
  · intro hrow
    exact ⟨⟨hrow.offer, hrow.source, hrow.source_id, hrow.score⟩, hrow.satisfies⟩

theorem selectOffers_eq {rank' : List ScoreRow → List ScoreRow}
    (hrank' : ∀ rows, Permitted LaterFirst rows (rank' rows)) :
    selectOffers rank ilike db scores params = selectOffers rank' ilike db scores params := by
  unfold selectOffers joinTables
  rw [latestScore_eq h hrank hrank']

theorem nodup_selectOffers :
    ((selectOffers rank ilike db scores params).map (·.offer.id)).Nodup :=
  (nodup_joinTables h hrank).sublist (List.filter_sublist.map _)

end Join

section Ordered

variable {a b : Listed}

instance (direction : Direction) : Std.TransCmp (compareBy direction) :=
  match direction with
  | .asc => inferInstanceAs (Std.TransCmp fun a b : Int => compare a b)
  | .desc => inferInstanceAs (Std.TransCmp fun a b : Int => compare b a)

theorem nullsLast_swap (direction : Direction) (x y : Option Int) :
    nullsLast direction x y = (nullsLast direction y x).swap := by
  cases x with
  | none => cases y <;> rfl
  | some x =>
    cases y with
    | none => rfl
    | some y =>
      have hswap : compareBy direction x y = (compareBy direction y x).swap :=
        Std.OrientedCmp.eq_swap
      exact hswap

instance (direction : Direction) : Std.OrientedCmp (nullsLast direction) :=
  ⟨nullsLast_swap direction _ _⟩

instance (direction : Direction) : Std.TransCmp (nullsLast direction) where
  isLE_trans {x y z} hxy hyz := by
    cases z with
    | none => cases x <;> rfl
    | some z =>
      cases y with
      | none => exact absurd hyz Bool.false_ne_true
      | some y =>
        cases x with
        | none => exact absurd hxy Bool.false_ne_true
        | some x =>
          have hxz : (compareBy direction x z).isLE = true :=
            Std.TransCmp.isLE_trans (b := y) hxy hyz
          exact hxz

section Columns

variable {α β : Type} (cmp : β → β → Ordering) (f : α → β)

/-- Rows compared by a column. -/
def onColumn (a b : α) : Ordering :=
  cmp (f a) (f b)

instance [Std.OrientedCmp cmp] : Std.OrientedCmp (onColumn cmp f) where
  eq_swap {a b} := by
    have hswap : cmp (f a) (f b) = (cmp (f b) (f a)).swap := Std.OrientedCmp.eq_swap
    exact hswap

instance [Std.TransCmp cmp] : Std.TransCmp (onColumn cmp f) where
  isLE_trans {a b c} hab hbc := by
    have hac : (cmp (f a) (f c)).isLE = true := Std.TransCmp.isLE_trans (b := f b) hab hbc
    exact hac

end Columns

instance : Std.TransCmp (orderClauses params) := by
  unfold orderClauses
  cases params.orderBy with
  | scorePercent =>
    exact inferInstanceAs (Std.TransCmp (compareLex (onColumn (nullsLast params.order) Listed.score)
      (compareLex (onColumn (nullsLast .desc) Listed.postedAt)
        (compareLex (onColumn (compareBy .desc) fun row : Listed => row.offer.createdAt)
          (onColumn (compareBy .desc) fun row : Listed => (row.offer.id : Int))))))
  | postedAt =>
    exact inferInstanceAs (Std.TransCmp
      (compareLex (onColumn (nullsLast params.order) Listed.postedAt)
        (compareLex (onColumn (compareBy .desc) fun row : Listed => row.offer.createdAt)
          (onColumn (compareBy .desc) fun row : Listed => (row.offer.id : Int)))))

instance : DecidableRel (Before params) := fun a b =>
  inferInstanceAs (Decidable ((orderClauses params a b).isLE = true))

instance : IsTrans Listed (Before params) :=
  ⟨fun _ _ _ hab hbc => Std.TransCmp.isLE_trans hab hbc⟩

instance : Std.Total (Before params) where
  total a b := by
    have hswap : orderClauses params b a = (orderClauses params a b).swap :=
      Std.OrientedCmp.eq_swap
    unfold Before
    rw [hswap]
    cases orderClauses params a b <;> simp

/-- Rows that may come before one another are of one offer. -/
theorem id_eq_of_before (hab : Before params a b) (hba : Before params b a) :
    a.offer.id = b.offer.id := by
  have heq : orderClauses params a b = .eq := Std.OrientedCmp.isLE_antisymm hab hba
  unfold orderClauses at heq
  have hid : compareBy .desc (a.offer.id : Int) b.offer.id = .eq := by
    split at heq
    · exact (Ordering.then_eq_eq.mp (Ordering.then_eq_eq.mp (Ordering.then_eq_eq.mp heq).2).2).2
    · exact (Ordering.then_eq_eq.mp (Ordering.then_eq_eq.mp heq).2).2
  exact Int.ofNat_inj.mp (Int.compare_eq_eq.mp hid).symm

theorem isLE_of_then {o o' : Ordering} (h : (o.then o').isLE = true) : o.isLE = true := by
  cases o with
  | gt => exact h
  | lt => rfl
  | eq => rfl

theorem inOrder_of_nullsLast {direction : Direction} {x y : Option Int}
    (h : (nullsLast direction x y).isLE = true) : InOrder direction x y := by
  cases y with
  | none => cases x <;> exact trivial
  | some y =>
    cases x with
    | none => exact absurd h Bool.false_ne_true
    | some x =>
      cases direction with
      | asc => exact Int.isLE_compare.mp h
      | desc => exact Int.isLE_compare.mp h

/-- The first clause is the requested one. -/
theorem inOrder_of_before (hab : Before params a b) :
    InOrder params.order (a.sortKey params) (b.sortKey params) := by
  refine inOrder_of_nullsLast ?_
  unfold Before orderClauses at hab
  unfold Listed.sortKey
  split at hab
  · exact isLE_of_then hab
  · exact isLE_of_then hab

end Ordered

section Pages

/-- The choices that the `ORDER BY` clauses of a request permit. -/
structure Choices.Permits (params : ListParams) (choices : Choices) : Prop where
  countRank : ∀ rows, Permitted LaterFirst rows (choices.countRank rows)
  pageRank : ∀ rows, Permitted LaterFirst rows (choices.pageRank rows)
  arrange : ∀ rows, Permitted (Before params) rows (choices.arrange rows)

/-- Every page is of one list, which has the offers that the request asks for
once each and in order, and gives its length as the total. -/
theorem listOffers_pages (h : ListingTables db scores) {choices : Nat → Choices}
    (hchoices : ∀ k, (choices k).Permits params) (limit : Nat) :
    ∃ rows : List Listed, ListsOnce ilike db scores params rows ∧
      (∀ k, (listOffers ilike (choices k) db scores params limit (k * limit)).total =
        rows.length) ∧
      ∀ n, rows.length ≤ n * limit →
        (List.range n).flatMap (fun k =>
          (listOffers ilike (choices k) db scores params limit (k * limit)).items) =
            rows.map offerSummary := by
  have hrank := (hchoices 0).pageRank
  obtain ⟨selected, hselected⟩ :
      ∃ selected, selected = selectOffers (choices 0).pageRank ilike db scores params := ⟨_, rfl⟩
  have hpage : ∀ k, selectOffers (choices k).pageRank ilike db scores params = selected :=
    fun k => (selectOffers_eq h (hchoices k).pageRank hrank).trans hselected.symm
  have hcount : ∀ k, selectOffers (choices k).countRank ilike db scores params = selected :=
    fun k => (selectOffers_eq h (hchoices k).countRank hrank).trans hselected.symm
  have hids : (selected.map (·.offer.id)).Nodup := hselected ▸ nodup_selectOffers h hrank
  have hrows := (hchoices 0).arrange selected
  have hanti : ∀ a ∈ selected, ∀ b ∈ selected, Before params a b → Before params b a → a = b :=
    fun a ha b hb hab hba => List.inj_on_of_nodup_map hids ha hb (id_eq_of_before hab hba)
  refine ⟨(choices 0).arrange selected, ⟨?_, fun row => ?_, ?_⟩, fun k => ?_, fun n hn => ?_⟩
  · exact (hrows.perm.map _).nodup_iff.mpr hids
  · rw [hrows.perm.mem_iff, hselected, mem_selectOffers h hrank]
  · exact hrows.ordered.imp inOrder_of_before
  · rw [hrows.perm.length_eq, ← hcount k]
    rfl
  · have hpages := pages_eq hanti (fun k => (hchoices k).arrange selected) hrows
      (hrows.perm.length_eq ▸ hn)
    rw [← hpages, pages, List.map_flatMap]
    refine List.flatMap_congr fun k _ => ?_
    rw [listOffers, hpage k]
    rfl

/-- Choices that keep the order of the tables among ties. -/
def stableChoices (params : ListParams) : Choices where
  countRank rows := rows.insertionSort LaterFirst
  pageRank rows := rows.insertionSort LaterFirst
  arrange rows := rows.insertionSort (Before params)

theorem stableChoices_permits : (stableChoices params).Permits params :=
  ⟨fun _ => permitted_insertionSort, fun _ => permitted_insertionSort,
    fun _ => permitted_insertionSort⟩

/-- An offer that the active profile has scored twice. -/
def scoredTwice : Database × List ScoreRow :=
  ({ sources := [⟨1, "Pracuj.pl", some "pracuj", ⟨[]⟩, none⟩]
     offers := [{
       id := 7
       dedupHash := "hash"
       offer := ⟨{ sourceId := 1, title := "Developer", company := "Acme" }, by decide⟩
       rawPayload := ⟨[]⟩
       createdAt := 0 }]
     profiles := [⟨2, "default", .active, true, none⟩] },
    [{ offerId := 7, profileId := 2, scorePercent := 40, rationale := "", computedFrom := .empty,
       createdAt := 1, scorePercent_le := by decide },
     { offerId := 7, profileId := 2, scorePercent := 70, rationale := "", computedFrom := .empty,
       createdAt := 2, scorePercent_le := by decide }])

theorem listOffers_pages_scoredTwice :
    ∃ rows : List Listed, ListsOnce (fun _ _ => false) scoredTwice.1 scoredTwice.2 {} rows ∧
      (∀ k, (listOffers (fun _ _ => false) (stableChoices {}) scoredTwice.1 scoredTwice.2 {} 1
        (k * 1)).total = rows.length) ∧
      ∀ n, rows.length ≤ n * 1 →
        (List.range n).flatMap (fun k =>
          (listOffers (fun _ _ => false) (stableChoices {}) scoredTwice.1 scoredTwice.2 {} 1
            (k * 1)).items) = rows.map offerSummary := by
  refine listOffers_pages ⟨by decide, by decide, fun row hrow => ?_, ?_⟩
    (fun _ => stableChoices_permits) 1
  · obtain rfl := List.mem_singleton.mp hrow
    exact ⟨_, List.mem_singleton_self _, rfl⟩
  · exact List.pairwise_pair.mpr fun _ _ => by decide

end Pages

end RecruFlow.Offers
