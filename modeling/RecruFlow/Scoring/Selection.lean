import RecruFlow.Scoring.Batch
import Mathlib.Data.Int.ConditionallyCompleteOrder
import Mathlib.Data.Prod.Lex
import Mathlib.Order.WithBot

/-!
# What a batch selects

A scan orders the offers without an outcome, a filter keeps those in the fetch
range of their source, and a second query loads the rows of the first page. The
page is the beginning of the eligible offers, in their order.
-/

namespace RecruFlow.Scoring

open Db Dlq Ingestion Schemas

/-- A missing date comes before all others. -/
def postedRank : Option DateTime → WithBot Int
  | some posted => (posted.micros : WithBot Int)
  | none => ⊥

/-- What the scan orders by, the largest first. -/
def recency (row : OfferRow) : WithBot Int ×ₗ Int ×ₗ Nat :=
  toLex (postedRank row.offer.postedAt, toLex (row.createdAt, row.id))

/-- The offer is in the fetch range of a source; without a date it counts as of now. -/
def InFetchRange (env : BatchEnv) (now : Int) (row : OfferRow) (source : Source) : Prop :=
  let range := resolveFetchRange env.parseDatetime (source.configJson.get "fetch_range")
  let date := (row.offer.postedAt.map (·.micros)).getD now
  (∀ since ∈ range.1, since.micros ≤ date) ∧ ∀ limit ∈ range.2, date ≤ limit.micros

instance (env : BatchEnv) (now : Int) (row : OfferRow) (source : Source) :
    Decidable (InFetchRange env now row source) :=
  inferInstanceAs (Decidable (_ ∧ _))

/-- The profile has a score, or an open failure, for the offer. -/
def HasOutcome (db : Database) (profileId : Nat) (row : OfferRow) : Prop :=
  row.id ∈ alreadyScored db profileId ∨ row.id ∈ openScoringFailures db profileId

/-- An offer of one of the connectors without an outcome, in the fetch range. -/
def Eligible (env : BatchEnv) (now : Int) (db : Database) (profileId : Nat) (row : OfferRow) :
    Prop :=
  row ∈ db.offers ∧ ¬ HasOutcome db profileId row ∧
    ∃ source ∈ db.sources, source.id = row.offer.sourceId ∧
      (∃ connector ∈ source.connector, connector ∈ env.connectors) ∧
      InFetchRange env now row source

/-- What the primary keys and the `timestamptz` columns guarantee, and bounds
that have a time zone. -/
structure ScoringTables (env : BatchEnv) (db : Database) : Prop where
  offer_ids : (db.offers.map (·.id)).Nodup
  source_ids : (db.sources.map (·.id)).Nodup
  posted_aware : ∀ row ∈ db.offers, ∀ posted ∈ row.offer.postedAt, posted.aware = true
  since_aware : ∀ source ∈ db.sources, ∀ since ∈ (resolveFetchRange env.parseDatetime
    (source.configJson.get "fetch_range")).1, since.aware = true
  until_aware : ∀ source ∈ db.sources, ∀ limit ∈ (resolveFetchRange env.parseDatetime
    (source.configJson.get "fetch_range")).2, limit.aware = true

/-- The rows that `_hydrate_candidates_stmt` loads. -/
def hydrateCandidates (db : Database) (offerIds : List Nat) : List (OfferRow × Option String) :=
  db.offers.filterMap fun row => do
    let source ← db.sources.find? (·.id = row.offer.sourceId)
    if row.id ∈ offerIds then some (row, source.connector) else none

/-- `by_id[offer_id]`; the last row with an id is the one that the dictionary keeps. -/
def byId (hydrated : List (OfferRow × Option String)) (offerId : Nat) :
    Except PyError (OfferRow × String) :=
  match hydrated.reverse.find? (·.1.id = offerId) with
  | some p => .ok (p.1, p.2.getD "")
  | none => .error .keyError

/-- `select_scoring_candidates` with its second query. -/
def selectHydratedCandidates (env : BatchEnv) (db : Database) (profileId : Nat) :
    Except PyError CandidateSelection := do
  let inRange ← inRangeRows env (candidateScan env db profileId)
  let inRangeIds := inRange.map (·.1.id)
  let pageIds := inRangeIds.take env.limit
  if pageIds = [] then pure ⟨[], inRangeIds.length⟩
  else do
    let selected ← pageIds.mapM (byId (hydrateCandidates db pageIds))
    pure ⟨selected, inRangeIds.length⟩

variable {env : BatchEnv} {now : Int} {db : Database} {profileId : Nat} {a b row : OfferRow}

/-! ## The order of the scan -/

theorem isLE_compare_then {α : Type} [LinearOrder α] {x y : α} {o : Ordering} :
    ((compare x y).then o).isLE = true ↔ x < y ∨ x = y ∧ o.isLE = true := by
  rcases lt_trichotomy x y with hlt | heq | hgt
  · rw [compare_lt_iff_lt.mpr hlt]
    simp [hlt]
  · rw [compare_eq_iff_eq.mpr heq]
    simp [heq]
  · rw [compare_gt_iff_gt.mpr hgt]
    simp [hgt.not_gt, hgt.ne']

theorem comparePostedAt_eq (x y : Option DateTime) :
    comparePostedAt x y = compare (postedRank y) (postedRank x) := by
  cases x with
  | none =>
      cases y with
      | none => exact (compare_eq_iff_eq.mpr rfl).symm
      | some b => exact (compare_gt_iff_gt.mpr (WithBot.bot_lt_coe b.micros)).symm
  | some a =>
      cases y with
      | none => exact (compare_lt_iff_lt.mpr (WithBot.bot_lt_coe a.micros)).symm
      | some b =>
          change compare b.micros a.micros = _
          rcases lt_trichotomy b.micros a.micros with hlt | heq | hgt
          · rw [compare_lt_iff_lt.mpr hlt]
            exact (compare_lt_iff_lt.mpr (WithBot.coe_lt_coe.mpr hlt)).symm
          · rw [compare_eq_iff_eq.mpr heq]
            exact (compare_eq_iff_eq.mpr (congrArg _ heq)).symm
          · rw [compare_gt_iff_gt.mpr hgt]
            exact (compare_gt_iff_gt.mpr (WithBot.coe_lt_coe.mpr hgt)).symm

theorem newerFirst_iff : newerFirst a b = true ↔ recency b ≤ recency a := by
  rw [newerFirst, comparePostedAt_eq, isLE_compare_then, isLE_compare_then, recency, recency,
    Prod.Lex.toLex_le_toLex, Prod.Lex.toLex_le_toLex, ← compare_le_iff_le, Ordering.isLE_iff_ne_gt]

/-! ## The fetch range -/

theorem outsideRange_eq {since limit : Option DateTime} {date : DateTime}
    (hdate : date.aware = true) (hsince : ∀ s ∈ since, s.aware = true)
    (hlimit : ∀ l ∈ limit, l.aware = true) :
    outsideRange since limit date = .ok (!decide ((∀ s ∈ since, s.micros ≤ date.micros) ∧
      ∀ l ∈ limit, date.micros ≤ l.micros)) := by
  have hbefore : beforeSince since date = .ok (!decide (∀ s ∈ since, s.micros ≤ date.micros)) := by
    cases since with
    | none => simp [beforeSince]
    | some s =>
        have hlt : decide (date.micros < s.micros) = !decide (s.micros ≤ date.micros) := by
          rw [← decide_not]
          exact decide_eq_decide.mpr Int.not_le.symm
        simp [beforeSince, DateTime.lt, hdate, hsince s rfl, hlt]
  have hafter : afterUntil limit date = .ok (!decide (∀ l ∈ limit, date.micros ≤ l.micros)) := by
    cases limit with
    | none => simp [afterUntil]
    | some l =>
        have hlt : decide (l.micros < date.micros) = !decide (date.micros ≤ l.micros) := by
          rw [← decide_not]
          exact decide_eq_decide.mpr Int.not_le.symm
        simp [afterUntil, DateTime.lt, hdate, hlimit l rfl, hlt]
  rw [outsideRange, hbefore, hafter, Bool.decide_and, Bool.not_and]
  cases decide (∀ s ∈ since, s.micros ≤ date.micros) <;> rfl

theorem inFetchRange_eq {source : Source} (hnow : ∀ id, env.now id = now)
    (hposted : ∀ posted ∈ row.offer.postedAt, posted.aware = true)
    (hsince : ∀ since ∈ (resolveFetchRange env.parseDatetime
      (source.configJson.get "fetch_range")).1, since.aware = true)
    (huntil : ∀ limit ∈ (resolveFetchRange env.parseDatetime
      (source.configJson.get "fetch_range")).2, limit.aware = true) :
    inFetchRange env row source.configJson = .ok (decide (InFetchRange env now row source)) := by
  have hdate : (row.offer.postedAt.getD ⟨env.now row.id, true⟩).aware = true ∧
      (row.offer.postedAt.getD ⟨env.now row.id, true⟩).micros =
        (row.offer.postedAt.map (·.micros)).getD now := by
    cases hrow : row.offer.postedAt with
    | none => exact ⟨rfl, hnow row.id⟩
    | some posted => exact ⟨hposted posted hrow, rfl⟩
  obtain ⟨haware, hmicros⟩ := hdate
  have houtside := outsideRange_eq haware hsince huntil
  rw [hmicros] at houtside
  let range := resolveFetchRange env.parseDatetime (source.configJson.get "fetch_range")
  have hunfold : inFetchRange env row source.configJson =
      if range.1 = none ∧ range.2 = none then .ok true
      else (outsideRange range.1 range.2 (row.offer.postedAt.getD ⟨env.now row.id, true⟩)).bind
        fun outside => .ok !outside := rfl
  rw [hunfold, houtside]
  split
  · next hnone =>
    obtain ⟨hsince, huntil⟩ := hnone
    have hin : InFetchRange env now row source := by
      refine ⟨fun since h => ?_, fun limit h => ?_⟩
      · exact absurd (hsince.symm.trans h) (by simp)
      · exact absurd (huntil.symm.trans h) (by simp)
    rw [decide_eq_true hin]
  · simp only [Except.bind, Bool.not_not]
    rfl

/-- The rows in the fetch range are a filter, when no test raises. -/
theorem inRangeRows_eq {keep : OfferRow × Source → Bool} {ps : List (OfferRow × Source)}
    (h : ∀ p ∈ ps, inFetchRange env p.1 p.2.configJson = .ok (keep p)) :
    inRangeRows env ps = .ok (ps.filter keep) := by
  induction ps with
  | nil => rfl
  | cons p ps ih =>
      have hrest := ih fun q hq => h q (List.mem_cons_of_mem _ hq)
      rw [inRangeRows, h p List.mem_cons_self, hrest, List.filter_cons]
      rfl

/-! ## The candidates -/

theorem mem_joinSources {p : OfferRow × Source} : p ∈ joinSources env db ↔
    p.1 ∈ db.offers ∧ db.sources.find? (·.id = p.1.offer.sourceId) = some p.2 ∧
      ∃ connector ∈ p.2.connector, connector ∈ env.connectors := by
  obtain ⟨row, source⟩ := p
  simp only [joinSources, List.mem_filterMap]
  constructor
  · rintro ⟨row', hrow, h⟩
    obtain ⟨source', hsource, h⟩ := Option.bind_eq_some_iff.mp h
    obtain ⟨connector, hconnector, h⟩ := Option.bind_eq_some_iff.mp h
    split at h
    · next hscope =>
      obtain ⟨rfl, rfl⟩ := Prod.mk.inj (Option.some.inj h)
      exact ⟨hrow, hsource, connector, hconnector, hscope⟩
    · cases h
  · rintro ⟨hrow, hsource, connector, hconnector, hscope⟩
    refine ⟨row, hrow, ?_⟩
    have hconnector : source.connector = some connector := hconnector
    simp [hsource, hconnector, hscope]

/-- The candidates of a profile in the order of the scan, with their sources. -/
def candidates (env : BatchEnv) (now : Int) (db : Database) (profileId : Nat) :
    List (OfferRow × Source) :=
  (candidateScan env db profileId).filter fun p => InFetchRange env now p.1 p.2

theorem mem_candidateScan {p : OfferRow × Source} : p ∈ candidateScan env db profileId ↔
    p ∈ joinSources env db ∧ ¬ HasOutcome db profileId p.1 := by
  rw [candidateScan, List.mem_insertionSort, List.mem_filter, HasOutcome, not_or]
  simp

theorem candidateScan_sorted :
    (candidateScan env db profileId).Pairwise fun p q => newerFirst p.1 q.1 = true := by
  have : Std.Total fun p q : OfferRow × Source => newerFirst p.1 q.1 = true :=
    ⟨fun p q => by
      rw [newerFirst_iff, newerFirst_iff]
      exact le_total _ _⟩
  have : IsTrans (OfferRow × Source) fun p q => newerFirst p.1 q.1 = true :=
    ⟨fun p q r => by
      rw [newerFirst_iff, newerFirst_iff, newerFirst_iff]
      exact fun hpq hqr => le_trans hqr hpq⟩
  exact List.pairwise_insertionSort _ _

theorem find?_source {source : Source} (hids : (db.sources.map (·.id)).Nodup) {id : Nat} :
    db.sources.find? (·.id = id) = some source ↔ source ∈ db.sources ∧ source.id = id := by
  constructor
  · intro h
    exact ⟨List.mem_of_find?_eq_some h, by simpa using List.find?_some h⟩
  · rintro ⟨hmem, rfl⟩
    obtain ⟨found, hfound⟩ : ∃ found, db.sources.find? (·.id = source.id) = some found :=
      Option.isSome_iff_exists.mp (List.find?_isSome.mpr ⟨source, hmem, decide_eq_true rfl⟩)
    have hid : found.id = source.id := by simpa using List.find?_some hfound
    rw [hfound, List.inj_on_of_nodup_map hids (List.mem_of_find?_eq_some hfound) hmem hid]

section Tables

variable (htables : ScoringTables env db) (hnow : ∀ id, env.now id = now)
include htables

/-- The candidates are the eligible offers. -/
theorem mem_candidates_iff :
    row ∈ (candidates env now db profileId).map (·.1) ↔ Eligible env now db profileId row := by
  rw [List.mem_map]
  constructor
  · rintro ⟨⟨row, source⟩, hmem, rfl⟩
    obtain ⟨hscan, hrange⟩ := List.mem_filter.mp hmem
    obtain ⟨hjoin, hnone⟩ := mem_candidateScan.mp hscan
    obtain ⟨hrow, hfind, hscope⟩ := mem_joinSources.mp hjoin
    obtain ⟨hsource, hid⟩ := (find?_source htables.source_ids).mp hfind
    exact ⟨hrow, hnone, source, hsource, hid, hscope, of_decide_eq_true hrange⟩
  · rintro ⟨hrow, hnone, source, hsource, hid, hscope, hrange⟩
    have hfind := (find?_source htables.source_ids).mpr ⟨hsource, hid⟩
    have hscan : (row, source) ∈ candidateScan env db profileId :=
      mem_candidateScan.mpr ⟨mem_joinSources.mpr ⟨hrow, hfind, hscope⟩, hnone⟩
    exact ⟨(row, source), List.mem_filter.mpr ⟨hscan, decide_eq_true hrange⟩, rfl⟩

theorem candidates_nodup : ((candidates env now db profileId).map (·.1.id)).Nodup := by
  have hids : ((joinSources env db).map (·.1.id)).Nodup := by
    have := ((@joinSources_fst env db).map (·.id)).nodup htables.offer_ids
    rwa [List.map_map] at this
  have hscan : ((candidateScan env db profileId).map (·.1.id)).Nodup :=
    ((List.perm_insertionSort _ _).map _).nodup_iff.mpr ((List.filter_sublist.map _).nodup hids)
  exact (List.filter_sublist.map _).nodup hscan

include hnow

/-- No test of the fetch range raises. -/
theorem inRangeRows_candidateScan :
    inRangeRows env (candidateScan env db profileId) = .ok (candidates env now db profileId) := by
  apply inRangeRows_eq
  intro p hp
  obtain ⟨hrow, hfind, _⟩ := mem_joinSources.mp (mem_candidateScan.mp hp).1
  obtain ⟨hsource, _⟩ := (find?_source htables.source_ids).mp hfind
  exact inFetchRange_eq hnow (htables.posted_aware p.1 hrow) (htables.since_aware p.2 hsource)
    (htables.until_aware p.2 hsource)

theorem selectScoringCandidates_eq :
    selectScoringCandidates env db profileId =
      .ok ⟨((candidates env now db profileId).take env.limit).map fun p =>
        (p.1, p.2.connector.getD ""), (candidates env now db profileId).length⟩ := by
  rw [selectScoringCandidates, inRangeRows_candidateScan htables hnow]
  rfl

/-! ## The second query -/

omit htables hnow in
theorem mem_hydrateCandidates {offerIds : List Nat} {p : OfferRow × Option String} :
    p ∈ hydrateCandidates db offerIds ↔ p.1 ∈ db.offers ∧ p.1.id ∈ offerIds ∧
      ∃ source, db.sources.find? (·.id = p.1.offer.sourceId) = some source ∧
        source.connector = p.2 := by
  obtain ⟨row, connector⟩ := p
  simp only [hydrateCandidates, List.mem_filterMap]
  constructor
  · rintro ⟨row', hrow, h⟩
    obtain ⟨source, hsource, h⟩ := Option.bind_eq_some_iff.mp h
    split at h
    · next hid =>
      obtain ⟨rfl, rfl⟩ := Prod.mk.inj (Option.some.inj h)
      exact ⟨hrow, hid, source, hsource, rfl⟩
    · cases h
  · rintro ⟨hrow, hid, source, hsource, rfl⟩
    exact ⟨row, hrow, by simp [hsource, hid]⟩

omit hnow in
/-- A row of the page is loaded again with its connector. -/
theorem byId_candidate {p : OfferRow × Source} {offerIds : List Nat}
    (hp : p ∈ candidates env now db profileId) (hid : p.1.id ∈ offerIds) :
    byId (hydrateCandidates db offerIds) p.1.id = .ok (p.1, p.2.connector.getD "") := by
  obtain ⟨hrow, hfind, _⟩ := mem_joinSources.mp (mem_candidateScan.mp (List.mem_filter.mp hp).1).1
  have hmem : (p.1, p.2.connector) ∈ hydrateCandidates db offerIds :=
    mem_hydrateCandidates.mpr ⟨hrow, hid, p.2, hfind, rfl⟩
  obtain ⟨found, hfound⟩ : ∃ found,
      (hydrateCandidates db offerIds).reverse.find? (·.1.id = p.1.id) = some found :=
    Option.isSome_iff_exists.mp (List.find?_isSome.mpr
      ⟨_, List.mem_reverse.mpr hmem, decide_eq_true rfl⟩)
  obtain ⟨hrow', _, source, hsource, hconnector⟩ :=
    mem_hydrateCandidates.mp (List.mem_reverse.mp (List.mem_of_find?_eq_some hfound))
  have hsame : found.1 = p.1 :=
    List.inj_on_of_nodup_map htables.offer_ids hrow' hrow (by simpa using List.find?_some hfound)
  rw [hsame, hfind] at hsource
  rw [byId, hfound]
  dsimp only
  rw [hsame, ← hconnector, ← Option.some.inj hsource]

omit htables hnow in
theorem mapM_byId {load : Nat → Except PyError (OfferRow × String)}
    {page : List (OfferRow × Source)}
    (h : ∀ p ∈ page, load p.1.id = .ok (p.1, p.2.connector.getD "")) :
    (page.map (·.1.id)).mapM load = .ok (page.map fun p => (p.1, p.2.connector.getD "")) := by
  induction page with
  | nil => rfl
  | cons p page ih =>
      have hrest := ih fun q hq => h q (List.mem_cons_of_mem _ hq)
      rw [List.map_cons, List.mapM_cons, h p List.mem_cons_self, hrest]
      rfl

/-- Loading the page by id gives its rows, in the order of the scan. -/
theorem selectHydratedCandidates_eq :
    selectHydratedCandidates env db profileId = selectScoringCandidates env db profileId := by
  rw [selectScoringCandidates_eq htables hnow, selectHydratedCandidates,
    inRangeRows_candidateScan htables hnow]
  simp only [bind, Except.bind, pure, Except.pure, List.length_map, ← List.map_take]
  split
  · next hempty =>
    rw [List.map_eq_nil_iff.mp hempty]
    rfl
  · have hload : ∀ p ∈ (candidates env now db profileId).take env.limit,
        byId (hydrateCandidates db (((candidates env now db profileId).take env.limit).map (·.1.id)))
          p.1.id = .ok (p.1, p.2.connector.getD "") := fun p hp =>
      byId_candidate htables (List.mem_of_mem_take hp) (List.mem_map.mpr ⟨p, hp, rfl⟩)
    rw [mapM_byId hload]

end Tables

end RecruFlow.Scoring
