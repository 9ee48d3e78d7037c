import Mathlib.Algebra.BigOperators.Ring.Finset
import RecruFlow.Lib.Trace
import RecruFlow.Offers.ConnectorCounts
import RecruFlow.Scoring.Backlog

/-!
# Batches and the counts of the dashboard

A batch reports how many offers it scored, skipped, failed on and left. The dashboard shows
the counts of the connectors, the backlog and the number of offers. Over any batches what
was reported accounts for every change of what is shown.
-/

namespace RecruFlow.Scoring

open Db Dlq Ingestion Lib.Counting Lib.Trace Offers

/-! ## What the dashboard shows -/

/-- `matcher.LANGCHAIN_SOURCES` -/
def langchainSources : List String :=
  connectorRegistry.map (·.name)

/-- `count_total_offers` -/
def countTotalOffers (db : Database) : Nat :=
  db.offers.length

/-- `count_unscored_backlog` without connectors of its own. -/
def countUnscoredBacklog (env : BatchEnv) (db : Database) : Except PyError Nat :=
  match getActiveProfile db with
  | none => .ok 0
  | some profileRow => do
      let selection ← selectScoringCandidates
        { env with connectors := langchainSources, limit := 0 } db profileRow.id
      pure selection.total

/-- The sums over the options of `GET /connectors`. -/
def totalOf (count : ConnectorOption → Int) (db : Database) : Int :=
  ((listConnectors db).map count).sum

/-- An offer without a score that is no candidate: it failed before and the failure is open,
or it is out of the fetch range of its source. -/
def heldBack (env : BatchEnv) (now : Int) (db : Database) (profileId : Nat)
    (p : OfferRow × Source) : Bool :=
  p.1.id ∉ alreadyScored db profileId &&
    (p.1.id ∈ openScoringFailures db profileId || !(InFetchRange env now p.1 p.2 : Bool))

/-- The database and what the batches have reported. -/
structure Dashboard where
  db : Database
  reported : List BatchScoringSummary

/-- A batch with its surroundings; one that raises is rolled back and reports nothing. -/
def batchStep (s : Dashboard) (env : BatchEnv) : Option Dashboard :=
  match runBatchScoring env s.db with
  | .ok (summary, db) => some ⟨db, s.reported ++ [summary]⟩
  | .error _ => some s

variable {env : BatchEnv} {now : Int} {db db' : Database} {profileId : Nat}
  {profileRow : ProfileRow}

/-! ## The sums over the connectors -/

/-- The rows of the join under a registered connector that satisfy `p`. -/
def registered (db : Database) (p : OfferRow → Bool) : Nat :=
  (joinConnectors db).countP fun row => row.1 ∈ langchainSources.map some && p row.2

theorem langchainSources_nodup : (langchainSources.map some).Nodup := by
  decide

theorem sum_registered (p : OfferRow → Bool) :
    (connectorRegistry.map fun spec => (((joinConnectors db).countP fun row =>
      row.1 = some spec.name && p row.2 : Nat) : Int)).sum = registered db p := by
  have hsum : ((langchainSources.map some).map fun connector =>
      (joinConnectors db).countP fun row => row.1 = connector && p row.2).sum = registered db p :=
    (sum_countP_keys langchainSources_nodup).trans (List.countP_congr fun row _ => by simp)
  rw [← hsum, langchainSources, List.map_map, List.map_map, Nat.cast_list_sum, List.map_map]
  rfl

theorem totalOf_offerCount : totalOf (·.offerCount) db = registered db fun _ => true := by
  rw [totalOf, listConnectors_eq, List.map_map, ← sum_registered]
  rfl

theorem totalOf_scoredCount : totalOf (·.scoredCount) db =
    registered db fun offer => offer.id ∈ scoredOfferIds db (activeProfileId db) := by
  rw [totalOf, listConnectors_eq, List.map_map, ← sum_registered]
  rfl

theorem totalOf_unscoredCount :
    totalOf (·.unscoredCount) db = totalOf (·.offerCount) db - totalOf (·.scoredCount) db := by
  rw [totalOf, totalOf, totalOf, listConnectors_eq]
  simp only [List.map_map]
  induction connectorRegistry with
  | nil => rfl
  | cons spec specs ih =>
      simp only [List.map_cons, List.sum_cons, ih, Function.comp_apply, optionOf]
      omega

/-- An offer is joined with one source at most. -/
theorem filter_sources (hids : (db.sources.map (·.id)).Nodup) (id : Nat) :
    db.sources.filter (·.id = id) = (db.sources.find? (·.id = id)).toList := by
  cases hfind : db.sources.find? (·.id = id) with
  | none =>
      rw [Option.toList_none, List.filter_eq_nil_iff]
      exact List.find?_eq_none.mp hfind
  | some source =>
      obtain ⟨hsource, hid⟩ := (find?_source hids).mp hfind
      have hsame : ∀ other ∈ db.sources, decide (other.id = id) = (other == source) := by
        intro other hother
        by_cases heq : other = source
        · simp [heq, hid]
        · rw [beq_eq_false_iff_ne.mpr heq]
          exact decide_eq_false fun h =>
            heq (List.inj_on_of_nodup_map hids hother hsource (h.trans hid.symm))
      rw [List.filter_congr hsame, List.filter_beq, (List.Nodup.of_map _ hids).count,
        if_pos hsource]
      rfl

/-- The rows under the registered connectors are those that are scored. -/
theorem registered_eq (hids : (db.sources.map (·.id)).Nodup)
    (henv : env.connectors = langchainSources) (p : OfferRow → Bool) :
    registered db p = (joinSources env db).countP fun row => p row.1 := by
  rw [registered, joinConnectors, joinSources, henv]
  induction db.offers with
  | nil => rfl
  | cons offer offers ih =>
      rw [List.flatMap_cons, List.countP_append, ih, List.filterMap_cons, filter_sources hids]
      cases hfind : db.sources.find? (·.id = offer.offer.sourceId) with
      | none => simp
      | some source =>
          cases hconnector : source.connector with
          | none => simp [hconnector]
          | some connector =>
              by_cases hscope : connector ∈ langchainSources
              · simp [hconnector, hscope, List.countP_cons]
                omega
              · simp [hconnector, hscope]

/-! ## One batch -/

/-- The offers that a batch selects are joined with a source in its scope. -/
theorem selected_joined {selection : CandidateSelection}
    (h : selectScoringCandidates env db profileId = .ok selection) :
    ∀ p ∈ selection.selected, ∃ row ∈ joinSources env db, row.1 = p.1 := by
  obtain ⟨inRange, hfilter, h⟩ := bind_ok h
  obtain rfl := Except.ok.inj h
  intro p hp
  obtain ⟨q, hq, rfl⟩ := List.mem_map.mp hp
  have hscan := (inRangeRows_sublist hfilter).subset (List.mem_of_mem_take hq)
  exact ⟨q, (mem_candidateScan.mp hscan).1, rfl⟩

theorem joinSources_nodup (hids : (db.offers.map (·.id)).Nodup) :
    ((joinSources env db).map (·.1.id)).Nodup := by
  have := ((@joinSources_fst env db).map (·.id)).nodup hids
  rwa [List.map_map] at this

/-- What a batch reports of the offers that are scored before and after it. -/
structure Accounts (db : Database) (summary : BatchScoringSummary) (db' : Database) : Prop where
  offers : db'.offers = db.offers
  sources : db'.sources = db.sources
  profiles : db'.profiles = db.profiles
  skipped : (summary.skipped : Int) = totalOf (·.scoredCount) db
  scored : totalOf (·.scoredCount) db' = totalOf (·.scoredCount) db + summary.scored

theorem scoredOfferIds_eq (hprofile : getActiveProfile db = some profileRow) :
    scoredOfferIds db (activeProfileId db) = alreadyScored db profileRow.id := by
  have hid : activeProfileId db = profileRow.id := by
    rw [activeProfileId, show db.profiles.find? (·.isActive) = some profileRow from hprofile]
    rfl
  rw [scoredOfferIds, alreadyScored, hid]
  simp only [Nat.cast_inj]

theorem scoredOfferIds_none (hprofile : getActiveProfile db = none) :
    scoredOfferIds db (activeProfileId db) = [] := by
  have hid : activeProfileId db = -1 := by
    rw [activeProfileId, show db.profiles.find? (·.isActive) = none from hprofile]
    rfl
  rw [scoredOfferIds, hid, List.map_eq_nil_iff, List.filter_eq_nil_iff]
  intro score _
  simp only [decide_eq_true_eq]
  omega

/-- The rows that a batch adds are for offers that had no score, one for each. -/
theorem countAlreadyScored_add {scores : List MatchScore} (hids : (db.offers.map (·.id)).Nodup)
    (hnodup : (scores.map (·.offerId)).Nodup)
    (hjoined : ∀ id ∈ scores.map (·.offerId), ∃ row ∈ joinSources env db, row.1.id = id)
    (hnew : ∀ id ∈ scores.map (·.offerId), id ∉ alreadyScored db profileId)
    (hprofile : ∀ score ∈ scores, score.profileId = profileId)
    (hoffers : db'.offers = db.offers) (hsources : db'.sources = db.sources)
    (hscores : db'.matchScores = db.matchScores ++ scores) :
    countAlreadyScored env db' profileId =
      countAlreadyScored env db profileId + scores.length := by
  have hsame : joinSources env db' = joinSources env db := by
    rw [joinSources, joinSources, hoffers, hsources]
  have hscored : alreadyScored db' profileId =
      alreadyScored db profileId ++ scores.map (·.offerId) := by
    rw [alreadyScored, hscores, List.filter_append, List.map_append]
    congr 2
    exact List.filter_eq_self.mpr fun score hscore => decide_eq_true (hprofile score hscore)
  calc countAlreadyScored env db' profileId
      = (joinSources env db).countP fun p =>
          decide (p.1.id ∈ alreadyScored db profileId) ||
            decide (p.1.id ∈ scores.map (·.offerId)) := by
        rw [countAlreadyScored, hsame, hscored]
        congr 1
        funext p
        rw [← Bool.decide_or]
        exact decide_eq_decide.mpr List.mem_append
    _ = countAlreadyScored env db profileId +
          (joinSources env db).countP fun p => p.1.id ∈ scores.map (·.offerId) := by
        apply countP_or
        intro p _ hp
        exact decide_eq_false fun hmem => hnew p.1.id hmem (of_decide_eq_true hp)
    _ = countAlreadyScored env db profileId + scores.length := by
        rw [countP_mem_eq_length (joinSources_nodup hids) hnodup hjoined, List.length_map]

theorem totalOf_scoredCount_eq (hids : (db.sources.map (·.id)).Nodup)
    (henv : env.connectors = langchainSources) (hprofile : getActiveProfile db = some profileRow) :
    totalOf (·.scoredCount) db = countAlreadyScored env db profileRow.id := by
  rw [totalOf_scoredCount, scoredOfferIds_eq hprofile, registered_eq hids henv]
  rfl

theorem totalOf_scoredCount_none (hprofile : getActiveProfile db = none) :
    totalOf (·.scoredCount) db = 0 := by
  rw [totalOf_scoredCount, scoredOfferIds_none hprofile, registered]
  simp

theorem selectBatch_none (h : selectBatch env db = .ok none) : getActiveProfile db = none := by
  unfold selectBatch at h
  split at h
  · assumption
  · obtain ⟨_, -, h⟩ := bind_ok h
    cases h

theorem runBatchScoring_accounts {summary : BatchScoringSummary}
    (hoffers : (db.offers.map (·.id)).Nodup) (hsources : (db.sources.map (·.id)).Nodup)
    (henv : env.connectors = langchainSources)
    (h : runBatchScoring env db = .ok (summary, db')) : Accounts db summary db' := by
  obtain ⟨batch, hselect, h⟩ := bind_ok h
  obtain ⟨⟨summary', writes⟩, hscore, h⟩ := bind_ok h
  obtain ⟨rfl, rfl⟩ := Prod.mk.inj (Except.ok.inj h)
  obtain ⟨rows, hdb'⟩ := apply_eq writes env.startedAt db
  cases batch with
  | none =>
      obtain ⟨rfl, rfl⟩ := Prod.mk.inj (Except.ok.inj hscore)
      have hnone := selectBatch_none hselect
      have hnone' : getActiveProfile (BatchWrites.apply {} env.startedAt db) = none := by
        rw [hdb']
        exact hnone
      exact
        { offers := by rw [hdb']
          sources := by rw [hdb']
          profiles := by rw [hdb']
          skipped := (totalOf_scoredCount_none hnone).symm
          scored := by rw [totalOf_scoredCount_none hnone', totalOf_scoredCount_none hnone]; rfl }
  | some batch =>
      obtain ⟨hprofile, hselection⟩ := selectBatch_some hselect
      have hskipped : batch.skipped = countAlreadyScored env db batch.profileRow.id := by
        unfold selectBatch at hselect
        rw [hprofile] at hselect
        obtain ⟨_, -, hselect⟩ := bind_ok hselect
        rw [← Option.some.inj (Except.ok.inj hselect)]
      obtain ⟨writes', hwrites, hscore⟩ := bind_ok hscore
      obtain ⟨rfl, rfl⟩ := Prod.mk.inj (Except.ok.inj hscore)
      obtain ⟨hall, hsub⟩ := scoreOffersWithLangchain_scores hwrites
      obtain ⟨hselected, hnodup⟩ := selectScoringCandidates_ok hselection
      have hprofile' : getActiveProfile (writes'.apply env.startedAt db) =
          some batch.profileRow := by
        rw [hdb']
        exact hprofile
      have hsources' : ((writes'.apply env.startedAt db).sources.map (·.id)).Nodup := by
        rw [hdb']
        exact hsources
      have hcount : countAlreadyScored env (writes'.apply env.startedAt db) batch.profileRow.id =
          countAlreadyScored env db batch.profileRow.id + writes'.scores.length := by
        refine countAlreadyScored_add hoffers (hsub.nodup (hnodup hoffers)) ?_ ?_
          (fun score hscore => (hall score hscore).1) (by rw [hdb']) (by rw [hdb']) (by rw [hdb'])
        · intro id hid
          obtain ⟨p, hp, rfl⟩ := List.mem_map.mp (hsub.subset hid)
          obtain ⟨row, hrow, hsame⟩ := selected_joined hselection p hp
          exact ⟨row, hrow, by rw [hsame]⟩
        · intro id hid
          obtain ⟨p, hp, rfl⟩ := List.mem_map.mp (hsub.subset hid)
          exact (hselected p hp).2
      exact
        { offers := by rw [hdb']
          sources := by rw [hdb']
          profiles := by rw [hdb']
          skipped := by
            rw [totalOf_scoredCount_eq hsources henv hprofile]
            exact congrArg Nat.cast hskipped
          scored := by
            rw [totalOf_scoredCount_eq hsources' henv hprofile', hcount,
              totalOf_scoredCount_eq hsources henv hprofile]
            exact Nat.cast_add _ _ }

/-! ## The backlog -/

theorem inRangeRows_limit (limit : Nat) (ps : List (OfferRow × Source)) :
    inRangeRows { env with limit } ps = inRangeRows env ps := by
  induction ps with
  | nil => rfl
  | cons p ps ih =>
      rw [inRangeRows, inRangeRows, ih]
      rfl

/-- The number of candidates is the same for every limit. -/
theorem selectScoringCandidates_total {selection : CandidateSelection} (limit : Nat)
    (h : selectScoringCandidates env db profileId = .ok selection) :
    selection.selected.length ≤ selection.total ∧
      ∃ selected, selectScoringCandidates { env with limit } db profileId =
        .ok ⟨selected, selection.total⟩ := by
  obtain ⟨inRange, hfilter, h⟩ := bind_ok h
  obtain rfl := Except.ok.inj h
  have hsame : inRangeRows { env with limit } (candidateScan { env with limit } db profileId) =
      .ok inRange := (inRangeRows_limit limit _).trans hfilter
  constructor
  · show (List.map _ _).length ≤ inRange.length
    rw [List.length_map]
    exact List.length_take_le' _ _
  · rw [selectScoringCandidates, hsame]
    exact ⟨_, rfl⟩

/-- A batch reports the backlog that it met. -/
theorem countUnscoredBacklog_of_batch {summary : BatchScoringSummary}
    (henv : env.connectors = langchainSources) (h : runBatchScoring env db = .ok (summary, db')) :
    countUnscoredBacklog env db = .ok (summary.scored + summary.failed + summary.remaining) := by
  obtain ⟨batch, hselect, h⟩ := bind_ok h
  obtain ⟨⟨summary', writes⟩, hscore, h⟩ := bind_ok h
  obtain ⟨rfl, rfl⟩ := Prod.mk.inj (Except.ok.inj h)
  cases batch with
  | none =>
      obtain ⟨rfl, rfl⟩ := Prod.mk.inj (Except.ok.inj hscore)
      rw [countUnscoredBacklog, selectBatch_none hselect]
      rfl
  | some batch =>
      obtain ⟨hprofile, hselection⟩ := selectBatch_some hselect
      obtain ⟨writes', hwrites, hscore⟩ := bind_ok hscore
      obtain ⟨rfl, rfl⟩ := Prod.mk.inj (Except.ok.inj hscore)
      have hscored : writes'.scores.length ≤ batch.selection.selected.length := by
        have := (scoreOffersWithLangchain_scores hwrites).2.length_le
        rwa [List.length_map, List.length_map] at this
      obtain ⟨htotal, selected, hselected⟩ := selectScoringCandidates_total 0 hselection
      rw [henv] at hselected
      rw [countUnscoredBacklog, hprofile]
      show selectScoringCandidates _ db batch.profileRow.id >>= _ = _
      rw [hselected]
      show Except.ok batch.selection.total = .ok _
      congr 1
      dsimp only
      omega

theorem length_candidates :
    (candidates env now db profileId).length = (joinSources env db).countP fun p =>
      decide (p.1.id ∉ alreadyScored db profileId) && !(heldBack env now db profileId p) := by
  rw [candidates, ← List.countP_eq_length_filter, candidateScan,
    (List.perm_insertionSort _ _).countP_eq, List.countP_filter]
  congr 1
  funext p
  rw [heldBack]
  by_cases hscored : p.1.id ∈ alreadyScored db profileId <;>
    by_cases hopen : p.1.id ∈ openScoringFailures db profileId <;> simp [hscored, hopen]

/-- An offer without a score is in the backlog or is held back. -/
theorem unscored_eq_backlog {n : Nat} (htables : ScoringTables env db)
    (henv : env.connectors = langchainSources) (hnow : ∀ id, env.now id = now)
    (hprofile : getActiveProfile db = some profileRow)
    (h : countUnscoredBacklog env db = .ok n) :
    totalOf (·.unscoredCount) db =
      n + (joinSources env db).countP (heldBack env now db profileRow.id) := by
  have hbacklog : n = (candidates env now db profileRow.id).length := by
    obtain ⟨-, selected, hselect⟩ :=
      selectScoringCandidates_total 0 (selectScoringCandidates_eq htables hnow)
    rw [countUnscoredBacklog, hprofile, ← henv] at h
    change selectScoringCandidates { env with limit := 0 } db profileRow.id >>= _ = _ at h
    rw [hselect] at h
    exact (Except.ok.inj h).symm
  have hscored := totalOf_scoredCount_eq htables.source_ids henv hprofile
  have hjoined : totalOf (·.offerCount) db = (joinSources env db).length := by
    rw [totalOf_offerCount, registered_eq htables.source_ids henv, List.countP_true]
  have hsplit : (joinSources env db).length = countAlreadyScored env db profileRow.id +
      (joinSources env db).countP fun p => p.1.id ∉ alreadyScored db profileRow.id := by
    rw [countAlreadyScored, List.length_eq_countP_add_countP fun p : OfferRow × Source =>
      decide (p.1.id ∈ alreadyScored db profileRow.id)]
    simp only [decide_not, decide_eq_true_eq]
  have hunscored := @countP_split (OfferRow × Source)
    (fun p => decide (p.1.id ∉ alreadyScored db profileRow.id))
    (heldBack env now db profileRow.id) (joinSources env db)
  have hheld : ((joinSources env db).countP fun p =>
      decide (p.1.id ∉ alreadyScored db profileRow.id) && heldBack env now db profileRow.id p) =
        (joinSources env db).countP (heldBack env now db profileRow.id) := by
    congr 1
    funext p
    rw [heldBack, ← Bool.and_assoc, Bool.and_self]
  rw [totalOf_unscoredCount, hscored, hjoined, hsplit, hunscored, hheld, hbacklog,
    length_candidates]
  push_cast
  ring

/-! ## Any batches -/

/-- What batches have reported as scored. -/
def scoredBy (summaries : List BatchScoringSummary) : Nat :=
  (summaries.map (·.scored)).sum

/-- What the dashboard shows after batches, by what they have reported. -/
structure CountsReported (db : Database) (s : Dashboard) : Prop where
  offers : s.db.offers = db.offers
  sources : s.db.sources = db.sources
  scored : totalOf (·.scoredCount) s.db = totalOf (·.scoredCount) db + scoredBy s.reported
  /-- What a batch reports as skipped was scored before, in part by the batches before it. -/
  skipped : ∀ earlier summary later, s.reported = earlier ++ summary :: later →
    (summary.skipped : Int) = totalOf (·.scoredCount) db + scoredBy earlier

theorem batchStep_reported {s t : Dashboard} (hoffers : (db.offers.map (·.id)).Nodup)
    (hsources : (db.sources.map (·.id)).Nodup) (h : CountsReported db s)
    (henv : env.connectors = langchainSources) (hstep : batchStep s env = some t) :
    CountsReported db t := by
  unfold batchStep at hstep
  split at hstep
  · next summary db' hrun =>
    obtain rfl := Option.some.inj hstep
    have haccounts := runBatchScoring_accounts (h.offers ▸ hoffers) (h.sources ▸ hsources) henv hrun
    refine ⟨haccounts.offers.trans h.offers, haccounts.sources.trans h.sources, ?_, ?_⟩
    · have hscored : scoredBy (s.reported ++ [summary]) = scoredBy s.reported + summary.scored := by
        rw [scoredBy, List.map_append, List.sum_append, List.map_singleton, List.sum_singleton]
        rfl
      calc totalOf (·.scoredCount) db'
          = totalOf (·.scoredCount) db + scoredBy s.reported + summary.scored := by
            rw [haccounts.scored, h.scored]
        _ = totalOf (·.scoredCount) db + scoredBy (s.reported ++ [summary]) := by
            rw [hscored, Nat.cast_add, add_assoc]
    · intro earlier other later hreported
      rcases List.eq_nil_or_concat later with rfl | ⟨later, last, rfl⟩
      · obtain ⟨rfl, hlast⟩ := List.append_inj' hreported rfl
        obtain rfl := (List.cons.inj hlast).1
        rw [haccounts.skipped, h.scored]
      · rw [List.concat_eq_append, ← List.cons_append, ← List.append_assoc] at hreported
        exact h.skipped earlier other later (List.append_inj' hreported rfl).1
  · obtain rfl := Option.some.inj hstep
    exact h

/-- After any batches, some of which may have raised, the connectors have as many scored
offers more and as many unscored ones less as was reported, and the same offers. A batch
skips what was scored before it and splits the backlog that it met. What is unscored and not
in the backlog failed before or is out of its fetch range. -/
theorem batches_account_for_counts {s : Dashboard} {envs : List BatchEnv}
    (hoffers : (db.offers.map (·.id)).Nodup) (hsources : (db.sources.map (·.id)).Nodup)
    (henvs : ∀ env ∈ envs, env.connectors = langchainSources)
    (hrun : exec batchStep ⟨db, []⟩ envs = some s) :
    CountsReported db s ∧ countTotalOffers s.db = countTotalOffers db ∧
      totalOf (·.offerCount) s.db = totalOf (·.offerCount) db ∧
      totalOf (·.unscoredCount) s.db =
        totalOf (·.unscoredCount) db - scoredBy s.reported ∧
      (∀ env summary db', env.connectors = langchainSources →
        runBatchScoring env s.db = .ok (summary, db') →
        countUnscoredBacklog env s.db =
          .ok (summary.scored + summary.failed + summary.remaining)) ∧
      ∀ env now n profileRow, ScoringTables env s.db → env.connectors = langchainSources →
        (∀ id, env.now id = now) → getActiveProfile s.db = some profileRow →
        countUnscoredBacklog env s.db = .ok n →
        totalOf (·.unscoredCount) s.db =
          n + (joinSources env s.db).countP (heldBack env now s.db profileRow.id) := by
  have hstart : CountsReported db ⟨db, []⟩ :=
    { offers := rfl
      sources := rfl
      scored := (add_zero _).symm
      skipped := fun earlier summary later h => by simp at h }
  have halong : ∀ (s : Dashboard) (envs : List BatchEnv),
      (∀ env ∈ envs, env.connectors = langchainSources) →
        Along batchStep (fun _ env => env.connectors = langchainSources) s envs := by
    intro s envs
    induction envs generalizing s with
    | nil => exact fun _ => trivial
    | cons env envs ih =>
        exact fun h => ⟨h env List.mem_cons_self,
          fun t _ => ih t fun env henv => h env (List.mem_cons_of_mem _ henv)⟩
  have h : CountsReported db s := along_invariant
    (fun _ _ _ hI henv hstep => batchStep_reported hoffers hsources hI henv hstep) hstart
    (halong _ envs henvs) (.last hrun)
  have hjoin : joinConnectors s.db = joinConnectors db := by
    rw [joinConnectors, joinConnectors, h.offers, h.sources]
  have hcount : totalOf (·.offerCount) s.db = totalOf (·.offerCount) db := by
    rw [totalOf_offerCount, totalOf_offerCount, registered, registered, hjoin]
  refine ⟨h, congrArg List.length h.offers, hcount, ?_, ?_, ?_⟩
  · rw [totalOf_unscoredCount, totalOf_unscoredCount, hcount, h.scored]
    ring
  · exact fun env summary db' henv hbatch => countUnscoredBacklog_of_batch henv hbatch
  · exact fun env now n profileRow htables henv hnow hprofile hbacklog =>
      unscored_eq_backlog htables henv hnow hprofile hbacklog

/-! ## A batch that raises between two others -/

def mixedEnvs : List BatchEnv :=
  [{ oneByOne with connectors := langchainSources },
    { oneByOne with
      connectors := langchainSources
      scoreOffer := fun _ _ => .error .database },
    { oneByOne with
      connectors := langchainSources
      scoreOffer := fun _ _ => .ok (.error "timeout") }]

theorem batches_account_for_mixed :
    ∃ s, exec batchStep ⟨twoOffersDb, []⟩ mixedEnvs = some s ∧
      s.reported = [⟨1, 0, 0, 1⟩, ⟨0, 1, 1, 0⟩] ∧
      totalOf (·.unscoredCount) s.db = totalOf (·.unscoredCount) twoOffersDb - 1 := by
  have henvs : ∀ env ∈ mixedEnvs, env.connectors = langchainSources := by
    intro env henv
    simp only [mixedEnvs, List.mem_cons, List.not_mem_nil, or_false] at henv
    rcases henv with rfl | rfl | rfl <;> rfl
  obtain ⟨s, hrun⟩ : ∃ s, exec batchStep ⟨twoOffersDb, []⟩ mixedEnvs = some s := ⟨_, rfl⟩
  have hreported : (exec batchStep ⟨twoOffersDb, []⟩ mixedEnvs).map (·.reported) =
      some [⟨1, 0, 0, 1⟩, ⟨0, 1, 1, 0⟩] := by decide +kernel
  rw [hrun] at hreported
  have hreported : s.reported = [⟨1, 0, 0, 1⟩, ⟨0, 1, 1, 0⟩] := Option.some.inj hreported
  refine ⟨s, hrun, hreported, ?_⟩
  have haccount := (batches_account_for_counts (by decide) (by decide) henvs hrun).2.2.2.1
  rw [haccount, hreported]
  rfl

end RecruFlow.Scoring
