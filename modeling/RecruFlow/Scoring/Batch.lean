import RecruFlow.Db.ProfileRepo
import RecruFlow.Dlq.Service
import RecruFlow.Ingestion.FetchRange
import Mathlib.Data.List.Sort

/-!
# Batch scoring

A batch selects the newest offers that the active profile has no score for,
scores them, and adds one row for each score. What the language model answers
is a parameter of the batch.
-/

namespace RecruFlow.Scoring

open Db Dlq Ingestion Schemas

/-- What `_score_offer` returns for an offer. -/
structure Score where
  scorePercent : Nat
  rationale : String
  deriving DecidableEq

/-- The arguments and surroundings of one batch. -/
structure BatchEnv where
  parseDatetime : PyValue → Option DateTime
  /-- `datetime.now(UTC)` while the row with the id is tested. -/
  now : Nat → Int
  connectors : List String
  limit : Nat
  /-- `_score_offer`: a score or the text of a `MatcherError`; another exception escapes. -/
  scoreOffer : Profile → OfferRow → Except PyError (Except String Score)
  /-- The start of the transaction, which dead letter rows carry. -/
  startedAt : Int

variable (env : BatchEnv)

/-- `posted_at DESC NULLS LAST`. -/
def comparePostedAt : Option DateTime → Option DateTime → Ordering
  | some a, some b => compare b.micros a.micros
  | some _, none => .lt
  | none, some _ => .gt
  | none, none => .eq

/-- `posted_at DESC NULLS LAST, created_at DESC, id DESC`. -/
def newerFirst (a b : OfferRow) : Bool :=
  ((comparePostedAt a.offer.postedAt b.offer.postedAt).then
    ((compare b.createdAt a.createdAt).then (compare b.id a.id))).isLE

def inFetchRange (row : OfferRow) (configJson : Dict) : Except PyError Bool := do
  let (since, limit) := resolveFetchRange env.parseDatetime (configJson.get "fetch_range")
  if since = none ∧ limit = none then pure true
  else do
    let date := row.offer.postedAt.getD ⟨env.now row.id, true⟩
    let outside ← outsideRange since limit date
    pure !outside

/-- The offers of a profile with an open scoring failure. -/
def openScoringFailures (db : Database) (profileId : Nat) : List Nat :=
  (db.scoringFailures.filter fun f => f.profileId = profileId ∧ f.status = .open).map (·.offerId)

def alreadyScored (db : Database) (profileId : Nat) : List Nat :=
  (db.matchScores.filter (·.profileId = profileId)).map (·.offerId)

/-- The offers of the connectors, each with its source. -/
def joinSources (db : Database) : List (OfferRow × Source) :=
  db.offers.filterMap fun row => do
    let source ← db.sources.find? (·.id = row.offer.sourceId)
    let connector ← source.connector
    if connector ∈ env.connectors then some (row, source) else none

def candidateScan (db : Database) (profileId : Nat) : List (OfferRow × Source) :=
  ((joinSources env db).filter fun p =>
    p.1.id ∉ alreadyScored db profileId ∧ p.1.id ∉ openScoringFailures db profileId).insertionSort
    fun a b => newerFirst a.1 b.1

structure CandidateSelection where
  selected : List (OfferRow × String)
  total : Nat

/-- The rows of the scan whose offer is in the fetch range of its source. -/
def inRangeRows : List (OfferRow × Source) → Except PyError (List (OfferRow × Source))
  | [] => .ok []
  | p :: ps => do
      let keep ← inFetchRange env p.1 p.2.configJson
      let rest ← inRangeRows ps
      pure (if keep then p :: rest else rest)

def selectScoringCandidates (db : Database) (profileId : Nat) :
    Except PyError CandidateSelection := do
  let inRange ← inRangeRows env (candidateScan env db profileId)
  -- the rows of the page are loaded again by id, in the order of the page
  pure ⟨(inRange.take env.limit).map fun p => (p.1, p.2.connector.getD ""), inRange.length⟩

def countAlreadyScored (db : Database) (profileId : Nat) : Nat :=
  (joinSources env db).countP fun p => p.1.id ∈ alreadyScored db profileId

/-- What a batch writes: score rows and failures, in the order of its offers. -/
structure BatchWrites where
  scores : List MatchScore := []
  failures : List ScoringFields := []

/-- The inner `_process`: offers outside the scope have no outcome. -/
def process (profile : Profile) (row : OfferRow) (connector : String) :
    Except PyError (Option (Except String Score)) :=
  if connector ∈ env.connectors then some <$> env.scoreOffer profile row else .ok none

/-- `score_offers_with_langchain`: the calls, then the rows. -/
def scoreOffersWithLangchain (profileRow : ProfileRow) :
    List (OfferRow × String) → Except PyError BatchWrites
  | [] => .ok {}
  | (row, connector) :: offers => do
      let profile := profileRow.data.getD .empty
      let outcome ← process env profile row connector
      let rest ← scoreOffersWithLangchain profileRow offers
      match outcome with
      | none => pure rest
      | some (.error message) => pure { rest with
          failures :=
            { dedupKey := s!"offer:{row.id}:profile:{profileRow.id}"
              failureType := .scoringFailed
              offerId := row.id
              profileId := profileRow.id
              errorMessage := message } :: rest.failures }
      | some (.ok score) => pure { rest with
          scores :=
            { offerId := row.id
              profileId := profileRow.id
              scorePercent := score.scorePercent
              rationale := score.rationale
              computedFrom := profile } :: rest.scores }

/-- The rows reach the tables; a failure is an upsert on its key. -/
def BatchWrites.apply (writes : BatchWrites) (startedAt : Int) (db : Database) : Database :=
  let db := writes.failures.foldl (fun db fields => recordScoringFailure startedAt fields db) db
  { db with matchScores := db.matchScores ++ writes.scores }

structure BatchScoringSummary where
  scored : Nat
  skipped : Nat
  failed : Nat
  remaining : Nat
  deriving DecidableEq

/-- What a batch reads: the active profile, its candidates, and how many are scored. -/
structure Batch where
  profileRow : ProfileRow
  selection : CandidateSelection
  skipped : Nat

/-- The first half of a batch, up to the counts; `none` without an active profile. -/
def selectBatch (db : Database) : Except PyError (Option Batch) :=
  match getActiveProfile db with
  | none => .ok none
  | some profileRow => do
      let selection ← selectScoringCandidates env db profileRow.id
      pure (some ⟨profileRow, selection, countAlreadyScored env db profileRow.id⟩)

/-- The second half: what the batch reports and what it flushes. -/
def scoreBatch : Option Batch → Except PyError (BatchScoringSummary × BatchWrites)
  | none => .ok (⟨0, 0, 0, 0⟩, {})
  | some batch => do
      let unscored := batch.selection.selected
      let writes ← scoreOffersWithLangchain env batch.profileRow unscored
      pure (⟨writes.scores.length, batch.skipped, unscored.length - writes.scores.length,
        batch.selection.total - unscored.length⟩, writes)

def runBatchScoring (db : Database) : Except PyError (BatchScoringSummary × Database) := do
  let batch ← selectBatch env db
  let (summary, writes) ← scoreBatch env batch
  pure (summary, writes.apply env.startedAt db)

/-! ## What a batch writes -/

variable {env} {db : Database} {writes : BatchWrites}

theorem scoreOffersWithLangchain_cons {profileRow : ProfileRow} {offer : OfferRow × String}
    {offers : List (OfferRow × String)}
    (h : scoreOffersWithLangchain env profileRow (offer :: offers) = .ok writes) :
    ∃ rest, scoreOffersWithLangchain env profileRow offers = .ok rest ∧
      (writes.scores = rest.scores ∨ ∃ score : MatchScore, writes.scores = score :: rest.scores ∧
        score.offerId = offer.1.id ∧ score.profileId = profileRow.id ∧
        score.computedFrom = profileRow.data.getD .empty) := by
  obtain ⟨row, connector⟩ := offer
  unfold scoreOffersWithLangchain at h
  obtain ⟨outcome, _, h⟩ := bind_ok h
  obtain ⟨rest, hrest, h⟩ := bind_ok h
  refine ⟨rest, hrest, ?_⟩
  rcases outcome with _ | (message | score)
  · exact .inl (by rw [← Except.ok.inj h])
  · exact .inl (by rw [← Except.ok.inj h])
  · exact .inr ⟨_, by rw [← Except.ok.inj h], rfl, rfl, rfl⟩

/-- The scores are of the profile as it was read, for some of the offers, each once. -/
theorem scoreOffersWithLangchain_scores {profileRow : ProfileRow}
    {offers : List (OfferRow × String)}
    (h : scoreOffersWithLangchain env profileRow offers = .ok writes) :
    (∀ s ∈ writes.scores, s.profileId = profileRow.id ∧
      s.computedFrom = profileRow.data.getD .empty) ∧
    (writes.scores.map (·.offerId)).Sublist (offers.map (·.1.id)) := by
  induction offers generalizing writes with
  | nil =>
      rw [← Except.ok.inj h]
      exact ⟨by simp, List.nil_sublist _⟩
  | cons offer offers ih =>
      obtain ⟨rest, hrest, hscores⟩ := scoreOffersWithLangchain_cons h
      obtain ⟨hall, hsub⟩ := ih hrest
      rcases hscores with hsame | ⟨score, hcons, hoffer, hprofile, hdata⟩
      · rw [hsame]
        exact ⟨hall, hsub.cons _⟩
      · rw [hcons, List.map_cons, List.map_cons, hoffer]
        refine ⟨?_, hsub.cons_cons _⟩
        intro s hs
        rcases List.mem_cons.mp hs with rfl | hs
        · exact ⟨hprofile, hdata⟩
        · exact hall s hs

theorem inRangeRows_sublist {ps inRange : List (OfferRow × Source)}
    (h : inRangeRows env ps = .ok inRange) : inRange.Sublist ps := by
  induction ps generalizing inRange with
  | nil =>
      rw [← Except.ok.inj h]
  | cons p ps ih =>
      unfold inRangeRows at h
      obtain ⟨keep, _, h⟩ := bind_ok h
      obtain ⟨rest, hrest, h⟩ := bind_ok h
      rw [← Except.ok.inj h]
      split
      · exact (ih hrest).cons_cons _
      · exact (ih hrest).cons _

theorem joinSources_fst (db : Database) :
    ((joinSources env db).map (·.1)).Sublist db.offers := by
  unfold joinSources
  induction db.offers with
  | nil => exact List.Sublist.refl _
  | cons row rows ih =>
      rw [List.filterMap_cons]
      split
      · exact ih.cons _
      · next p hp =>
        have hrow : p.1 = row := by
          obtain ⟨source, _, hp⟩ := Option.bind_eq_some_iff.mp hp
          obtain ⟨connector, _, hp⟩ := Option.bind_eq_some_iff.mp hp
          split at hp
          · rw [← Option.some.inj hp]
          · cases hp
        rw [List.map_cons, hrow]
        exact ih.cons_cons _

/-- The selected offers are stored, are not scored yet, and are each selected once. -/
theorem selectScoringCandidates_ok {profileId : Nat} {selection : CandidateSelection}
    (h : selectScoringCandidates env db profileId = .ok selection) :
    (∀ p ∈ selection.selected, p.1 ∈ db.offers ∧ p.1.id ∉ alreadyScored db profileId) ∧
      ((db.offers.map (·.id)).Nodup → (selection.selected.map (·.1.id)).Nodup) := by
  obtain ⟨inRange, hfilter, h⟩ := bind_ok h
  obtain rfl := Except.ok.inj h
  have hsub : inRange.Sublist (candidateScan env db profileId) := inRangeRows_sublist hfilter
  have hperm := List.perm_insertionSort
    (fun a b : OfferRow × Source => newerFirst a.1 b.1 = true)
    ((joinSources env db).filter fun p =>
      p.1.id ∉ alreadyScored db profileId ∧ p.1.id ∉ openScoringFailures db profileId)
  constructor
  · intro p hp
    obtain ⟨q, hq, rfl⟩ := List.mem_map.mp hp
    obtain ⟨hjoin, hnew⟩ := List.mem_filter.mp
      (hperm.mem_iff.mp (hsub.subset (List.mem_of_mem_take hq)))
    exact ⟨(joinSources_fst db).subset (List.mem_map_of_mem hjoin), (of_decide_eq_true hnew).1⟩
  · intro hnodup
    have hids : ((joinSources env db).map (·.1.id)).Nodup := by
      have := ((@joinSources_fst env db).map (·.id)).nodup hnodup
      rwa [List.map_map] at this
    have hscan : ((candidateScan env db profileId).map (·.1.id)).Nodup :=
      (hperm.map _).nodup_iff.mpr ((List.filter_sublist.map _).nodup hids)
    rw [List.map_map]
    exact (((List.take_sublist _ _).trans hsub).map _).nodup hscan

theorem foldl_recordScoringFailure {startedAt : Int} (failures : List ScoringFields)
    (db : Database) :
    ∃ rows, failures.foldl (fun db fields => recordScoringFailure startedAt fields db) db =
      { db with scoringFailures := rows } := by
  induction failures generalizing db with
  | nil => exact ⟨db.scoringFailures, rfl⟩
  | cons fields failures ih => exact ih (recordScoringFailure startedAt fields db)

/-- A batch touches the scores and the scoring failures only. -/
theorem apply_eq (writes : BatchWrites) (startedAt : Int) (db : Database) :
    ∃ rows, writes.apply startedAt db =
      { db with scoringFailures := rows, matchScores := db.matchScores ++ writes.scores } := by
  obtain ⟨rows, hrows⟩ := @foldl_recordScoringFailure startedAt writes.failures db
  exact ⟨rows, by rw [BatchWrites.apply, hrows]⟩

theorem selectBatch_some {batch : Batch} (h : selectBatch env db = .ok (some batch)) :
    getActiveProfile db = some batch.profileRow ∧
      selectScoringCandidates env db batch.profileRow.id = .ok batch.selection := by
  unfold selectBatch at h
  cases hprofile : getActiveProfile db with
  | none =>
      rw [hprofile] at h
      cases h
  | some profileRow =>
      simp only [hprofile] at h
      obtain ⟨selection, hselection, h⟩ := bind_ok h
      obtain rfl := Option.some.inj (Except.ok.inj h)
      exact ⟨rfl, hselection⟩

/-- The scores of a batch are of its profile, for its candidates, each once. -/
theorem scoreBatch_scores {batch : Option Batch} {summary : BatchScoringSummary}
    (h : scoreBatch env batch = .ok (summary, writes)) :
    writes.scores = [] ∨ ∃ b, batch = some b ∧
      (∀ s ∈ writes.scores, s.profileId = b.profileRow.id ∧
        s.computedFrom = b.profileRow.data.getD .empty) ∧
      (writes.scores.map (·.offerId)).Sublist (b.selection.selected.map (·.1.id)) := by
  cases batch with
  | none =>
      left
      rw [← (Prod.mk.inj (Except.ok.inj h)).2]
  | some b =>
      right
      obtain ⟨writes', hwrites, h⟩ := bind_ok h
      obtain rfl : writes' = writes := (Prod.mk.inj (Except.ok.inj h)).2
      obtain ⟨hall, hsub⟩ := scoreOffersWithLangchain_scores hwrites
      exact ⟨b, rfl, hall, hsub⟩

/-! ## A source with one offer -/

def remotiveSource : Source :=
  ⟨1, "remotive", some "remotive", ⟨[]⟩, none⟩

def acmeOffer : OfferRow :=
  { id := 1
    dedupHash := "hash"
    offer :=
      { sourceId := 1
        title := "Engineer"
        company := "Acme"
        valid := by decide }
    rawPayload := ⟨[]⟩
    createdAt := 0 }

def juniorProfile : Profile := { Profile.empty with headline := some "junior" }

/-- A batch whose model gives every offer the same score. -/
def sameScore : BatchEnv :=
  { parseDatetime := fun _ => none
    now := fun _ => 0
    connectors := ["remotive"]
    limit := 20
    scoreOffer := fun _ _ => .ok (.ok ⟨80, "fits"⟩)
    startedAt := 0 }

end RecruFlow.Scoring
