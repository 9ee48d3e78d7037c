import RecruFlow.Lib.Joined
import RecruFlow.Python.Text
import RecruFlow.Scoring.Selection

/-!
# The backlog of a profile

Every offer that a batch selects ends with a score or with an open failure. Both
make it ineligible, so that each batch shortens the backlog by its page.
-/

namespace RecruFlow.Scoring

open Db Dlq Ingestion Schemas

/-- The key of a scoring failure. -/
def scoringDedupKey (offerId profileId : Nat) : String :=
  s!"offer:{offerId}:profile:{profileId}"

/-- The rows of `scoring_failures` as batches write them: one for a key, which names
the offer and the profile. -/
structure FailuresKeyed (rows : List ScoringFailure) : Prop where
  nodup : (rows.map (·.dedupKey)).Nodup
  keyed : ∀ row ∈ rows, row.dedupKey = scoringDedupKey row.offerId row.profileId

/-- The answers of the language model to one batch, and when the batch starts. -/
structure ModelCalls where
  scoreOffer : Profile → OfferRow → Except String Score
  startedAt : Int

def BatchEnv.withCalls (env : BatchEnv) (calls : ModelCalls) : BatchEnv :=
  { env with
    scoreOffer := fun profile row => .ok (calls.scoreOffer profile row)
    startedAt := calls.startedAt }

/-- Batches one after another. -/
def runBatches (env : BatchEnv) : List ModelCalls → Database → Except PyError Database
  | [], db => .ok db
  | calls :: batches, db => do
      let (_, db) ← runBatchScoring (env.withCalls calls) db
      runBatches env batches db

def scoreCount (db : Database) (profileId offerId : Nat) : Nat :=
  db.matchScores.countP fun score => score.offerId = offerId ∧ score.profileId = profileId

def openFailureCount (db : Database) (profileId offerId : Nat) : Nat :=
  db.scoringFailures.countP fun f =>
    f.offerId = offerId ∧ f.profileId = profileId ∧ f.status = .open

/-- One score, or one open failure, and not both. -/
def ScoredOrFailed (db : Database) (profileId offerId : Nat) : Prop :=
  (scoreCount db profileId offerId = 1 ∧ openFailureCount db profileId offerId = 0) ∨
    (scoreCount db profileId offerId = 0 ∧ openFailureCount db profileId offerId = 1)

/-! ## The keys of scoring failures -/

theorem toString_inj {m n : Nat} (h : (toString m).toList = (toString n).toList) : m = n := by
  have hdigits : Nat.toDigits 10 m = Nat.toDigits 10 n := by
    simpa [Nat.toString_eq_ofList_toDigits] using h
  have hnumber := congrArg (fun digits => Nat.ofDigitChars 10 digits 0) hdigits
  simpa using hnumber

theorem scoringDedupKey_inj {offerId profileId offerId' profileId' : Nat}
    (h : scoringDedupKey offerId profileId = scoringDedupKey offerId' profileId') :
    offerId = offerId' ∧ profileId = profileId' := by
  have hlists : ∀ o p : Nat, (scoringDedupKey o p).toList =
      "offer:".toList ++ ((toString o).toList ++ ':' :: ("profile:".toList ++ (toString p).toList)) := by
    intro o p
    have hkey : scoringDedupKey o p = "offer:" ++ toString o ++ ":profile:" ++ toString p := rfl
    simp [hkey, String.toList_append]
  have h := congrArg String.toList h
  rw [hlists, hlists] at h
  have hcolon := @Python.notMem_toString ':' rfl
  obtain ⟨hoffer, hrest⟩ := Lib.Joined.split_inj_of_notMem (List.append_cancel_left h)
    (hcolon offerId) (hcolon offerId')
  have hprofile := List.append_cancel_left hrest
  exact ⟨toString_inj hoffer, toString_inj hprofile⟩

/-! ## Recording failures -/

section Failures

variable {startedAt : Int} {fields : ScoringFields} {db : Database} {profileId offerId : Nat}

/-- A failure with its own key keeps the rows keyed. -/
theorem recordScoringFailure_keyed
    (hkey : fields.dedupKey = scoringDedupKey fields.offerId fields.profileId)
    (h : FailuresKeyed db.scoringFailures) :
    FailuresKeyed (recordScoringFailure startedAt fields db).scoringFailures := by
  refine ⟨upsert_nodup (fun _ => rfl) h.nodup, fun row hrow => ?_⟩
  rcases upsert_mem_cases hrow with hold | rfl | ⟨old, hold, hsame, rfl⟩
  · exact h.keyed row hold
  · exact hkey
  · exact hsame.trans hkey

theorem recordScoringFailure_open :
    ∃ row ∈ (recordScoringFailure startedAt fields db).scoringFailures,
      row.offerId = fields.offerId ∧ row.profileId = fields.profileId ∧ row.status = .open := by
  obtain ⟨row, hrow, hcase⟩ := @upsert_mem ScoringFailure (·.dedupKey) (fields.new startedAt)
    (fields.update startedAt) db.scoringFailures
  refine ⟨row, hrow, ?_⟩
  rcases hcase with rfl | ⟨old, _, _, rfl⟩
  · exact ⟨rfl, rfl, rfl⟩
  · exact ⟨rfl, rfl, rfl⟩

theorem mem_openScoringFailures : offerId ∈ openScoringFailures db profileId ↔
    ∃ row ∈ db.scoringFailures,
      row.offerId = offerId ∧ row.profileId = profileId ∧ row.status = .open := by
  simp only [openScoringFailures, List.mem_map, List.mem_filter, decide_eq_true_eq]
  constructor
  · rintro ⟨row, ⟨hrow, hprofile, hopen⟩, hoffer⟩
    exact ⟨row, hrow, hoffer, hprofile, hopen⟩
  · rintro ⟨row, hrow, hoffer, hprofile, hopen⟩
    exact ⟨row, ⟨hrow, hprofile, hopen⟩, hoffer⟩

/-- A failure opens the row of its offer and leaves the others as they are. -/
theorem mem_openScoringFailures_record
    (hkey : fields.dedupKey = scoringDedupKey fields.offerId fields.profileId)
    (h : FailuresKeyed db.scoringFailures) :
    offerId ∈ openScoringFailures (recordScoringFailure startedAt fields db) profileId ↔
      offerId ∈ openScoringFailures db profileId ∨
        (offerId = fields.offerId ∧ profileId = fields.profileId) := by
  have hnew : fields.offerId ∈ openScoringFailures (recordScoringFailure startedAt fields db)
      fields.profileId := mem_openScoringFailures.mpr recordScoringFailure_open
  constructor
  · intro hmem
    obtain ⟨row, hrow, hoffer, hprofile, hopen⟩ := mem_openScoringFailures.mp hmem
    rcases upsert_mem_cases hrow with hold | rfl | ⟨old, hold, hsame, rfl⟩
    · exact .inl (mem_openScoringFailures.mpr ⟨row, hold, hoffer, hprofile, hopen⟩)
    · exact .inr ⟨hoffer.symm, hprofile.symm⟩
    · exact .inr ⟨hoffer.symm, hprofile.symm⟩
  · rintro (hmem | ⟨rfl, rfl⟩)
    · obtain ⟨row, hrow, rfl, rfl, hopen⟩ := mem_openScoringFailures.mp hmem
      by_cases hsame : row.dedupKey = fields.dedupKey
      · rw [hkey, h.keyed row hrow] at hsame
        obtain ⟨hoffer, hprofile⟩ := scoringDedupKey_inj hsame
        rw [hoffer, hprofile]
        exact hnew
      · exact mem_openScoringFailures.mpr ⟨row, upsert_other hrow hsame, rfl, rfl, hopen⟩
    · exact hnew

/-- Keyed rows hold at most one failure of an offer. -/
theorem openFailureCount_eq (h : FailuresKeyed db.scoringFailures) :
    openFailureCount db profileId offerId =
      if offerId ∈ openScoringFailures db profileId then 1 else 0 := by
  have hle : openFailureCount db profileId offerId ≤ 1 := calc
    openFailureCount db profileId offerId
        ≤ db.scoringFailures.countP (·.dedupKey == scoringDedupKey offerId profileId) := by
          refine List.countP_mono_left fun row hrow hcount => ?_
          obtain ⟨rfl, rfl, _⟩ := of_decide_eq_true hcount
          exact beq_iff_eq.mpr (h.keyed row hrow)
      _ = (db.scoringFailures.map (·.dedupKey)).count (scoringDedupKey offerId profileId) := by
          rw [List.count, List.countP_map]
          rfl
      _ ≤ 1 := List.nodup_iff_count_le_one.mp h.nodup _
  have hpos : 0 < openFailureCount db profileId offerId ↔
      offerId ∈ openScoringFailures db profileId := by
    rw [openFailureCount, List.countP_pos_iff, mem_openScoringFailures]
    simp
  split
  · next hmem =>
    have := hpos.mpr hmem
    omega
  · next hnot =>
    have := mt hpos.mp hnot
    omega

/-- The failures of a batch open the rows of their offers. -/
theorem foldl_recordScoringFailure_keyed {failures : List ScoringFields}
    (hfailures : ∀ f ∈ failures, f.profileId = profileId ∧
      f.dedupKey = scoringDedupKey f.offerId f.profileId)
    (h : FailuresKeyed db.scoringFailures) :
    let db' := failures.foldl (fun db fields => recordScoringFailure startedAt fields db) db
    FailuresKeyed db'.scoringFailures ∧ ∀ offerId, offerId ∈ openScoringFailures db' profileId ↔
      offerId ∈ openScoringFailures db profileId ∨ offerId ∈ failures.map (·.offerId) := by
  induction failures generalizing db with
  | nil => exact ⟨h, fun offerId => by simp⟩
  | cons fields failures ih =>
      obtain ⟨hprofile, hkey⟩ := hfailures fields List.mem_cons_self
      obtain ⟨hkeyed, hopen⟩ := ih (fun f hf => hfailures f (List.mem_cons_of_mem _ hf))
        (@recordScoringFailure_keyed startedAt fields db hkey h)
      refine ⟨hkeyed, fun offerId => ?_⟩
      have hrecord := @mem_openScoringFailures_record startedAt fields db profileId offerId hkey h
      rw [List.foldl_cons, hopen, hrecord, List.map_cons, List.mem_cons]
      constructor
      · rintro ((hold | ⟨hnew, _⟩) | hrest)
        · exact .inl hold
        · exact .inr (.inl hnew)
        · exact .inr (.inr hrest)
      · rintro (hold | hnew | hrest)
        · exact .inl (.inl hold)
        · exact .inl (.inr ⟨hnew, hprofile.symm⟩)
        · exact .inr hrest

end Failures

/-! ## One batch -/

section Batch

variable {env : BatchEnv} {calls : ModelCalls} {db : Database} {profileRow : ProfileRow}
  {offers : List (OfferRow × String)}

/-- The language model gives a score to the offer. -/
def ModelCalls.scores (calls : ModelCalls) (profileRow : ProfileRow) (row : OfferRow) : Bool :=
  (calls.scoreOffer (profileRow.data.getD .empty) row).isOk

/-- Every offer in the scope gets a score row or a failure. -/
theorem scoreOffersWithLangchain_split (hscope : ∀ p ∈ offers, p.2 ∈ env.connectors) :
    ∃ writes, scoreOffersWithLangchain (env.withCalls calls) profileRow offers = .ok writes ∧
      writes.scores.map (·.offerId) =
        (offers.filter fun p => calls.scores profileRow p.1).map (·.1.id) ∧
      (∀ s ∈ writes.scores, s.profileId = profileRow.id) ∧
      writes.failures.map (·.offerId) =
        (offers.filter fun p => !calls.scores profileRow p.1).map (·.1.id) ∧
      ∀ f ∈ writes.failures, f.profileId = profileRow.id ∧
        f.dedupKey = scoringDedupKey f.offerId f.profileId := by
  induction offers with
  | nil => exact ⟨{}, rfl, rfl, by simp, rfl, by simp⟩
  | cons p offers ih =>
      obtain ⟨row, connector⟩ := p
      obtain ⟨rest, hrest, hscores, hprofiles, hfailures, hkeys⟩ :=
        ih fun q hq => hscope q (List.mem_cons_of_mem _ hq)
      have hin : connector ∈ (env.withCalls calls).connectors := hscope _ List.mem_cons_self
      have hprocess : process (env.withCalls calls) (profileRow.data.getD .empty) row connector =
          .ok (some (calls.scoreOffer (profileRow.data.getD .empty) row)) := by
        rw [process, if_pos hin]
        rfl
      rw [scoreOffersWithLangchain, hprocess, hrest]
      cases hcall : calls.scoreOffer (profileRow.data.getD .empty) row with
      | error message =>
          have hnot : calls.scores profileRow row = false := by rw [ModelCalls.scores, hcall]; rfl
          refine ⟨_, rfl, ?_, hprofiles, ?_, ?_⟩
          · rw [hscores, List.filter_cons_of_neg (by simp [hnot])]
          · rw [List.map_cons, hfailures, List.filter_cons_of_pos (by simp [hnot]), List.map_cons]
          · intro f hf
            rcases List.mem_cons.mp hf with rfl | hf
            · exact ⟨rfl, rfl⟩
            · exact hkeys f hf
      | ok score =>
          have hyes : calls.scores profileRow row = true := by rw [ModelCalls.scores, hcall]; rfl
          refine ⟨_, rfl, ?_, ?_, ?_, hkeys⟩
          · rw [List.map_cons, hscores, List.filter_cons_of_pos (by simp [hyes]), List.map_cons]
          · intro s hs
            rcases List.mem_cons.mp hs with rfl | hs
            · rfl
            · exact hprofiles s hs
          · rw [hfailures, List.filter_cons_of_neg (by simp [hyes])]

/-- What a batch does to the database: every offer of its page gets an outcome,
and no other offer does. -/
structure PageDone (profileId : Nat) (page : List OfferRow) (db db' : Database) : Prop where
  offers : db'.offers = db.offers
  sources : db'.sources = db.sources
  profiles : db'.profiles = db.profiles
  keyed : FailuresKeyed db'.scoringFailures
  hasOutcome : ∀ row, HasOutcome db' profileId row ↔
    HasOutcome db profileId row ∨ row.id ∈ page.map (·.id)
  scoredOrFailed : ∀ row ∈ page, ScoredOrFailed db' profileId row.id

variable {profileId offerId : Nat}

theorem mem_alreadyScored : offerId ∈ alreadyScored db profileId ↔
    ∃ score ∈ db.matchScores, score.offerId = offerId ∧ score.profileId = profileId := by
  simp only [alreadyScored, List.mem_map, List.mem_filter, decide_eq_true_eq]
  constructor
  · rintro ⟨score, ⟨hscore, hprofile⟩, hoffer⟩
    exact ⟨score, hscore, hoffer, hprofile⟩
  · rintro ⟨score, hscore, hoffer, hprofile⟩
    exact ⟨score, ⟨hscore, hprofile⟩, hoffer⟩

theorem scoreCount_eq_zero (h : offerId ∉ alreadyScored db profileId) :
    scoreCount db profileId offerId = 0 := by
  refine List.countP_eq_zero.mpr fun score hscore hcount => h ?_
  exact mem_alreadyScored.mpr ⟨score, hscore, of_decide_eq_true hcount⟩

/-- The new score rows of a profile, counted by their offers. -/
theorem countP_scores {scores : List MatchScore} (h : ∀ s ∈ scores, s.profileId = profileId) :
    scores.countP (fun s => s.offerId = offerId ∧ s.profileId = profileId) =
      (scores.map (·.offerId)).count offerId := by
  rw [List.count, List.countP_map]
  refine List.countP_congr fun s hs => ?_
  simp [h s hs]

theorem mem_map_filter_split (page : List OfferRow) (p : OfferRow → Bool) {id : Nat} :
    id ∈ page.map (·.id) ↔
      id ∈ (page.filter p).map (·.id) ∨ id ∈ (page.filter fun row => !p row).map (·.id) := by
  simp only [List.mem_map, List.mem_filter]
  constructor
  · rintro ⟨row, hrow, rfl⟩
    cases hp : p row with
    | true => exact .inl ⟨row, ⟨hrow, hp⟩, rfl⟩
    | false => exact .inr ⟨row, ⟨hrow, by simp [hp]⟩, rfl⟩
  · rintro (⟨row, ⟨hrow, _⟩, rfl⟩ | ⟨row, ⟨hrow, _⟩, rfl⟩)
    · exact ⟨row, hrow, rfl⟩
    · exact ⟨row, hrow, rfl⟩

theorem mem_filter_of_nodup {page : List OfferRow} {p : OfferRow → Bool} {row : OfferRow}
    (hpage : (page.map (·.id)).Nodup) (hrow : row ∈ page) :
    row.id ∈ (page.filter p).map (·.id) ↔ p row = true := by
  rw [List.mem_map]
  constructor
  · rintro ⟨other, hother, hid⟩
    obtain ⟨hmem, hp⟩ := List.mem_filter.mp hother
    rwa [List.inj_on_of_nodup_map hpage hmem hrow hid] at hp
  · exact fun hp => ⟨row, List.mem_filter.mpr ⟨hrow, hp⟩, rfl⟩

/-- Writing the outcomes of a page of offers that had none. -/
theorem apply_pageDone {page : List OfferRow} {writes : BatchWrites} {isScored : OfferRow → Bool}
    {startedAt : Int} (hkeyed : FailuresKeyed db.scoringFailures)
    (hpage : (page.map (·.id)).Nodup) (hnone : ∀ row ∈ page, ¬ HasOutcome db profileId row)
    (hscores : writes.scores.map (·.offerId) = (page.filter isScored).map (·.id))
    (hprofiles : ∀ s ∈ writes.scores, s.profileId = profileId)
    (hfailures : writes.failures.map (·.offerId) = (page.filter fun row => !isScored row).map (·.id))
    (hkeys : ∀ f ∈ writes.failures, f.profileId = profileId ∧
      f.dedupKey = scoringDedupKey f.offerId f.profileId) :
    PageDone profileId page db (writes.apply startedAt db) := by
  obtain ⟨rows, hrows⟩ := @foldl_recordScoringFailure startedAt writes.failures db
  obtain ⟨hkeyed', hopen⟩ :=
    @foldl_recordScoringFailure_keyed startedAt db profileId writes.failures hkeys hkeyed
  rw [hrows] at hkeyed' hopen
  have happly : writes.apply startedAt db =
      { db with scoringFailures := rows, matchScores := db.matchScores ++ writes.scores } := by
    rw [BatchWrites.apply, hrows]
  have hmatchScores : (writes.apply startedAt db).matchScores = db.matchScores ++ writes.scores := by
    rw [happly]
  have hkeyed' : FailuresKeyed (writes.apply startedAt db).scoringFailures := by
    rw [happly]
    exact hkeyed'
  have hopen : ∀ offerId, offerId ∈ openScoringFailures (writes.apply startedAt db) profileId ↔
      offerId ∈ openScoringFailures db profileId ∨
        offerId ∈ (page.filter fun row => !isScored row).map (·.id) := by
    rw [happly, ← hfailures]
    exact hopen
  have hscored : ∀ offerId, offerId ∈ alreadyScored (writes.apply startedAt db) profileId ↔
      offerId ∈ alreadyScored db profileId ∨ offerId ∈ (page.filter isScored).map (·.id) := by
    intro offerId
    rw [← hscores, mem_alreadyScored, mem_alreadyScored, List.mem_map, hmatchScores]
    constructor
    · rintro ⟨score, hscore, hoffer, hprofile⟩
      rcases List.mem_append.mp hscore with hold | hnew
      · exact .inl ⟨score, hold, hoffer, hprofile⟩
      · exact .inr ⟨score, hnew, hoffer⟩
    · rintro (⟨score, hold, hoffer, hprofile⟩ | ⟨score, hnew, hoffer⟩)
      · exact ⟨score, List.mem_append_left _ hold, hoffer, hprofile⟩
      · exact ⟨score, List.mem_append_right _ hnew, hoffer, hprofiles score hnew⟩
  refine ⟨by rw [happly], by rw [happly], by rw [happly], hkeyed', fun row => ?_, fun row hrow => ?_⟩
  · rw [HasOutcome, hscored, hopen, HasOutcome, mem_map_filter_split page isScored]
    tauto
  · obtain ⟨hunscored, hclosed⟩ := not_or.mp (hnone row hrow)
    have hcount : scoreCount (writes.apply startedAt db) profileId row.id =
        ((page.filter isScored).map (·.id)).count row.id := by
      rw [scoreCount, hmatchScores, List.countP_append, countP_scores hprofiles, hscores]
      exact (congrArg (· + _) (scoreCount_eq_zero hunscored)).trans (Nat.zero_add _)
    have hnodup : ((page.filter isScored).map (·.id)).Nodup :=
      (List.filter_sublist.map _).nodup hpage
    rw [ScoredOrFailed, hcount, hnodup.count, openFailureCount_eq hkeyed']
    simp only [hopen, mem_filter_of_nodup hpage hrow]
    cases hrowScored : isScored row with
    | true => simp [hclosed]
    | false => simp

variable {now : Int}

/-- What a batch selects: the first page of the candidates. -/
def selectedPage (env : BatchEnv) (now : Int) (db : Database) (profileId : Nat) :
    List (OfferRow × String) :=
  ((candidates env now db profileId).take env.limit).map fun p => (p.1, p.2.connector.getD "")

theorem selectedPage_fst : (selectedPage env now db profileId).map (·.1) =
    ((candidates env now db profileId).map (·.1)).take env.limit := by
  rw [selectedPage, List.map_map, ← List.map_take]
  rfl

theorem mem_selectedPage {p : OfferRow × String} (h : p ∈ selectedPage env now db profileId) :
    ¬ HasOutcome db profileId p.1 ∧ p.2 ∈ env.connectors := by
  obtain ⟨q, hq, rfl⟩ := List.mem_map.mp h
  have hscan := mem_candidateScan.mp (List.mem_filter.mp (List.mem_of_mem_take hq)).1
  obtain ⟨_, _, connector, hconnector, hin⟩ := mem_joinSources.mp hscan.1
  have hconnector : q.2.connector = some connector := hconnector
  refine ⟨hscan.2, ?_⟩
  rw [hconnector]
  exact hin

theorem selectedPage_nodup (htables : ScoringTables env db) :
    (((selectedPage env now db profileId).map (·.1)).map (·.id)).Nodup := by
  rw [selectedPage_fst, List.map_take, List.map_map]
  exact (List.take_sublist _ _).nodup (candidates_nodup htables)

theorem map_filter_fst (offers : List (OfferRow × String)) (f : OfferRow → Bool) :
    (offers.filter fun p => f p.1).map (·.1.id) = ((offers.map (·.1)).filter f).map (·.id) := by
  rw [List.filter_map, List.map_map]
  rfl

theorem ScoringTables.withCalls (h : ScoringTables env db) :
    ScoringTables (env.withCalls calls) db :=
  ⟨h.offer_ids, h.source_ids, h.posted_aware, h.since_aware, h.until_aware⟩

/-- A batch of the active profile gives every offer of its page an outcome. -/
theorem runBatchScoring_pageDone (htables : ScoringTables env db) (hnow : ∀ id, env.now id = now)
    (hkeyed : FailuresKeyed db.scoringFailures) (hprofile : getActiveProfile db = some profileRow) :
    ∃ summary db', runBatchScoring (env.withCalls calls) db = .ok (summary, db') ∧
      PageDone profileRow.id ((selectedPage env now db profileRow.id).map (·.1)) db db' ∧
      summary.scored + summary.failed = (selectedPage env now db profileRow.id).length ∧
      summary.remaining = (candidates env now db profileRow.id).length -
        (selectedPage env now db profileRow.id).length := by
  have hselect : selectScoringCandidates (env.withCalls calls) db profileRow.id =
      .ok ⟨selectedPage env now db profileRow.id, (candidates env now db profileRow.id).length⟩ :=
    selectScoringCandidates_eq htables.withCalls hnow
  have hscope : ∀ p ∈ selectedPage env now db profileRow.id, p.2 ∈ env.connectors :=
    fun p hp => (mem_selectedPage hp).2
  obtain ⟨writes, hwrites, hscores, hprofiles, hfailures, hkeys⟩ :=
    @scoreOffersWithLangchain_split env calls profileRow _ hscope
  have hlength : writes.scores.length ≤ (selectedPage env now db profileRow.id).length := by
    have hcount := congrArg List.length hscores
    rw [List.length_map, List.length_map] at hcount
    rw [hcount]
    exact List.length_filter_le _ _
  rw [map_filter_fst _ (calls.scores profileRow)] at hscores
  rw [map_filter_fst _ fun row => !calls.scores profileRow row] at hfailures
  have hnone : ∀ row ∈ (selectedPage env now db profileRow.id).map (·.1),
      ¬ HasOutcome db profileRow.id row := by
    intro row hrow
    obtain ⟨p, hp, rfl⟩ := List.mem_map.mp hrow
    exact (mem_selectedPage hp).1
  have hdone := @apply_pageDone db profileRow.id _ writes _ calls.startedAt hkeyed
    (selectedPage_nodup htables) hnone hscores hprofiles hfailures hkeys
  have hrun : runBatchScoring (env.withCalls calls) db =
      .ok (⟨writes.scores.length, countAlreadyScored env db profileRow.id,
        (selectedPage env now db profileRow.id).length - writes.scores.length,
        (candidates env now db profileRow.id).length -
          (selectedPage env now db profileRow.id).length⟩, writes.apply calls.startedAt db) := by
    simp only [runBatchScoring, selectBatch, hprofile, hselect, scoreBatch, hwrites, bind,
      Except.bind, pure, Except.pure]
    rfl
  exact ⟨_, _, hrun, hdone, Nat.add_sub_cancel' hlength, rfl⟩

end Batch

/-! ## The backlog -/

section Drain

variable {env : BatchEnv} {now : Int} {db db' : Database} {profileId : Nat}
  {profileRow : ProfileRow}

theorem PageDone.tables {offers : List OfferRow} (h : PageDone profileId offers db db')
    (htables : ScoringTables env db) : ScoringTables env db' := by
  obtain ⟨hids, hsources, hposted, hsince, huntil⟩ := htables
  refine ⟨?_, ?_, ?_, ?_, ?_⟩
  · rwa [h.offers]
  · rwa [h.sources]
  · rwa [h.offers]
  · rwa [h.sources]
  · rwa [h.sources]

/-- After a batch, what was eligible and not on the page still is. -/
theorem PageDone.eligible_iff {offers : List OfferRow} {row : OfferRow}
    (h : PageDone profileId offers db db') (htables : ScoringTables env db)
    (hoffers : ∀ row ∈ offers, row ∈ db.offers) :
    Eligible env now db' profileId row ↔ Eligible env now db profileId row ∧ row ∉ offers := by
  have hid : row ∈ db.offers → (row.id ∈ offers.map (·.id) ↔ row ∈ offers) := by
    intro hrow
    rw [List.mem_map]
    constructor
    · rintro ⟨other, hother, hid⟩
      rwa [← List.inj_on_of_nodup_map htables.offer_ids (hoffers other hother) hrow hid]
    · exact fun hmem => ⟨row, hmem, rfl⟩
  rw [Eligible, Eligible, h.offers, h.sources, h.hasOutcome]
  constructor
  · rintro ⟨hrow, hnone, hsource⟩
    obtain ⟨hold, hpage⟩ := not_or.mp hnone
    exact ⟨⟨hrow, hold, hsource⟩, mt (hid hrow).mpr hpage⟩
  · rintro ⟨⟨hrow, hold, hsource⟩, hpage⟩
    exact ⟨hrow, not_or.mpr ⟨hold, mt (hid hrow).mp hpage⟩, hsource⟩

theorem mem_drop_iff {α : Type} {xs : List α} (h : xs.Nodup) {n : Nat} {x : α} :
    x ∈ xs.drop n ↔ x ∈ xs ∧ x ∉ xs.take n := by
  rw [← List.take_append_drop n xs] at h
  obtain ⟨_, _, hdisjoint⟩ := List.nodup_append.mp h
  constructor
  · exact fun hdrop => ⟨List.mem_of_mem_drop hdrop, fun htake => hdisjoint x htake x hdrop rfl⟩
  · rintro ⟨hmem, hnot⟩
    rw [← List.take_append_drop n xs] at hmem
    exact (List.mem_append.mp hmem).resolve_left hnot

theorem candidates_fst_nodup (htables : ScoringTables env db) :
    ((candidates env now db profileId).map (·.1)).Nodup := by
  have hids := @candidates_nodup env now db profileId htables
  refine List.Nodup.of_map (·.id) ?_
  rwa [List.map_map]

/-- A batch shortens the backlog by its page. -/
theorem PageDone.candidates_length
    (h : PageDone profileId ((selectedPage env now db profileId).map (·.1)) db db')
    (htables : ScoringTables env db) :
    (candidates env now db' profileId).length =
      (candidates env now db profileId).length - env.limit := by
  have hoffers : ∀ row ∈ (selectedPage env now db profileId).map (·.1), row ∈ db.offers := by
    rw [selectedPage_fst]
    exact fun row hrow => ((mem_candidates_iff htables).mp (List.mem_of_mem_take hrow)).1
  have hmem : ∀ row, row ∈ (candidates env now db' profileId).map (·.1) ↔
      row ∈ ((candidates env now db profileId).map (·.1)).drop env.limit := by
    intro row
    rw [mem_candidates_iff (h.tables htables), h.eligible_iff htables hoffers,
      mem_drop_iff (candidates_fst_nodup htables), mem_candidates_iff htables, selectedPage_fst]
  have hperm := (List.perm_ext_iff_of_nodup (candidates_fst_nodup (h.tables htables))
    ((List.drop_sublist _ _).nodup (candidates_fst_nodup htables))).mpr hmem
  have hlength := hperm.length_eq
  rwa [List.length_map, List.length_drop, List.length_map] at hlength

/-- Enough batches leave no candidate. -/
theorem runBatches_drain (batches : List ModelCalls) (htables : ScoringTables env db)
    (hnow : ∀ id, env.now id = now) (hkeyed : FailuresKeyed db.scoringFailures)
    (hprofile : getActiveProfile db = some profileRow)
    (henough : (candidates env now db profileRow.id).length ≤ batches.length * env.limit) :
    ∃ db', runBatches env batches db = .ok db' ∧ ScoringTables env db' ∧
      candidates env now db' profileRow.id = [] := by
  induction batches generalizing db with
  | nil =>
      rw [List.length_nil, Nat.zero_mul] at henough
      exact ⟨db, rfl, htables, List.eq_nil_of_length_eq_zero (Nat.le_zero.mp henough)⟩
  | cons calls batches ih =>
      obtain ⟨summary, db₁, hrun, hdone, _⟩ :=
        @runBatchScoring_pageDone env calls db profileRow now htables hnow hkeyed hprofile
      have hprofile₁ : getActiveProfile db₁ = some profileRow := by
        rw [getActiveProfile, hdone.profiles]
        exact hprofile
      have henough₁ : (candidates env now db₁ profileRow.id).length ≤
          batches.length * env.limit := by
        rw [hdone.candidates_length htables]
        rw [List.length_cons, Nat.succ_mul] at henough
        omega
      obtain ⟨db', hrest, htables', hempty⟩ :=
        ih (hdone.tables htables) hdone.keyed hprofile₁ henough₁
      refine ⟨db', ?_, htables', hempty⟩
      rw [runBatches, hrun]
      exact hrest

/-- The selection is the first page of the eligible offers, newest first. A batch
gives each of them one outcome, and as many batches as the backlog has pages
leave nothing eligible. -/
theorem scoring_backlog_drains (htables : ScoringTables env db) (hnow : ∀ id, env.now id = now)
    (hkeyed : FailuresKeyed db.scoringFailures) :
    ∃ ordered : List OfferRow,
      ordered.Nodup ∧ (∀ row, row ∈ ordered ↔ Eligible env now db profileId row) ∧
      ordered.Pairwise (fun a b => newerFirst a b = true) ∧
      (∃ selection, selectHydratedCandidates env db profileId = .ok selection ∧
        selectScoringCandidates env db profileId = .ok selection ∧
        selection.selected.map (·.1) = ordered.take env.limit ∧
        selection.total = ordered.length) ∧
      ∀ profileRow, getActiveProfile db = some profileRow → profileRow.id = profileId →
        (∀ calls, ∃ summary db', runBatchScoring (env.withCalls calls) db = .ok (summary, db') ∧
          (∀ row ∈ ordered.take env.limit, ScoredOrFailed db' profileId row.id) ∧
          summary.scored + summary.failed = (ordered.take env.limit).length ∧
          summary.remaining = ordered.length - (ordered.take env.limit).length) ∧
        ∀ batches : List ModelCalls, 0 < env.limit →
          batches.length = (ordered.length + env.limit - 1) / env.limit →
          ∃ db', runBatches env batches db = .ok db' ∧
            ∀ row, ¬ Eligible env now db' profileId row := by
  refine ⟨(candidates env now db profileId).map (·.1), candidates_fst_nodup htables,
    fun row => mem_candidates_iff htables, ?_, ?_, ?_⟩
  · exact List.pairwise_map.mpr (candidateScan_sorted.filter _)
  · refine ⟨_, ?_, selectScoringCandidates_eq htables hnow, selectedPage_fst, ?_⟩
    · rw [selectHydratedCandidates_eq htables hnow]
      exact selectScoringCandidates_eq htables hnow
    · rw [List.length_map]
  · rintro profileRow hprofile rfl
    have hpage : (selectedPage env now db profileRow.id).length =
        (((candidates env now db profileRow.id).map (·.1)).take env.limit).length := by
      rw [← selectedPage_fst, List.length_map]
    constructor
    · intro calls
      obtain ⟨summary, db', hrun, hdone, hcounts, hremaining⟩ :=
        @runBatchScoring_pageDone env calls db profileRow now htables hnow hkeyed hprofile
      refine ⟨summary, db', hrun, ?_, ?_, ?_⟩
      · rw [← selectedPage_fst]
        exact hdone.scoredOrFailed
      · rw [hcounts, hpage]
      · rw [hremaining, hpage, List.length_map]
    · intro batches hlimit hbatches
      rw [List.length_map] at hbatches
      have henough : (candidates env now db profileRow.id).length ≤ batches.length * env.limit := by
        have := Nat.div_add_mod ((candidates env now db profileRow.id).length + env.limit - 1) env.limit
        have := Nat.mod_lt ((candidates env now db profileRow.id).length + env.limit - 1) hlimit
        rw [hbatches, Nat.mul_comm]
        omega
      obtain ⟨db', hruns, htables', hempty⟩ :=
        runBatches_drain batches htables hnow hkeyed hprofile henough
      refine ⟨db', hruns, fun row heligible => ?_⟩
      have hmem := (mem_candidates_iff htables').mpr heligible
      rw [hempty] at hmem
      cases hmem

end Drain

/-! ## Two offers, one a batch -/

def twoOffersDb : Database :=
  { sources := [remotiveSource]
    offers := [acmeOffer, { acmeOffer with id := 2, dedupHash := "hash 2" }]
    profiles := [⟨1, "junior", .active, true, some juniorProfile⟩] }

def oneByOne : BatchEnv :=
  { sameScore with limit := 1 }

/-- The model scores the first offer and fails on the second. -/
def mixedCalls : List ModelCalls :=
  [⟨fun _ _ => .ok ⟨80, "fits"⟩, 0⟩, ⟨fun _ _ => .error "timeout", 1⟩]

theorem twoOffersDb_tables : ScoringTables oneByOne twoOffersDb where
  offer_ids := by decide
  source_ids := by decide
  posted_aware := by
    intro row hrow posted hposted
    simp only [twoOffersDb, List.mem_cons, List.not_mem_nil, or_false] at hrow
    rcases hrow with rfl | rfl
    · cases hposted
    · cases hposted
  since_aware := by
    intro source hsource since hsince
    obtain rfl := List.mem_singleton.mp hsource
    cases hsince
  until_aware := by
    intro source hsource limit hlimit
    obtain rfl := List.mem_singleton.mp hsource
    cases hlimit

theorem scoring_backlog_drains_two : ∃ db', runBatches oneByOne mixedCalls twoOffersDb = .ok db' ∧
    ∀ row, ¬ Eligible oneByOne 0 db' 1 row := by
  have hkeyed : FailuresKeyed twoOffersDb.scoringFailures :=
    ⟨List.nodup_nil, fun row hrow => absurd hrow List.not_mem_nil⟩
  obtain ⟨ordered, _, _, _, ⟨selection, _, hselect, _, htotal⟩, hbatches⟩ :=
    @scoring_backlog_drains oneByOne 0 twoOffersDb 1 twoOffersDb_tables (fun _ => rfl) hkeyed
  have htwo : ordered.length = 2 := htotal.symm.trans (congrArg CandidateSelection.total
    (Except.ok.inj hselect).symm)
  refine (hbatches _ rfl rfl).2 mixedCalls (by decide) ?_
  rw [htwo]
  rfl

end RecruFlow.Scoring
