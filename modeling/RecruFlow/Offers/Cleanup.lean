import RecruFlow.Offers.Routes

/-!
# Offer cleanup

A cleanup deletes the offers that are old and in no application, and the rows that refer
to them. It is exact unless an application refers to a CV version of such an offer; an
application names its offer and its CV version on their own.
-/

namespace RecruFlow.Offers

open Db Lib.Transaction

/-- The primary keys that the cleanup goes by, and the foreign keys of the tables. -/
structure DeclaredKeys (db : Database) : Prop where
  offer_ids : (db.offers.map (·.id)).Nodup
  cv_version_ids : (db.cvVersions.map (·.id)).Nodup
  offer_source : ∀ row ∈ db.offers, ∃ source ∈ db.sources, (source.id : Int) = row.offer.sourceId
  cv_offer : ∀ cv ∈ db.cvVersions, ∃ row ∈ db.offers, row.id = cv.offerId
  cv_profile : ∀ cv ∈ db.cvVersions, ∃ profile ∈ db.profiles, profile.id = cv.profileId
  score_offer : ∀ score ∈ db.matchScores, ∃ row ∈ db.offers, row.id = score.offerId
  score_profile : ∀ score ∈ db.matchScores, ∃ profile ∈ db.profiles, profile.id = score.profileId
  application_offer : ∀ a ∈ db.applications, ∃ row ∈ db.offers, row.id = a.offerId
  application_profile : ∀ a ∈ db.applications, ∃ profile ∈ db.profiles, profile.id = a.profileId
  application_cv : ∀ a ∈ db.applications, ∀ id ∈ a.cvVersionId, ∃ cv ∈ db.cvVersions, cv.id = id
  run_source : ∀ run ∈ db.schedulerRuns, ∃ source ∈ db.sources, source.id = run.sourceId
  failure_source : ∀ row ∈ db.ingestionFailures, ∃ source ∈ db.sources,
    (source.id : Int) = row.sourceId
  failure_run : ∀ row ∈ db.ingestionFailures, ∀ id ∈ row.schedulerRunId,
    ∃ run ∈ db.schedulerRuns, run.id = id
  scoring_failure_offer : ∀ row ∈ db.scoringFailures, ∃ offer ∈ db.offers, offer.id = row.offerId
  scoring_failure_profile : ∀ row ∈ db.scoringFailures,
    ∃ profile ∈ db.profiles, profile.id = row.profileId

/-- The offer is older than the cutoff, and in no application. -/
def Deletable (cutoff : Int) (db : Database) (row : OfferRow) : Prop :=
  postedBefore cutoff row = true ∧ ∀ a ∈ db.applications, a.offerId ≠ row.id

instance (cutoff : Int) (db : Database) (row : OfferRow) : Decidable (Deletable cutoff db row) :=
  inferInstanceAs (Decidable (_ ∧ _))

/-- The id is that of a deletable offer. -/
def OfDeletable (cutoff : Int) (db : Database) (offerId : Nat) : Prop :=
  ∃ row ∈ db.offers, Deletable cutoff db row ∧ row.id = offerId

instance (cutoff : Int) (db : Database) (offerId : Nat) : Decidable (OfDeletable cutoff db offerId) :=
  inferInstanceAs (Decidable (∃ row ∈ db.offers, _))

/-- The database without the deletable offers and the rows that belong to them. -/
def cleaned (cutoff : Int) (db : Database) : Database :=
  { db with
    offers := db.offers.filter (¬ Deletable cutoff db ·)
    matchScores := db.matchScores.filter (¬ OfDeletable cutoff db ·.offerId)
    scoringFailures := db.scoringFailures.filter (¬ OfDeletable cutoff db ·.offerId)
    cvVersions := db.cvVersions.filter (¬ OfDeletable cutoff db ·.offerId) }

/-- The route succeeds, deletes what it has to and nothing else, leaves no reference
dangling, and counts as its preview does. -/
structure CleanupExact (maxArguments : Nat) (cutoff : Int) (db : Database) : Prop where
  counted : ∃ skipped, deleteOffers maxArguments cutoff db =
      .ok ((db.offers.countP (Deletable cutoff db ·), skipped), cleaned cutoff db) ∧
    previewOfferCleanup maxArguments cutoff db =
      .ok (db.offers.countP (Deletable cutoff db ·), skipped) ∧
    db.offers.countP (Deletable cutoff db ·) + skipped = db.offers.countP (postedBefore cutoff)
  keys : DeclaredKeys (cleaned cutoff db)

/-- The statements have few enough arguments, and no application refers to a CV version
of a deletable offer. -/
structure CleanupPossible (maxArguments : Nat) (cutoff : Int) (db : Database) : Prop where
  arguments : db.offers.countP (postedBefore cutoff) ≤ maxArguments
  apart : ∀ cv ∈ db.cvVersions, OfDeletable cutoff db cv.offerId →
    ∀ a ∈ db.applications, a.cvVersionId ≠ some cv.id

variable {maxArguments : Nat} {cutoff : Int} {db : Database} {row : OfferRow} {s : Session}
  {ids : List Nat}

def candidateIds (cutoff : Int) (db : Database) : List Nat :=
  (db.offers.filter (postedBefore cutoff)).map (·.id)

def pipelineIds (cutoff : Int) (db : Database) : List Nat :=
  ((db.applications.map (·.offerId)).filter (· ∈ candidateIds cutoff db)).dedup

def deletableIds (cutoff : Int) (db : Database) : List Nat :=
  (db.offers.filter (Deletable cutoff db ·)).map (·.id)

/-! ## The two parts of the candidates -/

theorem candidateIds_length :
    (candidateIds cutoff db).length = db.offers.countP (postedBefore cutoff) := by
  rw [candidateIds, List.length_map, List.countP_eq_length_filter]

theorem deletableIds_length :
    (deletableIds cutoff db).length = db.offers.countP (Deletable cutoff db ·) := by
  rw [deletableIds, List.length_map, List.countP_eq_length_filter]

theorem mem_deletableIds {offerId : Nat} :
    offerId ∈ deletableIds cutoff db ↔ OfDeletable cutoff db offerId := by
  simp only [deletableIds, List.mem_map, List.mem_filter, decide_eq_true_eq, OfDeletable, and_assoc]

theorem mem_pipelineIds (hrow : row ∈ db.offers) (hposted : postedBefore cutoff row = true) :
    row.id ∈ pipelineIds cutoff db ↔ ¬ Deletable cutoff db row := by
  have hcandidate : row.id ∈ candidateIds cutoff db :=
    List.mem_map.mpr ⟨row, List.mem_filter.mpr ⟨hrow, hposted⟩, rfl⟩
  rw [pipelineIds, List.mem_dedup, List.mem_filter, List.mem_map]
  constructor
  · rintro ⟨⟨a, ha, hid⟩, _⟩ hdeletable
    exact hdeletable.2 a ha hid
  · intro hnot
    have hin : ¬ ∀ a ∈ db.applications, a.offerId ≠ row.id := fun hall => hnot ⟨hposted, hall⟩
    push Not at hin
    exact ⟨hin, decide_eq_true hcandidate⟩

theorem candidateIds_filter :
    (candidateIds cutoff db).filter (· ∉ pipelineIds cutoff db) = deletableIds cutoff db := by
  rw [candidateIds, deletableIds, List.filter_map, List.filter_filter]
  congr 1
  refine List.filter_congr fun row hrow => ?_
  cases hposted : postedBefore cutoff row with
  | false =>
      have hnot : ¬ Deletable cutoff db row := fun h => Bool.false_ne_true (hposted.symm.trans h.1)
      simp [hnot]
  | true =>
      have hiff := mem_pipelineIds hrow hposted
      by_cases hdeletable : Deletable cutoff db row
      · simp [hiff, hdeletable]
      · simp [hiff, hdeletable]

theorem pipelineIds_length (hids : (db.offers.map (·.id)).Nodup) :
    (deletableIds cutoff db).length + (pipelineIds cutoff db).length =
      (candidateIds cutoff db).length := by
  have hcandidates : (candidateIds cutoff db).Nodup := (List.filter_sublist.map _).nodup hids
  have hperm : ((candidateIds cutoff db).filter (· ∈ pipelineIds cutoff db)).Perm
      (pipelineIds cutoff db) := by
    refine (List.perm_ext_iff_of_nodup (hcandidates.filter _) (List.nodup_dedup _)).mpr fun id => ?_
    rw [List.mem_filter, decide_eq_true_eq]
    refine and_iff_right_of_imp fun hid => ?_
    exact of_decide_eq_true (List.mem_filter.mp (List.mem_dedup.mp hid)).2
  have hsplit := List.length_eq_length_filter_add (l := candidateIds cutoff db)
    fun id => decide (id ∈ pipelineIds cutoff db)
  have hrest : (candidateIds cutoff db).filter (fun id => !decide (id ∈ pipelineIds cutoff db)) =
      deletableIds cutoff db := by
    rw [← candidateIds_filter]
    refine List.filter_congr fun id _ => ?_
    rw [decide_not]
  rw [hrest, hperm.length_eq] at hsplit
  omega

theorem partitionOffersForCleanup_opened :
    partitionOffersForCleanup maxArguments cutoff (.opened db) =
      if candidateIds cutoff db = [] then .ok (([], 0), .opened db)
      else if maxArguments < (candidateIds cutoff db).length then .error (.database, .opened db)
      else .ok ((deletableIds cutoff db, (pipelineIds cutoff db).length), .opened db) := by
  have hselect : Db.Session.select
      (fun db => (db.offers.filter (postedBefore cutoff)).map (·.id)) (.opened db) =
      .ok (candidateIds cutoff db) := rfl
  rw [partitionOffersForCleanup, hselect, ← candidateIds_filter]
  change (if candidateIds cutoff db = [] then _ else _) = _
  split
  · rfl
  · by_cases hmany : maxArguments < (candidateIds cutoff db).length
    · rw [if_pos hmany]
      simp [Db.Session.execute, withIds, hmany, Session.opened, bind, Except.bind]
    · rw [if_neg hmany]
      simp [Db.Session.execute, withIds, hmany, Session.opened, bind, Except.bind, pipelineIds]
      rfl

theorem partitionOffersForCleanup_done
    (harguments : db.offers.countP (postedBefore cutoff) ≤ maxArguments) :
    partitionOffersForCleanup maxArguments cutoff (.opened db) =
      .ok ((deletableIds cutoff db, (pipelineIds cutoff db).length), .opened db) := by
  have hfew : ¬ maxArguments < (candidateIds cutoff db).length := by
    rw [candidateIds_length]
    omega
  rw [partitionOffersForCleanup_opened, if_neg hfew]
  split
  · next hnone =>
    have hdeletable : deletableIds cutoff db = [] := by
      rw [← candidateIds_filter, hnone, List.filter_nil]
    have hpipeline : pipelineIds cutoff db = [] := by simp [pipelineIds, hnone]
    rw [hdeletable, hpipeline, List.length_nil]
  · rfl

theorem partitionOffersForCleanup_raises
    (harguments : maxArguments < db.offers.countP (postedBefore cutoff)) :
    partitionOffersForCleanup maxArguments cutoff (.opened db) =
      .error (.database, .opened db) := by
  rw [← candidateIds_length] at harguments
  have hsome : candidateIds cutoff db ≠ [] := List.ne_nil_of_length_pos (by omega)
  rw [partitionOffersForCleanup_opened, if_neg hsome, if_pos harguments]

/-! ## The deletes -/

theorem write_withIds_done {stmt : Database → Attempt Database} {db₀ db' : Database}
    (hfew : ids.length ≤ maxArguments) (hdone : stmt db = .done db') :
    Db.Session.write (withIds maxArguments ids stmt) ⟨db₀, db, false⟩ = .ok ⟨db₀, db', false⟩ := by
  have hwith : withIds maxArguments ids stmt db = .done db' := by
    rw [withIds, if_neg (by omega), hdone]
  simp [Db.Session.write, attempt, hwith]

theorem write_withIds_raises {stmt : Database → Attempt Database} {db₀ : Database}
    (hfew : ids.length ≤ maxArguments) (hrejected : stmt db = .rejected) :
    Db.Session.write (withIds maxArguments ids stmt) ⟨db₀, db, false⟩ =
      .error (.database, ⟨db₀, db, true⟩) := by
  have hwith : withIds maxArguments ids stmt db = .rejected := by
    rw [withIds, if_neg (by omega), hrejected]
  simp [Db.Session.write, attempt, hwith]

/-- No application refers to a CV version of the offers. -/
theorem deleteCvVersions_done (hcvs : ∀ cv ∈ db.cvVersions, cv.offerId ∈ ids →
      ∀ a ∈ db.applications, a.cvVersionId ≠ some cv.id) :
    deleteCvVersions ids db =
      .done { db with cvVersions := db.cvVersions.filter (·.offerId ∉ ids) } := by
  have hkept : ¬ (db.cvVersions.any fun cv =>
      cv.offerId ∈ ids && db.applications.any (·.cvVersionId = some cv.id)) = true := by
    rw [List.any_eq_true]
    rintro ⟨cv, hcv, hrefers⟩
    obtain ⟨hid, hany⟩ := (Bool.and_eq_true _ _).mp hrefers
    obtain ⟨a, ha, hcvId⟩ := List.any_eq_true.mp hany
    exact hcvs cv hcv (of_decide_eq_true hid) a ha (of_decide_eq_true hcvId)
  rw [deleteCvVersions, if_neg hkept]

theorem deleteCvVersions_rejected {cv : CVVersion} {a : Application} (hcv : cv ∈ db.cvVersions)
    (hid : cv.offerId ∈ ids) (ha : a ∈ db.applications) (hrefers : a.cvVersionId = some cv.id) :
    deleteCvVersions ids db = .rejected := by
  refine if_pos (List.any_eq_true.mpr ⟨cv, hcv, ?_⟩)
  rw [decide_eq_true hid, Bool.true_and]
  exact List.any_eq_true.mpr ⟨a, ha, decide_eq_true hrefers⟩

/-- The database without the rows that go by the ids, the offers apart. -/
def withoutDependents (ids : List Nat) (db : Database) : Database :=
  { db with
    matchScores := db.matchScores.filter (·.offerId ∉ ids)
    scoringFailures := db.scoringFailures.filter (·.offerId ∉ ids)
    cvVersions := db.cvVersions.filter (·.offerId ∉ ids) }

theorem deleteOfferRows_done (happlications : ∀ a ∈ db.applications, a.offerId ∉ ids) :
    deleteOfferRows ids (withoutDependents ids db) =
      .done { withoutDependents ids db with offers := db.offers.filter (·.id ∉ ids) } := by
  have hreferred : ((withoutDependents ids db).matchScores.any (·.offerId ∈ ids) ||
      (withoutDependents ids db).scoringFailures.any (·.offerId ∈ ids) ||
      (withoutDependents ids db).cvVersions.any (·.offerId ∈ ids) ||
      (withoutDependents ids db).applications.any (·.offerId ∈ ids)) = false := by
    simpa [withoutDependents] using happlications
  rw [deleteOfferRows, hreferred]
  rfl

theorem deleteDeletable_done (hfew : ids.length ≤ maxArguments)
    (hcvs : ∀ cv ∈ db.cvVersions, cv.offerId ∈ ids →
      ∀ a ∈ db.applications, a.cvVersionId ≠ some cv.id)
    (happlications : ∀ a ∈ db.applications, a.offerId ∉ ids) :
    deleteDeletable maxArguments ids (.opened db) =
      .ok ⟨db, { withoutDependents ids db with offers := db.offers.filter (·.id ∉ ids) },
        false⟩ := by
  by_cases hnone : ids = []
  · subst hnone
    simp [deleteDeletable, withoutDependents, Session.opened]
    rfl
  · have hscores := @write_withIds_done maxArguments db ids (deleteMatchScores ids) db _ hfew rfl
    have hfailures := @write_withIds_done maxArguments { db with
        matchScores := db.matchScores.filter (·.offerId ∉ ids) } ids
      (deleteScoringFailures ids) db _ hfew rfl
    have hversions := @write_withIds_done maxArguments { db with
        matchScores := db.matchScores.filter (·.offerId ∉ ids)
        scoringFailures := db.scoringFailures.filter (·.offerId ∉ ids) } ids
      (deleteCvVersions ids) db _ hfew (deleteCvVersions_done hcvs)
    rw [deleteDeletable, if_neg hnone, Session.opened, hscores]
    simp only [bind, Except.bind, hfailures, hversions]
    exact write_withIds_done hfew (deleteOfferRows_done happlications)

theorem deleteDeletable_raises {cv : CVVersion} {a : Application}
    (hfew : ids.length ≤ maxArguments) (hcv : cv ∈ db.cvVersions) (hid : cv.offerId ∈ ids)
    (ha : a ∈ db.applications) (hrefers : a.cvVersionId = some cv.id) :
    ∃ s, deleteDeletable maxArguments ids (.opened db) = .error (.database, s) := by
  have hnone : ids ≠ [] := List.ne_nil_of_mem hid
  have hscores := @write_withIds_done maxArguments db ids (deleteMatchScores ids) db _ hfew rfl
  have hfailures := @write_withIds_done maxArguments { db with
      matchScores := db.matchScores.filter (·.offerId ∉ ids) } ids
    (deleteScoringFailures ids) db _ hfew rfl
  have hversions := @write_withIds_raises maxArguments { db with
      matchScores := db.matchScores.filter (·.offerId ∉ ids)
      scoringFailures := db.scoringFailures.filter (·.offerId ∉ ids) } ids
    (deleteCvVersions ids) db hfew (deleteCvVersions_rejected hcv hid ha hrefers)
  rw [deleteDeletable, if_neg hnone, Session.opened, hscores]
  simp only [bind, Except.bind, hfailures, hversions]
  exact ⟨_, rfl⟩

/-! ## What a cleanup leaves -/

theorem deletable_iff (hids : (db.offers.map (·.id)).Nodup) (hrow : row ∈ db.offers) :
    OfDeletable cutoff db row.id ↔ Deletable cutoff db row := by
  constructor
  · rintro ⟨other, hother, hdeletable, hid⟩
    obtain rfl := List.inj_on_of_nodup_map hids hother hrow hid
    exact hdeletable
  · intro hdeletable
    exact ⟨row, hrow, hdeletable, rfl⟩

theorem application_kept {a : Application} (ha : a ∈ db.applications) :
    ¬ OfDeletable cutoff db a.offerId := by
  rintro ⟨row, _, hdeletable, hid⟩
  exact hdeletable.2 a ha hid.symm

theorem cleaned_eq (hids : (db.offers.map (·.id)).Nodup) :
    { withoutDependents (deletableIds cutoff db) db with
      offers := db.offers.filter (·.id ∉ deletableIds cutoff db) } = cleaned cutoff db := by
  have hoffers : db.offers.filter (·.id ∉ deletableIds cutoff db) =
      db.offers.filter (¬ Deletable cutoff db ·) := by
    refine List.filter_congr fun row hrow => decide_eq_decide.mpr (not_congr ?_)
    rw [mem_deletableIds, deletable_iff hids hrow]
  rw [hoffers]
  simp only [cleaned, withoutDependents, mem_deletableIds]

theorem kept_offer {offerId : Nat} (hrow : ∃ row ∈ db.offers, row.id = offerId)
    (hkept : ¬ OfDeletable cutoff db offerId) :
    ∃ row ∈ (cleaned cutoff db).offers, row.id = offerId := by
  obtain ⟨row, hrow, hid⟩ := hrow
  refine ⟨row, List.mem_filter.mpr ⟨hrow, decide_eq_true fun hdeletable => hkept ?_⟩, hid⟩
  exact ⟨row, hrow, hdeletable, hid⟩

/-- No reference is left to what is deleted. -/
theorem cleaned_keys (hkeys : DeclaredKeys db)
    (hapart : ∀ cv ∈ db.cvVersions, OfDeletable cutoff db cv.offerId →
      ∀ a ∈ db.applications, a.cvVersionId ≠ some cv.id) :
    DeclaredKeys (cleaned cutoff db) := by
  have hof : ∀ {α : Type} {rows : List α} {offerId : α → Nat} {x : α},
      x ∈ rows.filter (fun x => ¬ OfDeletable cutoff db (offerId x)) →
        x ∈ rows ∧ ¬ OfDeletable cutoff db (offerId x) := fun hx => by
    obtain ⟨hmem, hkept⟩ := List.mem_filter.mp hx
    exact ⟨hmem, of_decide_eq_true hkept⟩
  exact
    { hkeys with
      offer_ids := (List.filter_sublist.map _).nodup hkeys.offer_ids
      cv_version_ids := (List.filter_sublist.map _).nodup hkeys.cv_version_ids
      offer_source := fun row hrow => hkeys.offer_source row (List.mem_of_mem_filter hrow)
      cv_offer := fun cv hcv => kept_offer (hkeys.cv_offer cv (hof hcv).1) (hof hcv).2
      cv_profile := fun cv hcv => hkeys.cv_profile cv (hof hcv).1
      score_offer := fun score hscore =>
        kept_offer (hkeys.score_offer score (hof hscore).1) (hof hscore).2
      score_profile := fun score hscore => hkeys.score_profile score (hof hscore).1
      application_offer := fun a ha =>
        kept_offer (hkeys.application_offer a ha) (application_kept ha)
      application_cv := fun a ha id hid => by
        obtain ⟨cv, hcv, rfl⟩ := hkeys.application_cv a ha id hid
        have hkept : ¬ OfDeletable cutoff db cv.offerId := fun hof => hapart cv hcv hof a ha hid
        exact ⟨cv, List.mem_filter.mpr ⟨hcv, decide_eq_true hkept⟩, rfl⟩
      scoring_failure_offer := fun failure hfailure =>
        kept_offer (hkeys.scoring_failure_offer failure (hof hfailure).1) (hof hfailure).2
      scoring_failure_profile := fun failure hfailure =>
        hkeys.scoring_failure_profile failure (hof hfailure).1 }

theorem deletableIds_few (hids : (db.offers.map (·.id)).Nodup)
    (harguments : db.offers.countP (postedBefore cutoff) ≤ maxArguments) :
    (deletableIds cutoff db).length ≤ maxArguments := by
  have hsum := @pipelineIds_length cutoff db hids
  rw [candidateIds_length] at hsum
  omega

theorem cleanup_exact (hkeys : DeclaredKeys db) (h : CleanupPossible maxArguments cutoff db) :
    CleanupExact maxArguments cutoff db := by
  have hpartition := partitionOffersForCleanup_done h.arguments
  have hdeleted := @deleteDeletable_done maxArguments db (deletableIds cutoff db)
    (deletableIds_few hkeys.offer_ids h.arguments)
    (fun cv hcv hid => h.apart cv hcv (mem_deletableIds.mp hid))
    (fun a ha hid => application_kept ha (mem_deletableIds.mp hid))
  rw [cleaned_eq hkeys.offer_ids] at hdeleted
  refine ⟨⟨(pipelineIds cutoff db).length, ?_, ?_, ?_⟩, cleaned_keys hkeys h.apart⟩
  · simp only [deleteOffers, hpartition, hdeleted, deletableIds_length]
    rfl
  · rw [previewOfferCleanup, hpartition, ← deletableIds_length]
  · rw [← deletableIds_length, ← candidateIds_length]
    exact pipelineIds_length hkeys.offer_ids

theorem deleteOffers_raises (hids : (db.offers.map (·.id)).Nodup)
    (h : ¬ CleanupPossible maxArguments cutoff db) :
    deleteOffers maxArguments cutoff db = .error .database := by
  by_cases harguments : db.offers.countP (postedBefore cutoff) ≤ maxArguments
  · have hreferred : ∃ cv ∈ db.cvVersions, OfDeletable cutoff db cv.offerId ∧
        ∃ a ∈ db.applications, a.cvVersionId = some cv.id := by
      by_contra hnone
      refine h ⟨harguments, fun cv hcv hof a ha hid => ?_⟩
      exact hnone ⟨cv, hcv, hof, a, ha, hid⟩
    obtain ⟨cv, hcv, hof, a, ha, hid⟩ := hreferred
    obtain ⟨s, hraises⟩ := deleteDeletable_raises (deletableIds_few hids harguments) hcv
      (mem_deletableIds.mpr hof) ha hid
    simp only [deleteOffers, partitionOffersForCleanup_done harguments, hraises]
  · have hraises := partitionOffersForCleanup_raises (Nat.lt_of_not_le harguments)
    simp only [deleteOffers, hraises]

/-- A cleanup is exact exactly when its statements have few enough arguments and no
application refers to a CV version that it deletes; otherwise it raises. -/
theorem cleanup_exact_iff (hkeys : DeclaredKeys db) :
    CleanupExact maxArguments cutoff db ↔ CleanupPossible maxArguments cutoff db := by
  refine ⟨fun hexact => ?_, cleanup_exact hkeys⟩
  by_contra hnot
  obtain ⟨skipped, hdone, _⟩ := hexact.counted
  have hraises := deleteOffers_raises hkeys.offer_ids hnot
  cases hdone.symm.trans hraises

/-! ## An application with the CV of an older offer -/

def oldOffer : OfferRow :=
  { id := 1
    dedupHash := "hash"
    offer :=
      { sourceId := 1
        title := "Engineer"
        company := "Acme"
        postedAt := some ⟨10, true⟩
        valid := by decide }
    rawPayload := ⟨[]⟩
    createdAt := 0 }

def newOffer : OfferRow :=
  { oldOffer with
    id := 2
    dedupHash := "hash 2"
    offer :=
      { sourceId := 1
        title := "Engineer II"
        company := "Acme"
        postedAt := some ⟨90, true⟩
        valid := by decide } }

/-- An old offer and a new one, with an application for the new one. -/
def oneApplication (cvVersionId : Option Nat) : Database :=
  { sources := [⟨1, "acme", some "acme", ⟨[]⟩, none⟩]
    offers := [oldOffer, newOffer]
    profiles := [⟨1, "junior", .active, true, none⟩]
    cvVersions := [⟨1, 1, 1⟩, ⟨2, 2, 1⟩]
    applications := [⟨1, 2, 1, cvVersionId⟩] }

theorem oneApplication_keys {cvVersionId : Option Nat}
    (hcv : ∀ id ∈ cvVersionId, 1 = id ∨ 2 = id) : DeclaredKeys (oneApplication cvVersionId) := by
  constructor <;> simp_all [oneApplication, oldOffer, newOffer]

example : (deleteOffers 32767 50 (oneApplication (some 2))).toOption.map
    (fun done => (done.1, done.2.offers.map (·.id), done.2.cvVersions.map (·.id))) =
      some ((1, 0), [2], [2]) := by
  decide

theorem cleanup_exact_iff_new_cv :
    CleanupExact 32767 50 (oneApplication (some 2)) ↔
      CleanupPossible 32767 50 (oneApplication (some 2)) :=
  cleanup_exact_iff (oneApplication_keys (by simp))

/-- The application reuses the CV of the old offer, which is therefore not deleted. -/
theorem old_cv_blocks_cleanup :
    DeclaredKeys (oneApplication (some 1)) ∧
      deleteOffers 32767 50 (oneApplication (some 1)) = .error .database ∧
      ¬ CleanupExact 32767 50 (oneApplication (some 1)) := by
  have hkeys : DeclaredKeys (oneApplication (some 1)) := oneApplication_keys (by simp)
  have hraises : deleteOffers 32767 50 (oneApplication (some 1)) = .error .database := by decide
  refine ⟨hkeys, hraises, fun hexact => ?_⟩
  obtain ⟨skipped, hdone, _⟩ := hexact.counted
  cases hdone.symm.trans hraises

end RecruFlow.Offers
