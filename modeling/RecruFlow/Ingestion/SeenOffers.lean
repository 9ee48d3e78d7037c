import RecruFlow.Ingestion.PageWalk
import RecruFlow.Ingestion.RecordFate
import RecruFlow.Lib.CatchUp

/-!
# The loop catches up with a feed

Over valid records the loop learns the offers of the due ones, and its counter
is that of a walk that catches up: the store knows an offer that one of its rows
duplicates.
-/

namespace RecruFlow.Ingestion

open Connectors Db Lib.CatchUp Lib.Pages Lib.Transaction Schemas

variable (env : IngestEnv) (args : RunnerArgs)

/-- The offer of a record that is valid. -/
def offerOf (raw : Dict) : Option Offer :=
  match args.mapOffer args.sourceId raw with
  | .ok mapped => Offer.modelValidate env.pydantic mapped
  | .error _ => none

/-- A row duplicates the offer of the record. -/
def Seen (db : Database) (raw : Dict) : Prop :=
  match offerOf env args raw with
  | some offer => Represented env.text offer db.offers
  | none => False

instance (db : Database) (raw : Dict) : Decidable (Seen env args db raw) :=
  match h : offerOf env args raw with
  | some offer =>
      decidable_of_iff (∃ row ∈ db.offers,
        sameContent offer row ∨ computeDedupHash env.text offer = .ok row.dedupHash)
        (by rw [Seen, h]; exact Iff.rfl)
  | none => isFalse (by rw [Seen, h]; exact id)

/-- The store with a row for the record. -/
def addOffer (db : Database) (raw : Dict) : Database :=
  match offerOf env args raw with
  | none => db
  | some offer =>
      match computeDedupHash env.text offer with
      | .error _ => db
      | .ok dedupHash =>
          { db with
            offers := db.offers ++ [newOfferRow env offer raw dedupHash db]
            nextOfferId := db.nextOfferId + 1 }

/-- The store, as a memory of the offers of records. -/
def memory : Memory Database Dict where
  Known := Seen env args
  decideKnown := inferInstance
  add := addOffer env args

/-- A record that maps, has a date that can be compared, is valid, and whose row
the database takes. -/
def ValidRecord (sources : List Source) (raw : Dict) : Prop :=
  ∃ mapped offer dedupHash, args.mapOffer args.sourceId raw = .ok mapped ∧
    (∀ turn, ∃ outside,
      outsideRange args.since args.limit (effectiveDate args turn mapped) = .ok outside) ∧
    Offer.modelValidate env.pydantic mapped = some offer ∧
    computeDedupHash env.text offer = .ok dedupHash ∧
    ∀ db : Database, db.sources = sources →
      env.postgres.offer (newOfferRow env offer raw dedupHash db) db = .taken

/-- The transaction of a run is good, and the sources are what they were. -/
structure GoesOn (sources : List Source) (s : Session) : Prop where
  good : s.aborted = false
  sources : s.working.sources = sources

/-- What the caught-up rule looks at. -/
def Walk.seen (w : Walk) : Database × Nat :=
  (w.session.working, w.consecutiveAlreadySeen)

/-- The last of the pages is all older than `since`. -/
def EndsOld (pages : List (List Dict)) : Prop :=
  ∃ before page, pages = before ++ [page] ∧ olderAtFirst args page = true ∧
    olderFrom args before.flatten.length page = true

/-- A run over pages stops after them, when it starts on the store. -/
def EndsAfter (db : Database) (pages : List (List Dict)) : Prop :=
  EndsOld args pages ∨ (args.forceRefresh = false ∧
    (memory env args).CaughtUp args.alreadySeenStopThreshold (dueFrom args 0 pages.flatten) db)

/-- A run over pages comes to one of them, when it starts on the store. -/
def ReadsPage (db : Database) (pages : List (List Dict)) (j : Nat) : Prop :=
  j < pages.length ∧ ∀ i, 0 < i → i ≤ j → ¬ EndsAfter env args db (pages.take i)

/-- The due records of a page. -/
def dueOn (pages : List (List Dict)) (j : Nat) : List Dict :=
  dueFrom args (pages.take j).flatten.length (pages[j]?.getD [])

variable {env args} {raw : Dict} {db : Database} {sources : List Source} {w : Walk}

/-! ## The memory -/

theorem seen_of_offer {offer : Offer} (hoffer : offerOf env args raw = some offer) :
    Seen env args db raw ↔ Represented env.text offer db.offers := by
  rw [Seen, hoffer]

/-- What a row duplicates stays duplicated as long as the row stays. -/
theorem Seen.subset {db' : Database} (h : Seen env args db raw)
    (hrows : ∀ row ∈ db.offers, row ∈ db'.offers) : Seen env args db' raw := by
  unfold Seen at h ⊢
  split at h
  · obtain ⟨row, hrow, hduplicate⟩ := h
    exact ⟨row, hrows row hrow, hduplicate⟩
  · exact h

theorem addOffer_appends : db.offers <+: (addOffer env args db raw).offers := by
  unfold addOffer
  split
  · exact List.prefix_rfl
  · split
    · exact List.prefix_rfl
    · exact List.prefix_append _ _

theorem memory_keeps : (memory env args).Keeps :=
  fun _ _ _ hseen => Seen.subset hseen fun _ hrow => addOffer_appends.subset hrow

theorem learnAll_appends {records : List Dict} :
    db.offers <+: ((memory env args).learnAll db records).offers := by
  induction records generalizing db with
  | nil => exact List.prefix_rfl
  | cons raw records ih =>
      refine List.IsPrefix.trans ?_ ih
      rw [Memory.learn]
      split
      · exact List.prefix_rfl
      · exact addOffer_appends

/-- The row that is added for a valid record duplicates it. -/
theorem offerOf_of_valid {mapped : Dict} {offer : Offer}
    (hmapped : args.mapOffer args.sourceId raw = .ok mapped)
    (hvalid : Offer.modelValidate env.pydantic mapped = some offer) :
    offerOf env args raw = some offer := by
  rw [offerOf, hmapped]
  exact hvalid

theorem seen_addOffer (hvalid : ValidRecord env args sources raw) :
    Seen env args (addOffer env args db raw) raw := by
  obtain ⟨mapped, offer, dedupHash, hmapped, _, hmodel, hhash, _⟩ := hvalid
  have hoffer := offerOf_of_valid hmapped hmodel
  rw [seen_of_offer hoffer, addOffer, hoffer]
  dsimp only
  rw [hhash]
  exact ⟨_, List.mem_append_right _ (List.mem_singleton_self _), .inr hhash⟩

/-! ## One record -/

theorem notBeforeSince_ok {date : DateTime} {outside : Bool}
    (h : outsideRange args.since args.limit date = .ok outside) :
    ∃ recent, notBeforeSince args date = .ok recent := by
  unfold notBeforeSince
  cases hsince : args.since with
  | none => exact ⟨false, rfl⟩
  | some since =>
      dsimp only
      unfold DateTime.ge
      split
      · exact ⟨_, rfl⟩
      · next hne => simp [outsideRange, beforeSince, hsince, DateTime.lt, hne, bind, Except.bind] at h

/-- The turn of a record out of the range goes over it. -/
theorem step_outside {mapped : Dict} (hmapped : args.mapOffer args.sourceId raw = .ok mapped)
    (houtside : outsideRange args.since args.limit (effectiveDate args w.turn mapped) = .ok true) :
    step env args w raw = .ok { w with turn := w.turn + 1 } := by
  obtain ⟨recent, hrecent⟩ := notBeforeSince_ok houtside
  simp [step, ingestRecord, Walk.lift, hmapped, hrecent, houtside, Except.mapError, bind,
    Except.bind, pure, Except.pure, Except.map]

/-- The turn of a record in the range hands it over. -/
theorem step_inside {mapped : Dict} (hmapped : args.mapOffer args.sourceId raw = .ok mapped)
    (houtside : outsideRange args.since args.limit (effectiveDate args w.turn mapped) = .ok false) :
    step env args w raw =
      match ingestOffer env mapped raw w.session with
      | .ok (result, s') =>
          .ok (Walk.count
            { w with turn := w.turn + 1, handed := w.handed ++ [raw], session := s' } result)
      | .error (e, s') =>
          .error (e, { w with
            turn := w.turn + 1, handed := w.handed ++ [raw], session := s' }) := by
  obtain ⟨recent, hrecent⟩ := notBeforeSince_ok houtside
  simp only [step, ingestRecord, Walk.lift, hmapped, hrecent, houtside, Except.mapError, bind,
    Except.bind]
  rw [if_neg Bool.false_ne_true]
  cases ingestOffer env mapped raw w.session with
  | ok r => rfl
  | error raised => rfl

/-- A valid record is found, or stored. -/
theorem persistOffer_valid {offer : Offer} {dedupHash : String} {s : Session}
    (hoffer : offerOf env args raw = some offer)
    (hhash : computeDedupHash env.text offer = .ok dedupHash)
    (htaken : env.postgres.offer (newOfferRow env offer raw dedupHash s.working) s.working = .taken)
    (hgood : s.aborted = false) :
    ∃ row created s', persistOffer env offer raw s = .ok ((row, created), s') ∧
      GoesOn s.working.sources s' ∧
      if Seen env args s.working raw then created = false ∧ s'.working = s.working
      else created = true ∧ s'.working = addOffer env args s.working raw := by
  obtain ⟨⟨row, created⟩, s', hpersist⟩ :=
    (persistOffer_returns_iff hgood).mpr (.inr ⟨dedupHash, hhash, htaken⟩)
  have hgood' := persistOffer_good hgood hpersist
  have hdone := persistOffer_ok hpersist
  have hseen : Seen env args s.working raw ↔ _ := seen_of_offer hoffer
  refine ⟨row, created, s', hpersist, ⟨hgood', ?_⟩, ?_⟩
  · generalize s'.working = db' at hdone
    cases hdone <;> rfl
  · generalize hdb : s'.working = db' at hdone
    cases hdone with
    | found hmem hduplicate =>
        rw [if_pos (hseen.mpr ⟨row, hmem, hduplicate⟩)]
        exact ⟨rfl, rfl⟩
    | @created dedupHash' hcontent hhash' hfree =>
        have hnew : ¬ Seen env args s.working raw := by
          rw [hseen]
          rintro ⟨old, hold, hsame | hsame⟩
          · exact hcontent old hold hsame
          · exact hfree old hold (Except.ok.inj (hsame.symm.trans hhash'))
        rw [if_neg hnew, addOffer, hoffer]
        dsimp only
        rw [hhash']
        exact ⟨rfl, rfl⟩

/-- A turn of the loop over a valid record. -/
theorem step_valid (hgoes : GoesOn sources w.session) (hvalid : ValidRecord env args sources raw) :
    ∃ w', step env args w raw = .ok w' ∧ GoesOn sources w'.session ∧
      w'.seen = if dueAt args w.turn raw then (memory env args).count w.seen raw else w.seen := by
  obtain ⟨mapped, offer, dedupHash, hmapped, hdate, hmodel, hhash, htaken⟩ := hvalid
  obtain ⟨outside, houtside⟩ := hdate w.turn
  have hoffer := offerOf_of_valid hmapped hmodel
  cases outside with
  | true =>
      have hdue : dueAt args w.turn raw = false := by simp [dueAt, hmapped, houtside]
      exact ⟨{ w with turn := w.turn + 1 }, step_outside hmapped houtside, hgoes, by rw [hdue]; rfl⟩
  | false =>
      have hdue : dueAt args w.turn raw = true := by simp [dueAt, hmapped, houtside]
      obtain ⟨row, created, s', hpersist, hgoes', hcases⟩ :=
        persistOffer_valid hoffer hhash (htaken _ hgoes.sources) hgoes.good
      have hingest : ingestOffer env mapped raw w.session = .ok (some (row, created), s') := by
        rw [ingestOffer_valid hmodel, hpersist]
        rfl
      let w₁ : Walk := { w with turn := w.turn + 1, handed := w.handed ++ [raw], session := s' }
      refine ⟨w₁.count (some (row, created)), ?_, ?_, ?_⟩
      · rw [step_inside hmapped houtside, hingest]
      · rw [hgoes.sources] at hgoes'
        cases created with
        | true => exact hgoes'
        | false => exact hgoes'
      · rw [hdue, if_pos rfl, Memory.count]
        change _ = if Seen env args w.session.working raw then _ else _
        split at hcases
        · next hseen =>
          obtain ⟨rfl, hworking⟩ := hcases
          rw [if_pos hseen]
          exact congrArg (·, w.consecutiveAlreadySeen + 1) hworking
        · next hseen =>
          obtain ⟨rfl, hworking⟩ := hcases
          rw [if_neg hseen]
          exact congrArg (·, 0) hworking

/-! ## Records and pages -/

/-- The loop over valid records learns the due ones, and counts the known ones in a row. -/
theorem foldlM_step_valid {records : List Dict} (hgoes : GoesOn sources w.session)
    (hvalid : ∀ raw ∈ records, ValidRecord env args sources raw) :
    ∃ w', records.foldlM (step env args) w = .ok w' ∧ GoesOn sources w'.session ∧
      w'.seen = (dueFrom args w.turn records).foldl (memory env args).count w.seen := by
  induction records generalizing w with
  | nil => exact ⟨w, rfl, hgoes, rfl⟩
  | cons raw records ih =>
      obtain ⟨m, hstep, hgoes', hseen⟩ := step_valid hgoes (hvalid raw List.mem_cons_self)
      obtain ⟨w', hrest, hgoes'', hseen'⟩ :=
        ih hgoes' fun raw hraw => hvalid raw (List.mem_cons_of_mem _ hraw)
      obtain ⟨recent, hrecord⟩ := step_ok hstep
      refine ⟨w', ?_, hgoes'', ?_⟩
      · rw [List.foldlM_cons, hstep]
        exact hrest
      · rw [hseen', hseen, (ingestRecord_ok hrecord).2.1, dueFrom]
        split <;> rfl

/-- The flag after pages is that of the last one. -/
theorem foldlM_goPage_flag {before : List (List Dict)} {page : List Dict} {s m : Bool × Walk}
    (h : (before ++ [page]).foldlM (goPage env args) s = .ok m) :
    m.1 = (olderAtFirst args page && olderFrom args (s.2.turn + before.flatten.length) page) := by
  obtain ⟨m', hbefore, hpage⟩ := foldlM_prefix h
  rw [List.foldlM_cons] at hpage
  obtain ⟨m'', hgo, hend⟩ := bind_ok hpage
  obtain rfl : m'' = m := Except.ok.inj hend
  have hrecords := @foldlM_goPage env args s.2 before s.1
  rw [hbefore] at hrecords
  rw [(goPage_ok hgo).2, (foldlM_step_ok hrecords.symm).1]

/-- A walk over valid records that started on a store stops after pages exactly
when their records say so. -/
theorem stopsWalk_iff {pages : List (List Dict)} {state : RunState} {m : Bool × Walk}
    (hpages : pages ≠ []) (hgoes : GoesOn sources state.session)
    (hvalid : ∀ raw ∈ pages.flatten, ValidRecord env args sources raw)
    (h : pages.foldlM (goPage env args) (false, .start state) = .ok m) :
    stopsWalk args m = true ↔ EndsAfter env args state.session.working pages := by
  have hflag : m.1 = true ↔ EndsOld args pages := by
    constructor
    · intro hm
      cases pages using List.reverseRecOn with
      | nil => exact absurd rfl hpages
      | append_singleton before page _ =>
          have hlast := foldlM_goPage_flag h
          rw [hm, Walk.start, Nat.zero_add] at hlast
          obtain ⟨hfirst, holder⟩ := Bool.and_eq_true_iff.mp hlast.symm
          exact ⟨before, page, rfl, hfirst, holder⟩
    · rintro ⟨before, page, rfl, hfirst, holder⟩
      have hlast := foldlM_goPage_flag h
      rwa [Walk.start, Nat.zero_add, hfirst, holder] at hlast
  have hstart : GoesOn sources (Walk.start state).session := hgoes
  obtain ⟨w', hfold, _, hseen⟩ := foldlM_step_valid hstart hvalid
  have hrecords := @foldlM_goPage env args (.start state) pages false
  rw [h, hfold] at hrecords
  obtain rfl : m.2 = w' := Except.ok.inj hrecords
  have hcount : m.2.consecutiveAlreadySeen = ((dueFrom args 0 pages.flatten).foldl
      (memory env args).count (state.session.working, 0)).2 := congrArg Prod.snd hseen
  have hcaught : caughtUp args m.2 = true ↔ args.forceRefresh = false ∧
      (memory env args).CaughtUp args.alreadySeenStopThreshold (dueFrom args 0 pages.flatten)
        state.session.working := by
    rw [← Memory.le_count_iff, ← hcount]
    simp [caughtUp]
  rw [stopsWalk, Bool.or_eq_true, hflag, hcaught]
  exact Iff.rfl

theorem dueFrom_flatten_mem {pages : List (List Dict)} {n : Nat} (hn : n ≤ pages.length) :
    raw ∈ dueFrom args 0 (pages.take n).flatten ↔ ∃ j < n, raw ∈ dueOn args pages j := by
  induction n with
  | zero => simp [dueFrom]
  | succ n ih =>
      have hget : pages[n]? = some pages[n] := List.getElem?_eq_getElem hn
      have hpage : dueFrom args (0 + (pages.take n).flatten.length) pages[n] = dueOn args pages n := by
        rw [dueOn, hget, Nat.zero_add]
        rfl
      rw [List.take_succ_eq_append_getElem hn, List.flatten_append, List.flatten_singleton,
        dueFrom_append, List.mem_append, ih (Nat.le_of_succ_le hn), hpage]
      constructor
      · rintro (⟨j, hj, hmem⟩ | hmem)
        · exact ⟨j, Nat.lt_succ_of_lt hj, hmem⟩
        · exact ⟨n, Nat.lt_succ_self n, hmem⟩
      · rintro ⟨j, hj, hmem⟩
        rcases Nat.lt_or_eq_of_le (Nat.le_of_lt_succ hj) with hlt | rfl
        · exact .inl ⟨j, hlt, hmem⟩
        · exact .inr hmem

/-! ## A run over valid records -/

section Run

variable {Cursor : Type} {fetchPage : FetchPage Cursor} {initialCursor : Cursor}
  {state : RunState}

/-- The pages that a run over valid records comes to. -/
theorem lt_reached_iff (hgoes : GoesOn sources state.session)
    (hvalid : ∀ raw ∈ (feed args fetchPage initialCursor).flatten, ValidRecord env args sources raw)
    {j : Nat} : j < reached env args fetchPage initialCursor state ↔
      ReadsPage env args state.session.working (feed args fetchPage initialCursor) j := by
  generalize hpages : feed args fetchPage initialCursor = pages at hvalid ⊢
  have hstart : GoesOn sources (Walk.start state).session := hgoes
  obtain ⟨w', hfold, _⟩ := foldlM_step_valid hstart hvalid
  have hrecords := @foldlM_goPage env args (.start state) pages false
  rw [hfold] at hrecords
  obtain ⟨t, ht⟩ : ∃ t, pages.foldlM (goPage env args) (false, .start state) = .ok t := by
    cases hgo : pages.foldlM (goPage env args) (false, .start state) with
    | error e =>
        rw [hgo] at hrecords
        cases hrecords
    | ok t => exact ⟨t, rfl⟩
  have hstops {i : Nat} {m : Bool × Walk} (hpos : 0 < i) (hi : i < pages.length)
      (htake : (pages.take i).foldlM (goPage env args) (false, .start state) = .ok m) :
      stopsWalk args m = true ↔ EndsAfter env args state.session.working (pages.take i) := by
    refine stopsWalk_iff ?_ hgoes (fun raw hraw => hvalid raw ?_) htake
    · exact List.ne_nil_of_length_pos (by rw [List.length_take]; omega)
    · rw [← List.take_append_drop i pages, List.flatten_append]
      exact List.mem_append_left _ hraw
  rw [reached, hpages, lt_reach_iff ht, ReadsPage]
  refine and_congr_right fun hj => ?_
  constructor
  · intro h i hpos hi hends
    have hsplit : pages = pages.take i ++ pages.drop i := (List.take_append_drop i pages).symm
    rw [hsplit] at ht
    obtain ⟨m, htake, _⟩ := foldlM_prefix ht
    have hgo := h i m hpos hi htake
    rw [(hstops hpos (Nat.lt_of_le_of_lt hi hj) htake).mpr hends] at hgo
    cases hgo
  · intro h i m hpos hi htake
    exact Bool.eq_false_iff.mpr fun hstop =>
      h i hpos hi ((hstops hpos (Nat.lt_of_le_of_lt hi hj) htake).mp hstop)

theorem reached_le : reached env args fetchPage initialCursor state ≤
    (feed args fetchPage initialCursor).length :=
  reach_le

theorem mem_walked_iff (hgoes : GoesOn sources state.session)
    (hvalid : ∀ raw ∈ (feed args fetchPage initialCursor).flatten, ValidRecord env args sources raw) :
    raw ∈ dueFrom args 0 (walked env args fetchPage initialCursor state) ↔
      ∃ j, ReadsPage env args state.session.working (feed args fetchPage initialCursor) j ∧
        raw ∈ dueOn args (feed args fetchPage initialCursor) j := by
  rw [walked, dueFrom_flatten_mem reached_le]
  constructor
  · rintro ⟨j, hj, hmem⟩
    exact ⟨j, (lt_reached_iff hgoes hvalid).mp hj, hmem⟩
  · rintro ⟨j, hj, hmem⟩
    exact ⟨j, (lt_reached_iff hgoes hvalid).mpr hj, hmem⟩

/-- A run over valid records goes through; it learns and hands over the due
records that it walks. -/
theorem walkFeed_valid (hgoes : GoesOn sources state.session)
    (hvalid : ∀ raw ∈ (feed args fetchPage initialCursor).flatten, ValidRecord env args sources raw) :
    ∃ stopped s, walkFeed env args fetchPage initialCursor state = .ok (stopped, s) ∧
      GoesOn sources s.2.session ∧
      s.2.session.working = (memory env args).learnAll state.session.working
        (dueFrom args 0 (walked env args fetchPage initialCursor state)) ∧
      s.2.handed = state.handed ++
        dueFrom args 0 (walked env args fetchPage initialCursor state) := by
  have hstart : GoesOn sources (Walk.start state).session := hgoes
  have hwalked : ∀ raw ∈ walked env args fetchPage initialCursor state,
      ValidRecord env args sources raw := by
    intro raw hraw
    obtain ⟨page, hpage, hmem⟩ := List.mem_flatten.mp hraw
    exact hvalid raw (List.mem_flatten.mpr ⟨page, List.mem_of_mem_take hpage, hmem⟩)
  obtain ⟨w', hfold, hgoes', hseen⟩ := foldlM_step_valid hstart hwalked
  have hwalk := @walkFeed_records Cursor env args fetchPage initialCursor state
  rw [hfold] at hwalk
  cases hfeed : walkFeed env args fetchPage initialCursor state with
  | error raised =>
      rw [hfeed] at hwalk
      cases hwalk
  | ok r =>
      rw [hfeed] at hwalk
      obtain rfl : r.2.2 = w' := Except.ok.inj hwalk
      refine ⟨r.1, r.2, rfl, hgoes', ?_, (foldlM_step_ok hfold).2⟩
      exact (congrArg Prod.fst hseen).trans (Memory.foldl_count_fst _)

/-- The same, of the run. -/
theorem runPaginatedIngestion_valid (hgoes : GoesOn sources state.session)
    (hvalid : ∀ raw ∈ (feed args fetchPage initialCursor).flatten, ValidRecord env args sources raw)
    (hgot : (feedFrom fetchPage args.maxPages 0 initialCursor).2 = none) :
    ∃ result state',
      runPaginatedIngestion env args fetchPage initialCursor state = .ok (result, state') ∧
      result.ok = true ∧ GoesOn sources state'.session ∧
      state'.session.working = (memory env args).learnAll state.session.working
        (dueFrom args 0 (walked env args fetchPage initialCursor state)) ∧
      state'.handed = state.handed ++
        dueFrom args 0 (walked env args fetchPage initialCursor state) := by
  obtain ⟨stopped, s, hwalk, hgoes', hlearned, hhanded⟩ := walkFeed_valid hgoes hvalid
  rw [runPaginatedIngestion_eq, hwalk, hgot]
  dsimp only
  rw [afterWalk_of_got]
  exact ⟨_, _, rfl, rfl, hgoes', hlearned, hhanded⟩

end Run

/-- A run without a fetch range, over an offer without a url. -/
theorem acme_validRecord {title : String} {offer : Offer}
    (hmap : args.mapOffer args.sourceId (acmeFields title) = .ok (acmeFields title))
    (hrange : args.since = none ∧ args.limit = none)
    (hoffer : Offer.modelValidate acmeEnv.pydantic (acmeFields title) = some offer)
    (hurl : offer.canonicalUrl = none) : ValidRecord acmeEnv args sources (acmeFields title) := by
  have hhash : computeDedupHash acmeEnv.text offer = .ok (fallbackHash acmeEnv.text offer) := by
    rw [computeDedupHash, hurl]
    rfl
  refine ⟨acmeFields title, offer, _, hmap, fun turn => ⟨false, ?_⟩, hoffer, hhash, fun _ _ => rfl⟩
  rw [hrange.1, hrange.2]
  rfl

end RecruFlow.Ingestion
