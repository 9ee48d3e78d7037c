import RecruFlow.Ingestion.Registry
import RecruFlow.Lib.Counting
import RecruFlow.Lib.Grouping
import RecruFlow.Offers.ListOffers
import RecruFlow.Offers.Routes

/-!
# The counts of the connectors

`GET /connectors` counts the offers of each connector and those that the active profile
has a score for. `GET /offers` filters by connector and by score, and
`GET /offers/{offer_id}/score` gives the score of one offer: what they say agrees.
-/

namespace RecruFlow.Offers

open Db Ingestion Lib.Counting Lib.Paging

/-! ## The routes -/

/-- The display name of a connector. -/
def connectorLabel : String → String
  | "solid_jobs" => "SOLID.Jobs"
  | "justjoinit" => "JustJoin.it"
  | "nofluffjobs" => "NoFluffJobs"
  | "bulldogjob" => "Bulldogjob"
  | "rocket_jobs" => "Rocket Jobs"
  | "pracuj" => "Pracuj.pl"
  | "remoteok" => "RemoteOK"
  | "remotive" => "Remotive"
  | "we_work_remotely" => "We Work Remotely"
  | name => name

structure ConnectorOption where
  id : String
  label : String
  offerCount : Int
  scoredCount : Int
  unscoredCount : Int
  supportsFetchScope : Bool

/-- The offers joined with their sources, each under the connector of its source. -/
def joinConnectors (db : Database) : List (Option String × OfferRow) :=
  db.offers.flatMap fun offer =>
    (db.sources.filter (·.id = offer.offer.sourceId)).map fun source => (source.connector, offer)

/-- The offers that the profile with the id has a score for. -/
def scoredOfferIds (db : Database) (profileId : Int) : List Nat :=
  (db.matchScores.filter fun score => (score.profileId : Int) = profileId).map (·.offerId)

/-- The groups of the query, each with its counts. -/
def countsByConnector (db : Database) : List (Option String × Nat × Nat) :=
  (Lib.Grouping.group Prod.fst Prod.snd (joinConnectors db)).map fun (connector, offers) =>
    (connector, offers.length,
      offers.countP fun offer => offer.id ∈ scoredOfferIds db (activeProfileId db))

def listConnectors (db : Database) : List ConnectorOption :=
  connectorRegistry.map fun spec =>
    let (offerCount, scoredCount) := ((countsByConnector db).lookup (some spec.name)).getD (0, 0)
    { id := spec.name
      label := connectorLabel spec.name
      offerCount
      scoredCount
      unscoredCount := offerCount - scoredCount
      supportsFetchScope := spec.supportsFetchScope }

section Scores

-- the order of the scores of an offer
variable (arrange : List ScoreRow → List ScoreRow)

/-- The first score of an offer, when there is an active profile. -/
def firstScore (db : Database) (scores : List ScoreRow) (offerId : Nat) : Option ScoreRow := do
  let profile ← db.profiles.find? (·.isActive)
  (arrange (scores.filter fun row =>
    row.offerId = offerId ∧ row.profileId = profile.id)).head?

/-- `get_offer_score`; `none` is a 404. -/
def getOfferScore (db : Database) (scores : List ScoreRow) (offerId : Nat) :
    Option (Option ScoreRow) := do
  let _ ← storedOffer offerId db
  some (firstScore arrange db scores offerId)

end Scores

variable {db : Database} {scores : List ScoreRow} {spec : ConnectorSpec}

/-! ## The counts by connector -/

theorem lookup_map_snd {κ β γ : Type} [BEq κ] {f : β → γ} {k : κ} (groups : List (κ × β)) :
    (groups.map fun group => (group.1, f group.2)).lookup k = (groups.lookup k).map f := by
  induction groups with
  | nil => rfl
  | cons group groups ih =>
      rw [List.map_cons, List.lookup_cons, List.lookup_cons, ih]
      cases k == group.1 <;> rfl

/-- The counts of a connector are over the rows of the join that are under it. -/
theorem lookup_countsByConnector (connector : Option String) :
    ((countsByConnector db).lookup connector).getD (0, 0) =
      ((joinConnectors db).countP fun row => row.1 = connector && true,
        (joinConnectors db).countP fun row =>
          row.1 = connector && row.2.id ∈ scoredOfferIds db (activeProfileId db)) := by
  let counts (offers : List OfferRow) : Nat × Nat :=
    (offers.length, offers.countP fun offer => offer.id ∈ scoredOfferIds db (activeProfileId db))
  calc ((countsByConnector db).lookup connector).getD (0, 0)
      = counts (((Lib.Grouping.group Prod.fst Prod.snd (joinConnectors db)).lookup
          connector).getD []) := by
        rw [countsByConnector, lookup_map_snd (f := counts)]
        cases (Lib.Grouping.group Prod.fst Prod.snd (joinConnectors db)).lookup connector <;> rfl
    _ = counts (((joinConnectors db).filter (·.1 = connector)).map Prod.snd) := by
        have hbeq : (instBEqOfDecidableEq : BEq (Option String)) = Option.instBEq :=
          lawful_beq_subsingleton _ _
        rw [← hbeq, Lib.Grouping.lookup_group]
    _ = _ := by
        apply Prod.ext
        · show (((joinConnectors db).filter _).map _).length = _
          rw [List.length_map, ← List.countP_eq_length_filter]
          simp only [Bool.and_true]
        · show (((joinConnectors db).filter _).map _).countP _ = _
          rw [List.countP_map, List.countP_filter]
          congr 1
          funext row
          exact Bool.and_comm _ _

/-- The option of a connector of the registry. -/
def optionOf (db : Database) (spec : ConnectorSpec) : ConnectorOption :=
  let offerCount := (joinConnectors db).countP fun row => row.1 = some spec.name && true
  let scoredCount := (joinConnectors db).countP fun row =>
    row.1 = some spec.name && row.2.id ∈ scoredOfferIds db (activeProfileId db)
  { id := spec.name
    label := connectorLabel spec.name
    offerCount
    scoredCount
    unscoredCount := offerCount - scoredCount
    supportsFetchScope := spec.supportsFetchScope }

theorem listConnectors_eq : listConnectors db = connectorRegistry.map (optionOf db) := by
  apply List.map_congr_left
  intro spec _
  rw [lookup_countsByConnector]
  rfl

/-! ## The counts and the listing -/

section Listing

variable {rank : List ScoreRow → List ScoreRow} {ilike : String → String → Bool} {row : Listed}
  (h : ListingTables db scores) (hrank : ∀ rows, Permitted LaterFirst rows (rank rows))

include h hrank

end Listing

/-! ## One offer and the listing -/

section Single

variable {arrange : List ScoreRow → List ScoreRow} {rank : List ScoreRow → List ScoreRow}
  {row : Listed} (harrange : ∀ rows, Permitted LaterFirst rows (arrange rows))

include harrange

variable (h : ListingTables db scores) (hrank : ∀ rows, Permitted LaterFirst rows (rank rows))

include h hrank

end Single

/-! ## What the routes agree on -/

end RecruFlow.Offers
