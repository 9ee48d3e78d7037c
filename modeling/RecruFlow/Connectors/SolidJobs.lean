import RecruFlow.Connectors.ApiMappings
import RecruFlow.Connectors.Base

/-!
# Connectors with a fetch scope

Such a connector puts a term into the configuration that the requests for its
pages are made from. The only one that runs on `JobBoardConnector.run` is that
of SOLID.Jobs.
-/

namespace RecruFlow

/-- Two dictionaries differ under some keys at most. -/
def Dict.AgreeOutside (keys : List String) (d d' : Dict) : Prop :=
  ∀ key ∉ keys, d.get key = d'.get key

theorem Dict.AgreeOutside.trans {keys keys' : List String} {d d' d'' : Dict}
    (h : d.AgreeOutside keys d') (h' : d'.AgreeOutside keys' d'') :
    d.AgreeOutside (keys ++ keys') d'' := by
  intro key hkey
  rw [List.mem_append, not_or] at hkey
  rw [h key hkey.1, h' key hkey.2]

theorem Dict.AgreeOutside.getD {keys : List String} {d d' : Dict} (h : d.AgreeOutside keys d')
    {key : String} (hkey : key ∉ keys) (default : PyValue) :
    d.getD key default = d'.getD key default := by
  rw [Dict.getD, Dict.getD, h key hkey]

theorem Dict.agreeOutside_set (d : Dict) (key : String) (value : PyValue) :
    (d.set key value).AgreeOutside [key] d := by
  intro k hk
  rw [Dict.get_set, if_neg (fun heq => hk (List.mem_singleton.mpr heq))]

namespace Connectors

open Ingestion

/-- The keys that `run` reads, beside those that the hooks of a connector read. -/
def runKeys : List String :=
  ["fetch_scope", "fetch_range", "page_size", "max_pages", "already_seen_stop_threshold"]

/-- A connector with a fetch scope: a term changes the requests only, and
`fetch_scope` itself is no part of them. -/
structure FetchScopeConnector (Cursor : Type) extends JobBoardConnector Cursor where
  /-- The keys that `apply_fetch_scope_term` sets. -/
  termKeys : List String
  runKeys_not_term : ∀ key ∈ runKeys, key ∉ termKeys
  supports : supportsFetchScope = true
  applyFetchScopeTerm_agrees : ∀ config term,
    (applyFetchScopeTerm config term).AgreeOutside termKeys config
  fetchPage_agrees : ∀ {config config' : Dict}, config.AgreeOutside ["fetch_scope"] config' →
    ∀ pass pageSize, fetchPage pass config pageSize = fetchPage pass config' pageSize
  runnerKwargs_agrees : ∀ {config config' : Dict},
    config.AgreeOutside ("fetch_scope" :: termKeys) config' →
    ∀ limits, runnerKwargs config limits = runnerKwargs config' limits

/-! ## SOLID.Jobs -/

namespace SolidJobs

/-- What `build_offer_url` and `build_offer_params` put into a request. Spelling
the values out in the address is left to the site's side. -/
structure OfferRequest where
  division : PyValue
  campaign : String
  pageIndex : Int
  pageSize : Nat
  cities : Option PyValue
  experiences : Option PyValue
  searchTerm : Option PyValue
  minimumSalary : Option PyValue
  deriving DecidableEq

/-- A parameter that is left out where its value is falsy. -/
def given (config : Dict) (key : String) : Option PyValue :=
  let value := config.getD key .none
  if value.truthy then some value else none

def buildOfferRequest (campaign : String) (config : Dict) (pageIndex : Int) (pageSize : Nat) :
    OfferRequest where
  division := config.getD "division" (.str "IT")
  campaign := campaign
  pageIndex := pageIndex
  pageSize := pageSize
  cities := given config "cities"
  experiences := given config "experience_levels"
  searchTerm := given config "terms"
  minimumSalary :=
    let minSalary := config.getD "min_salary" .none
    if minSalary = .none then none else some minSalary

def nextCursor (pageSize : Nat) (_payload : PyValue) (offers : List Dict) (cursor : Int) :
    Option Int :=
  if pageSize ≤ offers.length then some (cursor + 1) else none

def applyFetchScopeTerm (config : Dict) (term : String) : Dict :=
  config.set "terms" (.list [.str term])

/-- What the site answers to the request for a page of a pass. -/
abbrev Site := (pass page : Nat) → OfferRequest → Fetched PyValue

def fetchPage (site : Site) (campaign : String) (pass : Nat) (config : Dict) (pageSize : Nat) :
    FetchPage Int :=
  templateFetchPage
    (fun page cursor => site pass page (buildOfferRequest campaign config cursor pageSize))
    (fun payload => extractEnvelopeList payload "jobs" true) (nextCursor pageSize)

theorem buildOfferRequest_agrees {config config' : Dict}
    (h : config.AgreeOutside ["fetch_scope"] config') (campaign : String) (pageIndex : Int)
    (pageSize : Nat) : buildOfferRequest campaign config pageIndex pageSize =
      buildOfferRequest campaign config' pageIndex pageSize := by
  have hread {key : String} (hkey : key ≠ "fetch_scope") (default : PyValue) :
      config.getD key default = config'.getD key default :=
    h.getD (fun hmem => hkey (List.mem_singleton.mp hmem)) default
  have hgiven {key : String} (hkey : key ≠ "fetch_scope") : given config key = given config' key := by
    rw [given, given, hread hkey]
  rw [buildOfferRequest, buildOfferRequest, hread (by decide), hgiven (by decide),
    hgiven (by decide), hgiven (by decide), hread (by decide)]

end SolidJobs

def solidJobs (tools : MapTools) (site : SolidJobs.Site) (campaign : String) :
    FetchScopeConnector Int where
  name := "SOLID.Jobs"
  initialCursor := 0
  mapOffer := SolidJobs.mapOffer tools
  supportsFetchScope := true
  applyFetchScopeTerm := SolidJobs.applyFetchScopeTerm
  runnerKwargs := fun _ limits => pure limits
  fetchPage := SolidJobs.fetchPage site campaign
  termKeys := ["terms"]
  runKeys_not_term := by decide
  supports := rfl
  applyFetchScopeTerm_agrees := fun config term => config.agreeOutside_set "terms" _
  fetchPage_agrees := by
    intro config config' h pass pageSize
    have hrequest := SolidJobs.buildOfferRequest_agrees h campaign
    simp only [SolidJobs.fetchPage, hrequest]
  runnerKwargs_agrees := fun _ _ => rfl

end Connectors

end RecruFlow
