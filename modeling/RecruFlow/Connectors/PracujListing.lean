import RecruFlow.Connectors.Http

/-!
# Enumerating the Pracuj.pl search listing

A run walks listing pages and fetches the detail page of every offer that they
name, up to `page_size * max_pages` records. What the site answers is a
parameter: one answer for each listing page, and one for each detail fetch in
the order of the fetches.
-/

namespace RecruFlow.Connectors

structure PracujSite where
  /-- The `groupedOffers` of a listing page. -/
  listingPage : Nat → Fetched (List PyValue)
  /-- The `jobOffer` record behind a detail url; the number counts the fetches before. -/
  detail : Nat → PyValue → Fetched Dict

/-- The elements that a `for` loop over a value goes through. -/
def iterate : PyValue → Except PyError (List PyValue)
  | .list xs => .ok xs
  | .dict items => .ok (items.map fun item => .str item.1)
  | .str s => .ok (s.toList.map fun c => .str (String.singleton c))
  | _ => .error .typeError

/-- `sub_offer["offerAbsoluteUri"]` of a dictionary that has a non-empty one. -/
def offerAbsoluteUri : PyValue → Option PyValue
  | .dict items => (Dict.get ⟨items⟩ "offerAbsoluteUri").filter (·.truthy)
  | _ => none

def candidateUrls : List PyValue → Except PyError (List PyValue)
  | [] => .ok []
  | .dict group :: grouped => do
      let offers := Dict.getD ⟨group⟩ "offers" .none
      let subOffers ← iterate (if offers.truthy then offers else .list [])
      let rest ← candidateUrls grouped
      pure (subOffers.filterMap offerAbsoluteUri ++ rest)
  | _ :: grouped => candidateUrls grouped

/-- What a call has gathered so far. -/
structure Collected where
  /-- The records, in the order of their fetches. -/
  records : List Dict := []
  blocked : List (PyValue × Nat) := []
  /-- Every detail url fetched so far, in order. -/
  fetched : List PyValue := []
  deriving DecidableEq

variable (site : PracujSite)

/-- One turn of the loop of `_fetch_offer_details`. -/
def fetchDetail (c : Collected) (url : PyValue) : Collected :=
  let c' := { c with fetched := c.fetched ++ [url] }
  match site.detail c.fetched.length url with
  | .blocked statusCode => { c' with blocked := c.blocked ++ [(url, statusCode)] }
  | .failed => c'
  | .got record => { c' with records := c.records ++ [record] }

def fetchOfferDetails (totalCap : Nat) : List PyValue → Collected → Collected
  | [], c => c
  | url :: urls, c =>
      if totalCap ≤ c.records.length then c
      else fetchOfferDetails totalCap urls (fetchDetail site c url)

/-- The results of `_collect_offers`, with the out-parameter `blocked` and what was walked. -/
structure Enumeration where
  collected : Collected
  enumerationOk : Bool
  midRunFailure : Bool
  nextStartPage : Nat
  listingBlockedStatus : Option Nat
  /-- The listing pages whose candidates were gone through. -/
  consumed : List Nat
  deriving DecidableEq

/-- Without its first listing page an enumeration has failed; past it, what was
collected is kept and the next run starts at the page that failed. -/
def listingFailure (startPage pageNum : Nat) (c : Collected) (consumed : List Nat)
    (status : Option Nat) : Enumeration :=
  if pageNum = startPage then
    ⟨{ c with records := [] }, false, false, startPage, status, consumed⟩
  else ⟨c, true, true, pageNum, status, consumed⟩

/-- The loop over the listing pages: `pages` of them are left, from `pageNum` on. -/
def collectLoop (startPage pageSize totalCap : Nat) :
    (pages pageNum : Nat) → Collected → List Nat → Except PyError Enumeration
  | 0, pageNum, c, consumed => .ok ⟨c, true, false, pageNum, none, consumed⟩
  | pages + 1, pageNum, c, consumed =>
      if totalCap ≤ c.records.length then .ok ⟨c, true, false, pageNum, none, consumed⟩
      else
        match site.listingPage pageNum with
        | .blocked statusCode => .ok (listingFailure startPage pageNum c consumed statusCode)
        | .failed => .ok (listingFailure startPage pageNum c consumed none)
        | .got [] => .ok ⟨c, true, false, 1, none, consumed⟩
        | .got grouped => do
            let urls ← candidateUrls grouped
            let c := fetchOfferDetails site totalCap urls c
            let consumed := consumed ++ [pageNum]
            if grouped.length < pageSize then pure ⟨c, true, false, 1, none, consumed⟩
            else collectLoop startPage pageSize totalCap pages (pageNum + 1) c consumed

def collectOffers (startPage pageSize maxPages : Nat) : Except PyError Enumeration :=
  collectLoop site startPage pageSize (pageSize * maxPages) maxPages startPage {} []

end RecruFlow.Connectors
