import RecruFlow.Connectors.PracujListing

/-!
# Does the next run resume past unseen postings?

The cap on the records can fill in the middle of a listing page. The call then
leaves the rest of that page, and still reports the page as consumed.
-/

namespace RecruFlow.Connectors

variable (site : PracujSite)

/-- The candidate urls of a listing page. -/
def PracujSite.candidates (pageNum : Nat) : List PyValue :=
  match site.listingPage pageNum with
  | .got grouped => (candidateUrls grouped).toOption.getD []
  | _ => []

/-- The listing pages that a call goes through when no cap stops it: up to a
failed, malformed or empty page, or past a short one. -/
def listingPages (pageSize : Nat) : (pages pageNum : Nat) → List Nat
  | 0, _ => []
  | pages + 1, pageNum =>
      match site.listingPage pageNum with
      | .got (group :: groups) =>
          match candidateUrls (group :: groups) with
          | .ok _ =>
              if (group :: groups).length < pageSize then [pageNum]
              else pageNum :: listingPages pageSize pages (pageNum + 1)
          | .error _ => []
      | _ => []

/-- Whether the fetch of `url`, after that of `before`, gives a record. -/
def PracujSite.yields (before : List PyValue) (url : PyValue) : Bool :=
  match site.detail before.length url with
  | .got _ => true
  | _ => false

/-- What going through the candidates of a page comes to. -/
structure Filled where
  /-- The records that the cap still leaves room for. -/
  room : Nat
  fetched : List PyValue
  /-- The candidates after the one whose record filled the cap. -/
  left : List PyValue

/-- Fetch the urls, after those of `before`, while there is room for a record. -/
def fillCap : (room : Nat) → (before urls : List PyValue) → Filled
  | 0, before, urls => ⟨0, before, urls⟩
  | room + 1, before, [] => ⟨room + 1, before, []⟩
  | room + 1, before, url :: urls =>
      fillCap (if site.yields before url then room else room + 1) (before ++ [url]) urls

/-- On the page on which the cap fills, every candidate after the one that
filled it is a url that was listed, and so fetched, before. -/
def CapLeavesNothing : (room : Nat) → (before : List PyValue) → List Nat → Prop
  | _, _, [] => True
  | room, before, pageNum :: pages =>
      let filled := fillCap site room before (site.candidates pageNum)
      (∀ url ∈ filled.left, url ∈ filled.fetched) ∧
        (filled.room ≠ 0 → CapLeavesNothing filled.room filled.fetched pages)

/-- Every candidate of the pages that the next run does not come back to has been fetched. -/
def NothingSkipped (startPage : Nat) (e : Enumeration) : Prop :=
  ∀ pageNum, (if e.nextStartPage = 1 then pageNum ∈ e.consumed
      else startPage ≤ pageNum ∧ pageNum < e.nextStartPage) →
    ∀ url ∈ site.candidates pageNum, url ∈ e.collected.fetched

variable {site}

/-! ## One page -/

theorem fillCap_split (room : Nat) (before urls : List PyValue) :
    ∃ done, (fillCap site room before urls).fetched = before ++ done ∧
      urls = done ++ (fillCap site room before urls).left ∧
      ((fillCap site room before urls).room ≠ 0 → (fillCap site room before urls).left = []) := by
  induction urls generalizing room before with
  | nil => cases room <;> exact ⟨[], by simp [fillCap], by simp [fillCap], by simp [fillCap]⟩
  | cons url urls ih =>
      cases room with
      | zero => exact ⟨[], by simp [fillCap], by simp [fillCap], by simp [fillCap]⟩
      | succ room =>
          rw [fillCap]
          obtain ⟨done, hfetched, hurls, hleft⟩ :=
            ih (if site.yields before url then room else room + 1) (before ++ [url])
          refine ⟨url :: done, by rw [hfetched]; simp, ?_, hleft⟩
          rw [List.cons_append, ← hurls]

/-- A page is covered by the fetches up to it exactly when the cap left nothing new on it. -/
theorem fillCap_covers_iff (room : Nat) (before urls : List PyValue) :
    (∀ url ∈ urls, url ∈ (fillCap site room before urls).fetched) ↔
      ∀ url ∈ (fillCap site room before urls).left,
        url ∈ (fillCap site room before urls).fetched := by
  obtain ⟨done, hfetched, hurls, _⟩ := @fillCap_split site room before urls
  constructor
  · intro h url hurl
    refine h url ?_
    rw [hurls]
    exact List.mem_append_right done hurl
  · intro h url hurl
    rw [hurls] at hurl
    rcases List.mem_append.mp hurl with hdone | hleft
    · rw [hfetched]
      exact List.mem_append_right before hdone
    · exact h url hleft

theorem fetchDetail_fetched (c : Collected) (url : PyValue) :
    (fetchDetail site c url).fetched = c.fetched ++ [url] := by
  unfold fetchDetail
  split <;> rfl

theorem fetchDetail_records_length (c : Collected) (url : PyValue) :
    (fetchDetail site c url).records.length =
      if site.yields c.fetched url then c.records.length + 1 else c.records.length := by
  unfold fetchDetail PracujSite.yields
  cases site.detail c.fetched.length url <;> simp

/-- The detail fetches of a page follow `fillCap`. -/
theorem fetchOfferDetails_eq {totalCap : Nat} (urls : List PyValue) (c : Collected)
    (hc : c.records.length ≤ totalCap) :
    let filled := fillCap site (totalCap - c.records.length) c.fetched urls
    (fetchOfferDetails site totalCap urls c).fetched = filled.fetched ∧
      (fetchOfferDetails site totalCap urls c).records.length ≤ totalCap ∧
      totalCap - (fetchOfferDetails site totalCap urls c).records.length = filled.room := by
  induction urls generalizing c with
  | nil =>
      cases hroom : totalCap - c.records.length with
      | zero => exact ⟨rfl, hc, hroom⟩
      | succ room => exact ⟨rfl, hc, hroom⟩
  | cons url urls ih =>
      rw [fetchOfferDetails]
      cases hroom : totalCap - c.records.length with
      | zero =>
          rw [if_pos (by omega)]
          exact ⟨rfl, hc, hroom⟩
      | succ room =>
          rw [if_neg (by omega)]
          have hlength := @fetchDetail_records_length site c url
          have hroom' : totalCap - (fetchDetail site c url).records.length =
              if site.yields c.fetched url then room else room + 1 := by
            rw [hlength]
            split <;> omega
          have := ih (fetchDetail site c url) (by rw [hlength]; split <;> omega)
          rwa [hroom', fetchDetail_fetched] at this

section Page

variable {totalCap pageNum : Nat} {urls : List PyValue} {c : Collected} {pages : List Nat}

theorem fetchOfferDetails_le (hc : c.records.length ≤ totalCap) :
    (fetchOfferDetails site totalCap urls c).records.length ≤ totalCap :=
  (fetchOfferDetails_eq urls c hc).2.1

theorem fetchOfferDetails_kept (hc : c.records.length ≤ totalCap) :
    ∀ url ∈ c.fetched, url ∈ (fetchOfferDetails site totalCap urls c).fetched := by
  obtain ⟨done, hdone, _⟩ := @fillCap_split site (totalCap - c.records.length) c.fetched urls
  rw [(fetchOfferDetails_eq urls c hc).1, hdone]
  exact fun url hurl => List.mem_append_left done hurl

/-- With room for another record left, the whole page has been fetched. -/
theorem fetchOfferDetails_roomy (hc : c.records.length ≤ totalCap)
    (hlt : (fetchOfferDetails site totalCap urls c).records.length < totalCap) :
    ∀ url ∈ urls, url ∈ (fetchOfferDetails site totalCap urls c).fetched := by
  obtain ⟨hfetched, _, hroom⟩ := @fetchOfferDetails_eq site totalCap urls c hc
  obtain ⟨_, _, _, hleft⟩ := @fillCap_split site (totalCap - c.records.length) c.fetched urls
  rw [hfetched, fillCap_covers_iff, hleft (by omega)]
  simp

/-- One page of the condition, in terms of the detail fetches of that page. -/
theorem capLeavesNothing_page (hurls : site.candidates pageNum = urls)
    (hc : c.records.length ≤ totalCap) :
    CapLeavesNothing site (totalCap - c.records.length) c.fetched (pageNum :: pages) ↔
      (∀ url ∈ urls, url ∈ (fetchOfferDetails site totalCap urls c).fetched) ∧
        ((fetchOfferDetails site totalCap urls c).records.length < totalCap →
          CapLeavesNothing site
            (totalCap - (fetchOfferDetails site totalCap urls c).records.length)
            (fetchOfferDetails site totalCap urls c).fetched pages) := by
  obtain ⟨hfetched, hle, hroom⟩ := @fetchOfferDetails_eq site totalCap urls c hc
  have hlt : (fetchOfferDetails site totalCap urls c).records.length < totalCap ↔
      (fillCap site (totalCap - c.records.length) c.fetched urls).room ≠ 0 := by
    omega
  rw [hlt, hfetched, hroom, fillCap_covers_iff, CapLeavesNothing, hurls]

end Page

/-! ## The walk -/

/-- What the walk does from the head of the loop: which pages it consumes, and,
while there is room for a record, when it fetches all their candidates. -/
private def Walked (site : PracujSite) (pageSize totalCap pages pageNum : Nat) (c : Collected)
    (consumed : List Nat) (e : Enumeration) : Prop :=
  ∃ done, e.consumed = consumed ++ done ∧
    (e.nextStartPage = 1 ∨ (pageNum ≤ e.nextStartPage ∧
      ∀ n, n ∈ done ↔ pageNum ≤ n ∧ n < e.nextStartPage)) ∧
    (∀ url ∈ c.fetched, url ∈ e.collected.fetched) ∧
    (c.records.length < totalCap →
      ((∀ n ∈ done, ∀ url ∈ site.candidates n, url ∈ e.collected.fetched) ↔
        CapLeavesNothing site (totalCap - c.records.length) c.fetched
          (listingPages site pageSize pages pageNum))) ∧
    (totalCap ≤ c.records.length → done = [] ∧ e.collected.fetched = c.fetched)

/-- A walk that ends before its next page. -/
private theorem walked_none {pageSize totalCap pages pageNum nextStartPage : Nat} {c : Collected}
    {consumed : List Nat} {midRunFailure : Bool} {status : Option Nat}
    (hpages : listingPages site pageSize pages pageNum = [])
    (hnext : nextStartPage = 1 ∨ nextStartPage = pageNum) :
    Walked site pageSize totalCap pages pageNum c consumed
      ⟨c, true, midRunFailure, nextStartPage, status, consumed⟩ := by
  refine ⟨[], by simp, ?_, fun _ h => h, fun _ => ?_, fun _ => ⟨rfl, rfl⟩⟩
  · rcases hnext with rfl | rfl
    · exact .inl rfl
    · exact .inr ⟨Nat.le_refl _, by simp⟩
  · simp [hpages, CapLeavesNothing]

private theorem collectLoop_spec {startPage pageSize totalCap : Nat} (pages pageNum : Nat)
    (c : Collected) (consumed : List Nat) {e : Enumeration}
    (hc : c.records.length ≤ totalCap)
    (hloop : collectLoop site startPage pageSize totalCap pages pageNum c consumed = .ok e)
    (hok : e.enumerationOk) :
    Walked site pageSize totalCap pages pageNum c consumed e := by
  induction pages generalizing pageNum c consumed with
  | zero =>
      obtain rfl := Except.ok.inj hloop
      exact walked_none rfl (.inr rfl)
  | succ pages ih =>
      rw [collectLoop] at hloop
      split at hloop
      · obtain rfl := Except.ok.inj hloop
        exact ⟨[], by simp, .inr ⟨Nat.le_refl _, by simp⟩, fun _ h => h, fun hroom => by omega,
          fun _ => ⟨rfl, rfl⟩⟩
      · next hroom =>
        -- a failed listing page ends the walk, and the first one fails it
        have hfailure : ∀ status, listingFailure startPage pageNum c consumed status = e →
            listingPages site pageSize (pages + 1) pageNum = [] → Walked site pageSize totalCap
              (pages + 1) pageNum c consumed e := by
          intro status heq hpages
          unfold listingFailure at heq
          split at heq
          · rw [← heq] at hok
            cases hok
          · rw [← heq]
            exact walked_none hpages (.inr rfl)
        split at hloop
        · next code hpage =>
          exact hfailure code (Except.ok.inj hloop) (by rw [listingPages, hpage])
        · next hpage =>
          exact hfailure none (Except.ok.inj hloop) (by rw [listingPages, hpage])
        · next hpage =>
          rw [← Except.ok.inj hloop]
          exact walked_none (by rw [listingPages, hpage]) (.inl rfl)
        · next grouped hne hpage =>
          obtain ⟨urls, hurls, hloop⟩ := bind_ok hloop
          obtain ⟨group, groups, rfl⟩ := List.exists_cons_of_ne_nil hne
          have hcandidates : site.candidates pageNum = urls := by
            rw [PracujSite.candidates, hpage]
            simp [hurls, Except.toOption]
          have hpages : listingPages site pageSize (pages + 1) pageNum =
              if (group :: groups).length < pageSize then [pageNum]
              else pageNum :: listingPages site pageSize pages (pageNum + 1) := by
            simp only [listingPages, hpage, hurls]
          have hle := @fetchOfferDetails_le site totalCap urls c hc
          have hkept := @fetchOfferDetails_kept site totalCap urls c hc
          have hroomy := @fetchOfferDetails_roomy site totalCap urls c hc
          have hcap := fun ps => @capLeavesNothing_page site totalCap pageNum urls c ps hcandidates hc
          simp only at hloop
          generalize fetchOfferDetails site totalCap urls c = c' at hle hkept hroomy hcap hloop
          split at hloop
          · next hshort =>
            rw [← Except.ok.inj hloop]
            refine ⟨[pageNum], rfl, .inl rfl, hkept, fun _ => ?_, fun hfull => by omega⟩
            rw [hpages, if_pos hshort, hcap]
            simp [hcandidates, CapLeavesNothing]
          · next hlong =>
            obtain ⟨done, hconsumed, hnext, hmore, hiff, hfull⟩ :=
              ih (pageNum + 1) c' (consumed ++ [pageNum]) hle hloop
            refine ⟨pageNum :: done, by rw [hconsumed]; simp, ?_,
              fun url hurl => hmore url (hkept url hurl), fun _ => ?_, fun hfull => by omega⟩
            · rcases hnext with hwrap | ⟨hbound, hnext⟩
              · exact .inl hwrap
              · refine .inr ⟨by omega, fun n => ?_⟩
                rw [List.mem_cons, hnext]
                omega
            · rw [hpages, if_neg hlong, hcap, List.forall_mem_cons, hcandidates]
              rcases Nat.lt_or_ge c'.records.length totalCap with hlt | hge
              · rw [← hiff hlt]
                have hpage : ∀ url ∈ urls, url ∈ c'.fetched := hroomy hlt
                exact ⟨fun h => ⟨hpage, fun _ => h.2⟩,
                  fun h => ⟨fun url hurl => hmore url (hpage url hurl), h.2 hlt⟩⟩
              · obtain ⟨rfl, hsame⟩ := hfull hge
                rw [hsame]
                exact ⟨fun h => ⟨h.1, fun hlt => by omega⟩, fun h => ⟨h.1, by simp⟩⟩

/-- A successful enumeration skips no candidate that the next run does not come
back to exactly when the cap, on the page on which it fills, leaves nothing new. -/
theorem collectOffers_skips_nothing_iff {startPage pageSize maxPages : Nat} {e : Enumeration}
    (hsize : 1 ≤ pageSize) (hmax : 1 ≤ maxPages)
    (hcollect : collectOffers site startPage pageSize maxPages = .ok e)
    (hok : e.enumerationOk = true) :
    NothingSkipped site startPage e ↔ CapLeavesNothing site (pageSize * maxPages) []
      (listingPages site pageSize maxPages startPage) := by
  have hcap : 0 < pageSize * maxPages := Nat.mul_pos hsize hmax
  obtain ⟨done, hconsumed, hnext, _, hiff, _⟩ :=
    collectLoop_spec maxPages startPage {} [] (Nat.zero_le _) hcollect hok
  have hall : (∀ n ∈ done, ∀ url ∈ site.candidates n, url ∈ e.collected.fetched) ↔
      CapLeavesNothing site (pageSize * maxPages) []
        (listingPages site pageSize maxPages startPage) := hiff hcap
  rw [← hall, NothingSkipped]
  rw [List.nil_append] at hconsumed
  refine forall_congr' fun n => ?_
  have hpages : (if e.nextStartPage = 1 then n ∈ e.consumed
      else startPage ≤ n ∧ n < e.nextStartPage) ↔ n ∈ done := by
    split
    · rw [hconsumed]
    · next hne =>
      rcases hnext with hwrap | ⟨_, hnext⟩
      · exact absurd hwrap hne
      · exact (hnext n).symm
  rw [hpages]

/-! ## One posting with two locations -/

/-- A group of the listing with its sub-offers. -/
def group (urls : List String) : PyValue :=
  .dict [("offers", .list (urls.map fun url => .dict [("offerAbsoluteUri", .str url)]))]

/-- A listing whose every page has one group with the urls; every detail page can be read. -/
def siteOf (urls : List String) : PracujSite :=
  ⟨fun _ => .got [group urls], fun _ _ => .got ⟨[]⟩⟩

theorem collectOffers_skips_nothing_iff_two :
    ∃ e, collectOffers (siteOf ["a", "b"]) 1 1 1 = .ok e ∧
      (NothingSkipped (siteOf ["a", "b"]) 1 e ↔ CapLeavesNothing (siteOf ["a", "b"]) (1 * 1) []
        (listingPages (siteOf ["a", "b"]) 1 1 1)) :=
  ⟨_, rfl, collectOffers_skips_nothing_iff (Nat.le_refl 1) (Nat.le_refl 1) rfl rfl⟩

/-- One page with one group of two sub-offers fills a cap of one: the second
detail url is not fetched, and the next run starts at page 2. -/
theorem collectOffers_skips_sub_offer :
    ∃ e, collectOffers (siteOf ["a", "b"]) 1 1 1 = .ok e ∧ e.enumerationOk = true ∧
      e.nextStartPage = 2 ∧ (siteOf ["a", "b"]).candidates 1 = [.str "a", .str "b"] ∧
      e.collected.fetched = [.str "a"] ∧ ¬ NothingSkipped (siteOf ["a", "b"]) 1 e := by
  refine ⟨_, rfl, rfl, rfl, rfl, rfl, fun h => ?_⟩
  have hfetched : PyValue.str "b" ∈ [PyValue.str "a"] :=
    h 1 ⟨Nat.le_refl 1, Nat.lt_succ_self 1⟩ (.str "b") (.tail _ (.head _))
  simp at hfetched

end RecruFlow.Connectors
