import Mathlib.Logic.Equiv.Basic
import RecruFlow.Ingestion.Persist
import RecruFlow.Lib.Joined

/-!
# What the hash of an offer identifies

Two offers are the same posting when their urls name the same page, and when no
url names one, when title, company and location are the same. The urls and the
joined texts of the fallback go through one hash.
-/

namespace RecruFlow.Ingestion

open Lib Schemas

variable (text : TextTools)

/-- The normalised url of an offer that has one with a path. -/
def comparableUrl (offer : Offer) : Except PyError (Option String) :=
  match offer.canonicalUrl with
  | none => pure none
  | some url => do
      let normalized ← normalizeCanonicalUrl text url
      let comparable ← isComparable text normalized
      pure (if comparable then some normalized else none)

/-- Title, company and location as the fallback compares them. -/
def keyParts (offer : Offer) : List String :=
  [offer.title, offer.company, offer.location.getD ""].map fun s => text.lower (Python.strip s)

def fallbackKey (offer : Offer) : String :=
  "|".intercalate (keyParts text offer)

/-- How many bars the title and the company have of their own. -/
def innerBars (offer : Offer) : List Nat :=
  Joined.inner '|' ((keyParts text offer).map String.toList)

/-- The documented identity of two offers. -/
def SameKey (x y : Offer) : Prop :=
  (∃ url, comparableUrl text x = .ok (some url) ∧ comparableUrl text y = .ok (some url)) ∨
    ((∀ url, comparableUrl text x ≠ .ok (some url)) ∧
      (∀ url, comparableUrl text y ≠ .ok (some url)) ∧ keyParts text x = keyParts text y)

def SameHash (x y : Offer) : Prop :=
  ∃ hash, computeDedupHash text x = .ok hash ∧ computeDedupHash text y = .ok hash

/-- No url reads like the joined text of the other offer, the bars of joined texts
that read the same are at the same places, and a url of offers with the same
texts can be read. -/
structure KeysApart (x y : Offer) : Prop where
  url_ne_text : ∀ url, comparableUrl text x = .ok (some url) →
    comparableUrl text y = .ok none → url ≠ fallbackKey text y
  text_ne_url : ∀ url, comparableUrl text x = .ok none →
    comparableUrl text y = .ok (some url) → url ≠ fallbackKey text x
  bars : comparableUrl text x = .ok none → comparableUrl text y = .ok none →
    fallbackKey text x = fallbackKey text y → innerBars text x = innerBars text y
  readable : (∀ url, comparableUrl text x ≠ .ok (some url)) →
    (∀ url, comparableUrl text y ≠ .ok (some url)) → keyParts text x = keyParts text y →
      comparableUrl text x = .ok none ∧ comparableUrl text y = .ok none

variable {text} {x y : Offer}

/-- The hash is taken of the url that names a page, else of the joined text. -/
theorem computeDedupHash_eq (offer : Offer) :
    computeDedupHash text offer =
      (comparableUrl text offer).map fun url =>
        text.sha256 (url.getD (fallbackKey text offer)) := by
  unfold computeDedupHash comparableUrl
  cases offer.canonicalUrl with
  | none => rfl
  | some url =>
    cases hnormalized : normalizeCanonicalUrl text url with
    | error e => simp [hnormalized, bind, Except.bind, Except.map]
    | ok normalized =>
      cases hcomparable : isComparable text normalized with
      | error e => simp [hnormalized, hcomparable, bind, Except.bind, Except.map]
      | ok comparable =>
        cases comparable <;>
          simp [hnormalized, hcomparable, bind, Except.bind, Except.map, pure, Except.pure,
            fallbackHash, fallbackKey, keyParts]

theorem computeDedupHash_of_url {url : String}
    (h : comparableUrl text x = .ok (some url)) :
    computeDedupHash text x = .ok (text.sha256 url) := by
  rw [computeDedupHash_eq, h]
  rfl

theorem computeDedupHash_of_text (h : comparableUrl text x = .ok none) :
    computeDedupHash text x = .ok (text.sha256 (fallbackKey text x)) := by
  rw [computeDedupHash_eq, h]
  rfl

theorem computeDedupHash_of_error {e : PyError} (h : comparableUrl text x = .error e) :
    computeDedupHash text x = .error e := by
  rw [computeDedupHash_eq, h]
  rfl

/-- Joined texts that read the same are of the same parts exactly when their bars agree. -/
theorem keyParts_eq_iff (h : fallbackKey text x = fallbackKey text y) :
    keyParts text x = keyParts text y ↔ innerBars text x = innerBars text y := by
  have hjoined : ['|'].intercalate ((keyParts text x).map String.toList) =
      ['|'].intercalate ((keyParts text y).map String.toList) := by
    have := congrArg String.toList h
    rwa [fallbackKey, fallbackKey, String.toList_intercalate, String.toList_intercalate] at this
  have hinjective : Function.Injective (List.map String.toList) :=
    List.map_injective_iff.mpr fun _ _ => String.toList_inj.mp
  calc keyParts text x = keyParts text y
      ↔ (keyParts text x).map String.toList = (keyParts text y).map String.toList :=
        hinjective.eq_iff.symm
    _ ↔ innerBars text x = innerBars text y := Joined.eq_iff_inner_eq (by simp [keyParts]) hjoined

theorem sameHash_iff (hsha : Function.Injective text.sha256) {key key' : String}
    (hx : computeDedupHash text x = .ok (text.sha256 key))
    (hy : computeDedupHash text y = .ok (text.sha256 key')) :
    SameHash text x y ↔ key = key' := by
  constructor
  · rintro ⟨hash, hxhash, hyhash⟩
    have hhash : text.sha256 key = hash := Except.ok.inj (hx.symm.trans hxhash)
    have hhash' : text.sha256 key' = hash := Except.ok.inj (hy.symm.trans hyhash)
    exact hsha (hhash.trans hhash'.symm)
  · intro hkey
    exact ⟨text.sha256 key, hx, by rw [hy, hkey]⟩

theorem SameHash.comm : SameHash text x y ↔ SameHash text y x := by
  simp only [SameHash, and_comm]

theorem SameKey.comm : SameKey text x y ↔ SameKey text y x := by
  constructor <;>
  · rintro (⟨url, hx, hy⟩ | ⟨hx, hy, hparts⟩)
    · exact .inl ⟨url, hy, hx⟩
    · exact .inr ⟨hy, hx, hparts.symm⟩

theorem KeysApart.symm (h : KeysApart text x y) : KeysApart text y x where
  url_ne_text url hy hx := h.text_ne_url url hx hy
  text_ne_url url hy hx := h.url_ne_text url hx hy
  bars hy hx hkey := (h.bars hx hy hkey.symm).symm
  readable hy hx hparts := (h.readable hx hy hparts.symm).symm

theorem hash_iff_key_comm (h : (SameHash text y x ↔ SameKey text y x) ↔ KeysApart text y x) :
    (SameHash text x y ↔ SameKey text x y) ↔ KeysApart text x y := by
  rw [SameHash.comm, SameKey.comm, h]
  exact ⟨KeysApart.symm, KeysApart.symm⟩

/-- Both urls name a page: the hash says which one. -/
theorem hash_iff_key_of_urls (hsha : Function.Injective text.sha256) {url url' : String}
    (hx : comparableUrl text x = .ok (some url)) (hy : comparableUrl text y = .ok (some url')) :
    (SameHash text x y ↔ SameKey text x y) ∧ KeysApart text x y := by
  constructor
  · rw [sameHash_iff hsha (computeDedupHash_of_url hx) (computeDedupHash_of_url hy)]
    simp [SameKey, hx, hy, eq_comm]
  · constructor <;> simp [hx, hy]

/-- One url names a page: the two offers are told apart as long as it does not read
like the joined text of the other one. -/
theorem hash_iff_key_of_url_text (hsha : Function.Injective text.sha256) {url : String}
    (hx : comparableUrl text x = .ok (some url)) (hy : comparableUrl text y = .ok none) :
    (SameHash text x y ↔ SameKey text x y) ↔ KeysApart text x y := by
  have hkey : ¬ SameKey text x y := by simp [SameKey, hx, hy]
  have hapart : KeysApart text x y ↔ url ≠ fallbackKey text y := by
    constructor
    · intro h
      exact h.url_ne_text url hx hy
    · intro h
      constructor <;> simp [hx, hy, h]
  rw [sameHash_iff hsha (computeDedupHash_of_url hx) (computeDedupHash_of_text hy), hapart,
    iff_false_right hkey]

/-- No url names a page: joined texts that read the same are of the same parts as
long as their bars agree. -/
theorem hash_iff_key_of_texts (hsha : Function.Injective text.sha256)
    (hx : comparableUrl text x = .ok none) (hy : comparableUrl text y = .ok none) :
    (SameHash text x y ↔ SameKey text x y) ↔ KeysApart text x y := by
  have hkey : SameKey text x y ↔ keyParts text x = keyParts text y := by simp [SameKey, hx, hy]
  have hapart : KeysApart text x y ↔
      (fallbackKey text x = fallbackKey text y → innerBars text x = innerBars text y) := by
    constructor
    · intro h
      exact h.bars hx hy
    · intro h
      constructor <;> simp [hx, hy]
      exact h
  rw [sameHash_iff hsha (computeDedupHash_of_text hx) (computeDedupHash_of_text hy), hkey, hapart]
  constructor
  · intro h htext
    exact (keyParts_eq_iff htext).mp (h.mp htext)
  · intro h
    constructor
    · intro htext
      exact (keyParts_eq_iff htext).mpr (h htext)
    · intro hparts
      rw [fallbackKey, fallbackKey, hparts]

/-- A url that cannot be read gives no hash, whatever the other offer is. -/
theorem hash_iff_key_of_error {e : PyError} (hx : comparableUrl text x = .error e) :
    (SameHash text x y ↔ SameKey text x y) ↔ KeysApart text x y := by
  have hhash : ¬ SameHash text x y := by
    rintro ⟨hash, hxhash, -⟩
    rw [computeDedupHash_of_error hx] at hxhash
    cases hxhash
  have hkey : SameKey text x y ↔
      (∀ url, comparableUrl text y ≠ .ok (some url)) ∧ keyParts text x = keyParts text y := by
    simp [SameKey, hx]
  rw [iff_false_left hhash, hkey]
  constructor
  · intro h
    constructor
    · simp [hx]
    · simp [hx]
    · simp [hx]
    · intro _ hy hparts
      exact absurd ⟨hy, hparts⟩ h
  · rintro h ⟨hy, hparts⟩
    have hread := (h.readable (by simp [hx]) hy hparts).1
    rw [hx] at hread
    cases hread

/-- Equal hashes are equal identities exactly for offers whose keys are apart. -/
theorem sameHash_iff_sameKey_iff (hsha : Function.Injective text.sha256) (x y : Offer) :
    (SameHash text x y ↔ SameKey text x y) ↔ KeysApart text x y := by
  cases hx : comparableUrl text x with
  | error e => exact hash_iff_key_of_error hx
  | ok url =>
    cases hy : comparableUrl text y with
    | error e => exact hash_iff_key_comm (hash_iff_key_of_error hy)
    | ok url' =>
      cases url with
      | none =>
        cases url' with
        | none => exact hash_iff_key_of_texts hsha hx hy
        | some url' => exact hash_iff_key_comm (hash_iff_key_of_url_text hsha hy hx)
      | some url =>
        cases url' with
        | none => exact hash_iff_key_of_url_text hsha hx hy
        | some url' =>
          have h := hash_iff_key_of_urls hsha hx hy
          exact iff_of_true h.1 h.2

/-! ## Two postings with one joined text -/

/-- SHA-256 on the joined text of the two postings. -/
def barTools : TextTools :=
  { acmeEnv.text with
    sha256 := Equiv.swap "dev|java|acme|"
      "3ffcfa1e6164dcbefa06794beb9b5969908ed390ffaa69d50e48faf7a3c05413" }

/-- A title that holds a bar. -/
def barInTitle : Offer :=
  { sourceId := 1, title := "dev|java", company := "acme", valid := by decide }

def barInCompany : Offer :=
  { sourceId := 1, title := "dev", company := "java|acme", valid := by decide }

theorem barTools_injective : Function.Injective barTools.sha256 :=
  Equiv.injective _

theorem bar_offers_hash_alike :
    Function.Injective barTools.sha256 ∧ SameHash barTools barInTitle barInCompany ∧
      ¬ SameKey barTools barInTitle barInCompany := by
  refine ⟨barTools_injective, ?_, ?_⟩
  · refine ⟨"3ffcfa1e6164dcbefa06794beb9b5969908ed390ffaa69d50e48faf7a3c05413", ?_, ?_⟩
    · decide +kernel
    · decide +kernel
  · rintro (⟨url, hurl, -⟩ | ⟨-, -, hparts⟩)
    · cases hurl
    · exact absurd hparts (by decide +kernel)

theorem bar_offers_hash_iff :
    (SameHash barTools barInTitle barInCompany ↔ SameKey barTools barInTitle barInCompany) ↔
      KeysApart barTools barInTitle barInCompany :=
  sameHash_iff_sameKey_iff barTools_injective barInTitle barInCompany

end RecruFlow.Ingestion
