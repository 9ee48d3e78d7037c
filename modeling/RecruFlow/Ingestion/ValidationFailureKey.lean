import Mathlib
import RecruFlow.Ingestion.Persist
import RecruFlow.Lib.Joined

/-!
# What the key of a rejected record identifies

A rejected record is kept under its normalised url, and without a url under its
source, title and company. Both kinds of keys are of one space.
-/

namespace RecruFlow.Ingestion

open Db Lib Lib.Transaction Schemas

/-- A text, or nothing. -/
def TextOrNone (value : PyValue) : Prop :=
  value = .none ∨ ∃ s, value = .str s

def rawTitle (raw : Dict) : PyValue :=
  raw.getD "title" (.str "")

def rawCompany (raw : Dict) : PyValue :=
  raw.getD "company" (.str "")

/-- A record as the connectors map them. -/
structure MappedRecord (raw : Dict) : Prop where
  sourceId : ∃ i, raw.get "source_id" = some (.int i)
  canonicalUrl : TextOrNone (raw.getD "canonical_url" .none)
  title : TextOrNone (rawTitle raw)
  company : TextOrNone (rawCompany raw)

/-- What an f-string makes of the values that are in these records. -/
structure PrintsValues (text : TextTools) : Prop where
  str : ∀ s, text.str (.str s) = s
  none : text.str .none = "None"
  int : ∀ i, text.str (.int i) = toString i

variable (text : TextTools)

/-- The normalised url of a record that has a url. -/
def rawUrl (raw : Dict) : Except PyError (Option String) :=
  let canonicalUrl := raw.getD "canonical_url" .none
  if canonicalUrl.truthy then
    match canonicalUrl with
    | .str url => do
        let normalized ← normalizeCanonicalUrl text url
        pure (some normalized)
    | _ => .error .attributeError
  else pure none

def rawFields (raw : Dict) : List PyValue :=
  [raw.getD "source_id" .none, rawTitle raw, rawCompany raw]

def joinedFields (raw : Dict) : String :=
  ":".intercalate ((rawFields raw).map text.str)

/-- The records are of one posting. -/
def SamePosting (raw other : Dict) : Prop :=
  (∃ url, rawUrl text raw = .ok (some url) ∧ rawUrl text other = .ok (some url)) ∨
    (rawUrl text raw = .ok none ∧ rawUrl text other = .ok none ∧ rawFields raw = rawFields other)

/-- Records under one key are of one posting. -/
def KeySeparates (env : IngestEnv) (raw other : Dict) : Prop :=
  ∀ key, validationFailureDedupKey env raw = .ok key →
    validationFailureDedupKey env other = .ok key → SamePosting env.text raw other

/-- No url reads like the joined fields of the other record, the colons of joined fields that
read the same are at the same places, and none of them is the word for a missing one. -/
structure FieldsApart (raw other : Dict) : Prop where
  url_ne_fields : ∀ url, rawUrl text raw = .ok (some url) → rawUrl text other = .ok none →
    url ≠ joinedFields text other
  fields_ne_url : ∀ url, rawUrl text raw = .ok none → rawUrl text other = .ok (some url) →
    url ≠ joinedFields text raw
  colons : rawUrl text raw = .ok none → rawUrl text other = .ok none →
    joinedFields text raw = joinedFields text other →
      (text.str (rawTitle raw)).toList.count ':' = (text.str (rawTitle other)).toList.count ':'
  missing : rawUrl text raw = .ok none → rawUrl text other = .ok none →
    joinedFields text raw = joinedFields text other →
      (rawTitle raw = .none ↔ rawTitle other = .none) ∧
        (rawCompany raw = .none ↔ rawCompany other = .none)

variable {text} {raw other : Dict}

/-- The key is made of the url, or else of the joined fields. -/
theorem validationFailureDedupKey_eq (env : IngestEnv) (raw : Dict) :
    validationFailureDedupKey env raw = (rawUrl env.text raw).map fun url =>
      "validation:" ++ url.getD (joinedFields env.text raw) := by
  have hjoined : "validation:" ++ env.text.str (raw.getD "source_id" .none) ++ ":" ++
      env.text.str (rawTitle raw) ++ ":" ++ env.text.str (rawCompany raw) =
        "validation:" ++ joinedFields env.text raw := by
    rw [joinedFields, rawFields, ← String.toList_inj]
    simp
  rw [validationFailureDedupKey, rawUrl]
  generalize raw.getD "canonical_url" .none = canonicalUrl
  dsimp only
  split
  · cases canonicalUrl with
    | str url =>
        cases hnormalized : normalizeCanonicalUrl env.text url with
        | error e => simp [hnormalized, bind, Except.bind, Except.map]
        | ok normalized => simp [hnormalized, bind, Except.bind, Except.map, pure, Except.pure]
    | _ => rfl
  · exact congrArg Except.ok hjoined

theorem key_of_url {env : IngestEnv} {url : String} (h : rawUrl env.text raw = .ok (some url)) :
    validationFailureDedupKey env raw = .ok ("validation:" ++ url) := by
  rw [validationFailureDedupKey_eq, h]
  rfl

theorem key_of_fields {env : IngestEnv} (h : rawUrl env.text raw = .ok none) :
    validationFailureDedupKey env raw = .ok ("validation:" ++ joinedFields env.text raw) := by
  rw [validationFailureDedupKey_eq, h]
  rfl

theorem key_of_error {env : IngestEnv} {e : PyError} (h : rawUrl env.text raw = .error e) :
    validationFailureDedupKey env raw = .error e := by
  rw [validationFailureDedupKey_eq, h]
  rfl

theorem keySeparates_iff {env : IngestEnv} {rest rest' : String}
    (hraw : validationFailureDedupKey env raw = .ok ("validation:" ++ rest))
    (hother : validationFailureDedupKey env other = .ok ("validation:" ++ rest')) :
    KeySeparates env raw other ↔ (rest = rest' → SamePosting env.text raw other) := by
  constructor
  · intro h hrest
    exact h _ hraw (by rw [hother, hrest])
  · intro h key hkey hkey'
    have heq : "validation:" ++ rest = "validation:" ++ rest' :=
      (Except.ok.inj (hraw.symm.trans hkey)).trans (Except.ok.inj (hother.symm.trans hkey')).symm
    apply h
    rw [← String.toList_inj, String.toList_append, String.toList_append] at heq
    exact String.toList_inj.mp (List.append_cancel_left heq)

theorem colon_not_mem_toString (i : Int) : ':' ∉ (toString i).toList := by
  have hcolon := @Python.notMem_toString ':' rfl
  rw [Int.toString_eq_repr, Int.repr_eq_if]
  split
  · exact hcolon _
  · rw [String.toList_append, List.mem_append]
    rintro (hminus | hmem)
    · revert hminus
      decide
    · exact hcolon _ hmem

theorem TextOrNone.eq_of_str_eq (hprints : PrintsValues text) {v w : PyValue} (hv : TextOrNone v)
    (hw : TextOrNone w) (hnone : v = .none ↔ w = .none) (h : text.str v = text.str w) : v = w := by
  rcases hv with rfl | ⟨s, rfl⟩
  · exact (hnone.mp rfl).symm
  · rcases hw with rfl | ⟨s', rfl⟩
    · exact hnone.mpr rfl
    · rw [hprints.str, hprints.str] at h
      rw [h]

/-- Joined fields that read the same are the same fields exactly when the colons of the titles
agree and what is missing is missing in both. -/
theorem rawFields_eq_iff (hprints : PrintsValues text) (hraw : MappedRecord raw)
    (hother : MappedRecord other) (h : joinedFields text raw = joinedFields text other) :
    rawFields raw = rawFields other ↔
      (text.str (rawTitle raw)).toList.count ':' = (text.str (rawTitle other)).toList.count ':' ∧
      (rawTitle raw = .none ↔ rawTitle other = .none) ∧
      (rawCompany raw = .none ↔ rawCompany other = .none) := by
  obtain ⟨i, hi⟩ := hraw.sourceId
  obtain ⟨j, hj⟩ := hother.sourceId
  have hsource : raw.getD "source_id" .none = .int i := by rw [Dict.getD, hi, Option.getD_some]
  have hsource' : other.getD "source_id" .none = .int j := by rw [Dict.getD, hj, Option.getD_some]
  constructor
  · intro heq
    obtain ⟨-, heq⟩ := List.cons.inj heq
    obtain ⟨htitle, heq⟩ := List.cons.inj heq
    obtain ⟨hcompany, -⟩ := List.cons.inj heq
    rw [htitle, hcompany]
    exact ⟨rfl, Iff.rfl, Iff.rfl⟩
  · rintro ⟨hcolons, htitle, hcompany⟩
    have hjoined : [':'].intercalate (((rawFields raw).map text.str).map String.toList) =
        [':'].intercalate (((rawFields other).map text.str).map String.toList) := by
      have hlists := congrArg String.toList h
      rwa [joinedFields, joinedFields, String.toList_intercalate, String.toList_intercalate]
        at hlists
    have hinner : Joined.inner ':' (((rawFields raw).map text.str).map String.toList) =
        Joined.inner ':' (((rawFields other).map text.str).map String.toList) := by
      have hno (i : Int) : (text.str (.int i)).toList.count ':' = 0 := by
        rw [hprints.int]
        exact List.count_eq_zero.mpr (colon_not_mem_toString i)
      simp only [Joined.inner, rawFields, hsource, hsource', List.map_cons, List.map_nil,
        List.dropLast_cons_cons, List.dropLast_singleton, hno, hcolons]
    have htexts := Joined.eq_of_intercalate_eq (by simp [rawFields]) hjoined hinner
    have hparts := List.map_injective_iff.mpr (fun _ _ => String.toList_inj.mp) htexts
    obtain ⟨hid, hparts⟩ := List.cons.inj hparts
    obtain ⟨htitles, hparts⟩ := List.cons.inj hparts
    obtain ⟨hcompanies, -⟩ := List.cons.inj hparts
    rw [hsource, hsource', hprints.int, hprints.int, Int.toString_eq_repr,
      Int.toString_eq_repr] at hid
    rw [rawFields, rawFields, hsource, hsource', Int.repr_injective hid,
      hraw.title.eq_of_str_eq hprints hother.title htitle htitles,
      hraw.company.eq_of_str_eq hprints hother.company hcompany hcompanies]

theorem SamePosting.symm (h : SamePosting text raw other) : SamePosting text other raw := by
  rcases h with ⟨url, hurl, hurl'⟩ | ⟨hurl, hurl', hfields⟩
  · exact .inl ⟨url, hurl', hurl⟩
  · exact .inr ⟨hurl', hurl, hfields.symm⟩

theorem KeySeparates.symm {env : IngestEnv} (h : KeySeparates env raw other) :
    KeySeparates env other raw :=
  fun key hkey hkey' => (h key hkey' hkey).symm

theorem FieldsApart.symm (h : FieldsApart text raw other) : FieldsApart text other raw where
  url_ne_fields url hother hraw := h.fields_ne_url url hraw hother
  fields_ne_url url hother hraw := h.url_ne_fields url hraw hother
  colons hother hraw heq := (h.colons hraw hother heq.symm).symm
  missing hother hraw heq :=
    ⟨(h.missing hraw hother heq.symm).1.symm, (h.missing hraw hother heq.symm).2.symm⟩

section Cases

variable {env : IngestEnv}

/-- Both records have a url: the key says which one. -/
theorem keySeparates_iff_of_urls {url url' : String} (hraw : rawUrl env.text raw = .ok (some url))
    (hother : rawUrl env.text other = .ok (some url')) :
    KeySeparates env raw other ↔ FieldsApart env.text raw other := by
  refine iff_of_true ?_ (by constructor <;> simp [hraw, hother])
  rw [keySeparates_iff (key_of_url hraw) (key_of_url hother)]
  intro heq
  exact .inl ⟨url, hraw, by rw [hother, heq]⟩

/-- One record has a url: the two are told apart as long as it does not read like the joined
fields of the other one. -/
theorem keySeparates_iff_of_url_fields {url : String}
    (hraw : rawUrl env.text raw = .ok (some url)) (hother : rawUrl env.text other = .ok none) :
    KeySeparates env raw other ↔ FieldsApart env.text raw other := by
  have hdiffer : ¬ SamePosting env.text raw other := by simp [SamePosting, hraw, hother]
  rw [keySeparates_iff (key_of_url hraw) (key_of_fields hother), imp_iff_not hdiffer]
  constructor
  · intro hne
    constructor <;> simp [hraw, hother, hne]
  · intro hapart
    exact hapart.url_ne_fields url hraw hother

/-- No record has a url: joined fields that read the same are the same fields as long as their
colons agree and nothing reads like a missing field. -/
theorem keySeparates_iff_of_fields (hprints : PrintsValues env.text) (hraw : MappedRecord raw)
    (hother : MappedRecord other) (hurl : rawUrl env.text raw = .ok none)
    (hurl' : rawUrl env.text other = .ok none) :
    KeySeparates env raw other ↔ FieldsApart env.text raw other := by
  have hsame : SamePosting env.text raw other ↔ rawFields raw = rawFields other := by
    simp [SamePosting, hurl, hurl']
  rw [keySeparates_iff (key_of_fields hurl) (key_of_fields hurl'), hsame]
  constructor
  · intro h
    have hboth (heq : joinedFields env.text raw = joinedFields env.text other) :=
      (rawFields_eq_iff hprints hraw hother heq).mp (h heq)
    constructor
    · simp [hurl]
    · simp [hurl']
    · intro _ _ heq
      exact (hboth heq).1
    · intro _ _ heq
      exact (hboth heq).2
  · intro hapart heq
    rw [rawFields_eq_iff hprints hraw hother heq]
    exact ⟨hapart.colons hurl hurl' heq, hapart.missing hurl hurl' heq⟩

/-- A url that cannot be read gives no key, whatever the other record is. -/
theorem keySeparates_iff_of_error {e : PyError} (h : rawUrl env.text raw = .error e) :
    KeySeparates env raw other ↔ FieldsApart env.text raw other := by
  refine iff_of_true ?_ (by constructor <;> simp [h])
  intro key hkey
  rw [key_of_error h] at hkey
  cases hkey

end Cases

/-- Records under one key are of one posting exactly when the fields are apart. -/
theorem keySeparates_iff_fieldsApart {env : IngestEnv} (hprints : PrintsValues env.text)
    (hraw : MappedRecord raw) (hother : MappedRecord other) :
    KeySeparates env raw other ↔ FieldsApart env.text raw other := by
  have hsymm : (KeySeparates env other raw ↔ FieldsApart env.text other raw) →
      (KeySeparates env raw other ↔ FieldsApart env.text raw other) := fun h =>
    ⟨fun hsep => (h.mp hsep.symm).symm, fun hapart => (h.mpr hapart.symm).symm⟩
  cases hurl : rawUrl env.text raw with
  | error e => exact keySeparates_iff_of_error hurl
  | ok url =>
      cases hurl' : rawUrl env.text other with
      | error e => exact hsymm (keySeparates_iff_of_error hurl')
      | ok url' =>
          cases url with
          | some url =>
              cases url' with
              | some url' => exact keySeparates_iff_of_urls hurl hurl'
              | none => exact keySeparates_iff_of_url_fields hurl hurl'
          | none =>
              cases url' with
              | some url' => exact hsymm (keySeparates_iff_of_url_fields hurl' hurl)
              | none => exact keySeparates_iff_of_fields hprints hraw hother hurl hurl'

/-! ## Two postings under one key -/

/-- The currency is not of three letters. -/
def zlotyRecord (title company : String) : Dict :=
  ⟨[("source_id", .int 1), ("title", .str title), ("company", .str company),
    ("salary_currency", .str "zł")]⟩

def printingEnv : IngestEnv :=
  { acmeEnv with
    text :=
      { acmeEnv.text with
        str := fun
          | .str s => s
          | .int i => toString i
          | .none => "None"
          | _ => "" } }

theorem printsValues_printingEnv : PrintsValues printingEnv.text where
  str _ := rfl
  none := rfl
  int _ := rfl

theorem mappedRecord_zloty (title company : String) : MappedRecord (zlotyRecord title company) where
  sourceId := ⟨1, rfl⟩
  canonicalUrl := .inl rfl
  title := .inr ⟨title, rfl⟩
  company := .inr ⟨company, rfl⟩

theorem keySeparates_iff_fieldsApart_zloty :
    KeySeparates printingEnv (zlotyRecord "Dev: Go" "Acme") (zlotyRecord "Dev" " Go:Acme") ↔
      FieldsApart printingEnv.text (zlotyRecord "Dev: Go" "Acme")
        (zlotyRecord "Dev" " Go:Acme") :=
  keySeparates_iff_fieldsApart printsValues_printingEnv (mappedRecord_zloty _ _)
    (mappedRecord_zloty _ _)

/-- Both records are rejected, their titles differ, and the row of the first is overwritten with
the second. -/
theorem not_keySeparates_zloty :
    Offer.modelValidate printingEnv.pydantic (zlotyRecord "Dev: Go" "Acme") = none ∧
      Offer.modelValidate printingEnv.pydantic (zlotyRecord "Dev" " Go:Acme") = none ∧
      validationFailureDedupKey printingEnv (zlotyRecord "Dev: Go" "Acme") =
        .ok "validation:1:Dev: Go:Acme" ∧
      validationFailureDedupKey printingEnv (zlotyRecord "Dev" " Go:Acme") =
        .ok "validation:1:Dev: Go:Acme" ∧
      ¬ KeySeparates printingEnv (zlotyRecord "Dev: Go" "Acme") (zlotyRecord "Dev" " Go:Acme") ∧
      ((recordInvalid printingEnv (zlotyRecord "Dev: Go" "Acme") (Session.opened {})).bind fun s =>
        (recordInvalid printingEnv (zlotyRecord "Dev" " Go:Acme") s).map fun s =>
          s.working.ingestionFailures.map (·.rawPayload)).toOption =
        some [some (zlotyRecord "Dev" " Go:Acme")] := by
  have hkey : validationFailureDedupKey printingEnv (zlotyRecord "Dev: Go" "Acme") =
      .ok "validation:1:Dev: Go:Acme" := by decide +kernel
  have hkey' : validationFailureDedupKey printingEnv (zlotyRecord "Dev" " Go:Acme") =
      .ok "validation:1:Dev: Go:Acme" := by decide +kernel
  refine ⟨by decide +kernel, by decide +kernel, hkey, hkey', fun hseparates => ?_,
    by decide +kernel⟩
  rcases hseparates _ hkey hkey' with ⟨url, hurl, -⟩ | ⟨-, -, hfields⟩
  · cases hurl
  · have htitle : PyValue.str "Dev: Go" = .str "Dev" :=
      (List.cons.inj (List.cons.inj hfields).2).1
    revert htitle
    decide +kernel

end RecruFlow.Ingestion
