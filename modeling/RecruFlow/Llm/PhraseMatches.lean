import RecruFlow.Llm.Matcher

/-!
# What the matcher finds in an offer

A phrase is a hit where its tokens occur between two word boundaries. For tokens
of word characters these are the places that no word character stands next to.
A phrase with other characters at its ends is found where it is repeated word for
word only if it has word boundaries of its own, and two phrases are interchangeable
only if they are split into the same tokens.
-/

namespace RecruFlow.Llm

open Schemas Lib.Phrases Lib.Regex

/-- What Unicode says of lower case, letters and digits. -/
structure Unicode.Documented (unicode : Unicode) : Prop where
  /-- Lower case leaves no character that it would change. -/
  lower_lower : ∀ s, ∀ c ∈ (unicode.lower s).toList, unicode.lower (.singleton c) = .singleton c
  /-- A text whose characters do not change does not change. -/
  lower_eq_self : ∀ s, (∀ c ∈ s.toList, unicode.lower (.singleton c) = .singleton c) →
    unicode.lower s = s
  lower_separator : ∀ c, isSeparator c = true → unicode.lower (.singleton c) = .singleton c
  isAlnum_separator : ∀ c, isSeparator c = true → unicode.isAlnum c = false

variable (unicode : Unicode)

/-- The phrase, as the only deal-breaker of a profile, is reported. -/
def IsHit (offer : Offer) (phrase : String) : Prop :=
  (dealBreakerHit unicode { Profile.empty with dealBreakers := [phrase] } offer).isSome = true

/-- The tokens stand in their order in the text, with separators, or nothing, between
them and no word character next to them. -/
def Mentions (tokens : List (List Char)) (text : List Char) : Prop :=
  ∃ before found after, text = before ++ found ++ after ∧ Spelled isSeparator tokens found ∧
    before.getLast?.any (isWord unicode) = false ∧ after.head?.any (isWord unicode) = false

/-- The trimmed phrase stands in the offer, whatever the case, with the ends of the
text or white space next to it. -/
def Repeated (offer : Offer) (phrase : String) : Prop :=
  ∃ before after, (offerHaystack unicode offer).toList =
      before ++ (unicode.lower (Python.strip phrase)).toList ++ after ∧
    (∀ c ∈ before.getLast?, Python.isSpace c = true) ∧ ∀ c ∈ after.head?, Python.isSpace c = true

/-- The trimmed phrase has a word boundary in front of its first token and one after
its last. -/
def Anchored (phrase : String) : Prop :=
  anchored isSeparator (isWord unicode) (unicode.lower (Python.strip phrase)).toList = true

instance (offer : Offer) (phrase : String) : Decidable (IsHit unicode offer phrase) :=
  inferInstanceAs (Decidable (_ = true))

instance (phrase : String) : Decidable (Anchored unicode phrase) :=
  inferInstanceAs (Decidable (_ = true))

variable {unicode} {profile : Profile} {offer : Offer} {phrase phrase' haystack : String}

/-! ## Hits -/

theorem areWords_tokenize : AreWords isSeparator (tokenize unicode phrase) :=
  areWords_words _ _

theorem phraseFound_iff : phraseFound unicode haystack phrase = true ↔
    tokenize unicode phrase ≠ [] ∧
      Occurs isSeparator (isWord unicode) (tokenize unicode phrase) haystack.toList := by
  rw [phraseFound, Bool.and_eq_true, search_phrase, Bool.not_eq_true', List.isEmpty_eq_false_iff]

theorem isHit_iff_found :
    IsHit unicode offer phrase ↔ phraseFound unicode (offerHaystack unicode offer) phrase = true := by
  rw [IsHit, dealBreakerHit, List.find?_isSome]
  simp

theorem isHit_iff : IsHit unicode offer phrase ↔ tokenize unicode phrase ≠ [] ∧
    Occurs isSeparator (isWord unicode) (tokenize unicode phrase)
      (offerHaystack unicode offer).toList :=
  isHit_iff_found.trans phraseFound_iff

theorem not_isHit_iff : ¬ IsHit unicode offer phrase ↔
    phraseFound unicode (offerHaystack unicode offer) phrase = false := by
  rw [isHit_iff_found, Bool.not_eq_true]

/-- The first deal-breaker that is a hit. -/
theorem dealBreakerHit_eq_some_iff : dealBreakerHit unicode profile offer = some phrase ↔
    ∃ before after, profile.dealBreakers = before ++ phrase :: after ∧
      IsHit unicode offer phrase ∧ ∀ other ∈ before, ¬ IsHit unicode offer other := by
  rw [dealBreakerHit, List.find?_eq_some_iff_append]
  simp only [isHit_iff_found, Bool.not_eq_true']
  constructor
  · rintro ⟨hphrase, before, after, hlist, hbefore⟩
    exact ⟨before, after, hlist, hphrase, fun other hother => by simp [hbefore other hother]⟩
  · rintro ⟨before, after, hlist, hphrase, hbefore⟩
    exact ⟨hphrase, before, after, hlist, fun other hother => by simpa using hbefore other hother⟩

theorem dealBreakerHit_isSome_iff : (dealBreakerHit unicode profile offer).isSome = true ↔
    ∃ dealBreaker ∈ profile.dealBreakers, IsHit unicode offer dealBreaker := by
  rw [dealBreakerHit, List.find?_isSome]
  simp only [isHit_iff_found]

theorem missingHardSkills_iff : missingHardSkills unicode profile offer = true ↔
    hardSkillNames profile ≠ [] ∧ ∀ name ∈ hardSkillNames profile, ¬ IsHit unicode offer name := by
  simp only [missingHardSkills, not_isHit_iff, Bool.and_eq_true, Bool.not_eq_true',
    List.isEmpty_eq_false_iff, List.any_eq_false, Bool.not_eq_true]

/-! ## Texts of an offer -/

/-- An offer with three texts. -/
def textOffer (title company description : String)
    (htitle : 0 < title.length ∧ title.length ≤ 500)
    (hcompany : 0 < company.length ∧ company.length ≤ 255) : Offer :=
  { sourceId := 1
    title
    company
    description := some description
    valid :=
      { sourceId_pos := Nat.one_pos
        externalId_fits := rfl
        canonicalUrl_fits := rfl
        canonicalUrl_ne := by simp
        title_length := htitle
        company_length := hcompany
        seniority_fits := rfl
        salaryCurrency_length := show "PLN".length = 3 by decide
        contractType_fits := rfl
        salary_range := by simp } }

/-- An offer whose other texts are separators. -/
def describedOffer (description : String) : Offer :=
  textOffer "-" "-" description (by decide) (by decide)

/-- A description in lower case is what the matcher reads. -/
theorem offerHaystack_described (h : unicode.Documented) {description : List Char}
    (hne : description ≠ [])
    (hlower : ∀ c ∈ description, unicode.lower (.singleton c) = .singleton c) :
    (offerHaystack unicode (describedOffer (.ofList description))).toList =
      ['-', ' '] ++ description ++ [' ', '-'] := by
  let parts := [some "-", some (String.ofList description), some "-", none, none]
  have hparts : parts.reduceOption.filter (· ≠ "") = ["-", String.ofList description, "-"] := by
    have hdescription : String.ofList description ≠ "" := by simpa using hne
    have hpresent : parts.reduceOption = ["-", String.ofList description, "-"] := rfl
    rw [hpresent]
    simp [hdescription]
  have hjoined : (" ".intercalate ["-", String.ofList description, "-"]).toList =
      ['-', ' '] ++ description ++ [' ', '-'] := by
    simp
  have hhyphen := h.lower_separator '-' (by decide)
  have hspace := h.lower_separator ' ' (by decide)
  change (unicode.lower (" ".intercalate (parts.reduceOption.filter (· ≠ "")))).toList = _
  rw [hparts, h.lower_eq_self, hjoined]
  intro c hc
  rw [hjoined] at hc
  rcases List.mem_append.mp hc with hc | hc
  · rcases List.mem_append.mp hc with hc | hc
    · simp only [List.mem_cons, List.not_mem_nil, or_false] at hc
      rcases hc with rfl | rfl
      · exact hhyphen
      · exact hspace
    · exact hlower c hc
  · simp only [List.mem_cons, List.not_mem_nil, or_false] at hc
    rcases hc with rfl | rfl
    · exact hspace
    · exact hhyphen

theorem not_isWord_of_isSpace (h : unicode.Documented) {c : Char} (hc : Python.isSpace c = true) :
    isWord unicode c = false := by
  have hunderscore : c ≠ '_' := by
    rintro rfl
    cases hc
  rw [isWord, h.isAlnum_separator c (by simp [isSeparator, hc]), Bool.false_or]
  exact decide_eq_false hunderscore

/-- White space, or nothing, is no word character. -/
theorem any_isWord_of_isSpace (h : unicode.Documented) {c : Option Char}
    (hc : ∀ d ∈ c, Python.isSpace d = true) : c.any (isWord unicode) = false := by
  cases c with
  | none => rfl
  | some d => exact not_isWord_of_isSpace h (hc d rfl)

/-! ## Characters for concrete phrases -/

def asciiLetters : List (Char × Char) :=
  "ABCDEFGHIJKLMNOPQRSTUVWXYZ".toList.zip "abcdefghijklmnopqrstuvwxyz".toList

def lowerAscii (c : Char) : Char :=
  (asciiLetters.lookup c).getD c

def ascii : Unicode where
  lower s := .ofList (s.toList.map lowerAscii)
  isAlnum c := asciiLetters.any (fun letter => letter.1 = c || letter.2 = c) ||
    "0123456789".toList.contains c

theorem lowerAscii_of_lookup_none {c : Char} (h : asciiLetters.lookup c = none) :
    lowerAscii c = c := by
  rw [lowerAscii, h]
  rfl

theorem mem_asciiLetters {c d : Char} (h : asciiLetters.lookup c = some d) :
    (c, d) ∈ asciiLetters := by
  obtain ⟨before, after, hsplit, -⟩ := List.lookup_eq_some_iff.mp h
  rw [hsplit]
  exact List.mem_append_right _ List.mem_cons_self

theorem lookup_lowerAscii (c : Char) : asciiLetters.lookup (lowerAscii c) = none := by
  have hall : asciiLetters.all (fun letter => (asciiLetters.lookup letter.2).isNone) = true := by
    decide +kernel
  cases h : asciiLetters.lookup c with
  | none => rw [lowerAscii_of_lookup_none h, h]
  | some d =>
      have hd := List.all_eq_true.mp hall _ (mem_asciiLetters h)
      rw [lowerAscii, h]
      exact Option.isNone_iff_eq_none.mp hd

theorem isAlnum_ascii_separator {c : Char} (h : isSeparator c = true) :
    ascii.isAlnum c = false ∧ asciiLetters.lookup c = none := by
  have hletters : asciiLetters.all (fun letter => !isSeparator letter.1 && !isSeparator letter.2) =
      true := by
    decide +kernel
  have hdigits : "0123456789".toList.all (fun digit => !isSeparator digit) = true := by
    decide +kernel
  constructor
  · apply Bool.eq_false_iff.mpr
    intro halnum
    rcases Bool.or_eq_true_iff.mp halnum with hletter | hdigit
    · obtain ⟨letter, hmem, hc⟩ := List.any_eq_true.mp hletter
      have hseparators := List.all_eq_true.mp hletters letter hmem
      rcases Bool.or_eq_true_iff.mp hc with hc | hc
      · simp [of_decide_eq_true hc, h] at hseparators
      · simp [of_decide_eq_true hc, h] at hseparators
    · have hseparator := List.all_eq_true.mp hdigits c (List.contains_iff_mem.mp hdigit)
      simp [h] at hseparator
  · cases hlookup : asciiLetters.lookup c with
    | none => rfl
    | some d =>
        have hseparators := List.all_eq_true.mp hletters _ (mem_asciiLetters hlookup)
        simp [h] at hseparators

theorem ascii_documented : ascii.Documented where
  lower_lower s c hc := by
    obtain ⟨d, -, rfl⟩ : ∃ d ∈ s.toList, lowerAscii d = c := by simpa [ascii] using hc
    simp [ascii, lowerAscii_of_lookup_none (lookup_lowerAscii d)]
  lower_eq_self s hs := by
    have hmap : s.toList.map lowerAscii = s.toList.map id := List.map_congr_left fun c hc => by
      simpa [ascii] using hs c hc
    simp [ascii, hmap]
  lower_separator c hc := by
    simp [ascii, lowerAscii_of_lookup_none (isAlnum_ascii_separator hc).2]
  isAlnum_separator c hc := (isAlnum_ascii_separator hc).1

def acmeJob (description : String) : Offer :=
  textOffer "Developer" "acme" description (by decide) (by decide)

/-! ## The language of the matcher -/

/-- Next to word characters a word boundary is a place without a further one. -/
theorem occurs_iff_mentions {tokens : List (List Char)} {text : List Char} (hne : tokens ≠ [])
    (htokens : AreWords isSeparator tokens)
    (hword : ∀ token ∈ tokens, ∀ c ∈ token, isWord unicode c = true) :
    Occurs isSeparator (isWord unicode) tokens text ↔ Mentions unicode tokens text := by
  have hflat : ∀ c ∈ tokens.flatten, isWord unicode c = true := fun c hc => by
    obtain ⟨token, htoken, hmem⟩ := List.mem_flatten.mp hc
    exact hword token htoken c hmem
  have hnil := htokens.flatten_ne_nil hne
  have hends {found : List Char} (hfound : Spelled isSeparator tokens found) :
      found ≠ [] ∧ found.head?.any (isWord unicode) = true ∧
        found.getLast?.any (isWord unicode) = true := by
    rw [hfound.head? htokens, hfound.getLast? htokens, List.head?_eq_some_head hnil,
      List.getLast?_eq_some_getLast hnil]
    exact ⟨hfound.ne_nil htokens hne, hflat _ (List.head_mem hnil), hflat _ (List.getLast_mem hnil)⟩
  have hboundaries {before found after : List Char} (hfound : Spelled isSeparator tokens found) :
      (boundaryAt (isWord unicode) before (found ++ after) = true ↔
          before.getLast?.any (isWord unicode) = false) ∧
        (boundaryAt (isWord unicode) (before ++ found) after = true ↔
          after.head?.any (isWord unicode) = false) := by
    obtain ⟨hfne, hhead, hlast⟩ := hends hfound
    rw [boundaryAt, boundaryAt, List.head?_append_of_ne_nil _ hfne,
      List.getLast?_append_of_ne_nil _ hfne, hhead, hlast]
    simp
  constructor
  · rintro ⟨before, found, after, htext, hfound, hfirst, hlast⟩
    exact ⟨before, found, after, htext, hfound, (hboundaries hfound).1.mp hfirst,
      (hboundaries hfound).2.mp hlast⟩
  · rintro ⟨before, found, after, htext, hfound, hfirst, hlast⟩
    exact ⟨before, found, after, htext, hfound, (hboundaries hfound).1.mpr hfirst,
      (hboundaries hfound).2.mpr hlast⟩

/-- A phrase of word characters is a hit exactly where an offer mentions it; the
deal-breaker reported is the first hit, and hard skills are missing when there are
some and none is a hit. -/
theorem hit_iff_mentions (hne : tokenize unicode phrase ≠ [])
    (hword : ∀ token ∈ tokenize unicode phrase, ∀ c ∈ token, isWord unicode c = true) :
    (IsHit unicode offer phrase ↔
        Mentions unicode (tokenize unicode phrase) (offerHaystack unicode offer).toList) ∧
      (∀ dealBreaker, dealBreakerHit unicode profile offer = some dealBreaker ↔
        ∃ before after, profile.dealBreakers = before ++ dealBreaker :: after ∧
          IsHit unicode offer dealBreaker ∧ ∀ other ∈ before, ¬ IsHit unicode offer other) ∧
      (missingHardSkills unicode profile offer = true ↔ hardSkillNames profile ≠ [] ∧
        ∀ name ∈ hardSkillNames profile, ¬ IsHit unicode offer name) := by
  refine ⟨?_, fun dealBreaker => dealBreakerHit_eq_some_iff, missingHardSkills_iff⟩
  rw [isHit_iff, occurs_iff_mentions hne areWords_tokenize hword]
  exact and_iff_right hne

theorem hit_iff_mentions_onsite :
    Mentions ascii (tokenize ascii "on-site only")
      (offerHaystack ascii (acmeJob "This is onsite only.")).toList :=
  have hword : ∀ token ∈ tokenize ascii "on-site only", ∀ c ∈ token, isWord ascii c = true := by
    have hall : (tokenize ascii "on-site only").all (·.all (isWord ascii)) = true := by
      decide +kernel
    simpa only [List.all_eq_true] using hall
  (@hit_iff_mentions ascii .empty _ _ (by decide +kernel) hword).1.mp (by decide +kernel)

/-- A phrase without a token is never a hit, although nothing stands between two
characters that are not of a word. -/
theorem hyphen_mentioned_not_hit :
    (tokenize ascii "-").all (·.all (isWord ascii)) = true ∧
      Mentions ascii (tokenize ascii "-") (offerHaystack ascii (acmeJob "Rust.")).toList ∧
      ¬ IsHit ascii (acmeJob "Rust.") "-" := by
  refine ⟨?_, ⟨"developer rust.".toList, [], " acme".toList, ?_, .nil, ?_, ?_⟩, ?_⟩ <;>
    decide +kernel

/-! ## Repeated phrases -/

theorem lower_ne_nil (hne : tokenize unicode phrase ≠ []) :
    (unicode.lower (Python.strip phrase)).toList ≠ [] := by
  intro hnil
  rw [tokenize, hnil] at hne
  exact hne rfl

/-- A phrase with word boundaries of its own is a hit wherever it is repeated. -/
theorem isHit_of_repeated (h : unicode.Documented) (hne : tokenize unicode phrase ≠ [])
    (hanchored : Anchored unicode phrase) (hrepeated : Repeated unicode offer phrase) :
    IsHit unicode offer phrase := by
  obtain ⟨before, after, htext, hbefore, hafter⟩ := hrepeated
  rw [isHit_iff, htext]
  exact ⟨hne, occurs_of_anchored hne hanchored (any_isWord_of_isSpace h hbefore)
    (any_isWord_of_isSpace h hafter)⟩

/-- A phrase is found wherever it is repeated exactly when it has word boundaries of
its own. -/
theorem repeated_found_iff (h : unicode.Documented) (hne : tokenize unicode phrase ≠ []) :
    (∀ profile offer, Repeated unicode offer phrase →
        (phrase ∈ profile.dealBreakers → (dealBreakerHit unicode profile offer).isSome = true) ∧
          (phrase ∈ hardSkillNames profile → missingHardSkills unicode profile offer = false)) ↔
      Anchored unicode phrase := by
  constructor
  · intro hfound
    let text := (unicode.lower (Python.strip phrase)).toList
    let offer := describedOffer (.ofList text)
    have hhaystack : (offerHaystack unicode offer).toList = ['-', ' '] ++ text ++ [' ', '-'] :=
      offerHaystack_described h (lower_ne_nil hne) (h.lower_lower _)
    have hrepeated : Repeated unicode offer phrase :=
      ⟨['-', ' '], [' ', '-'], hhaystack, by simp; decide, by simp; decide⟩
    have hhit : IsHit unicode offer phrase :=
      (hfound { Profile.empty with dealBreakers := [phrase] } offer hrepeated).1
        (List.mem_singleton_self _)
    have hoccurs := (isHit_iff.mp hhit).2
    rw [hhaystack] at hoccurs
    have hspace : isWord unicode ' ' = false := not_isWord_of_isSpace h (by decide)
    exact @anchored_of_occurs _ _ _ _ ['-', ' '] [' ', '-'] hne hspace hspace
      (List.all_eq_true.mp (by decide)) (List.all_eq_true.mp (by decide)) hoccurs
  · intro hanchored profile offer hrepeated
    have hhit := isHit_of_repeated h hne hanchored hrepeated
    constructor
    · intro hmem
      exact dealBreakerHit_isSome_iff.mpr ⟨phrase, hmem, hhit⟩
    · intro hmem
      apply Bool.eq_false_iff.mpr
      intro hmissing
      exact (missingHardSkills_iff.mp hmissing).2 phrase hmem hhit

theorem repeated_found_iff_java :
    (dealBreakerHit ascii { dealBreakers := ["Java"] } (acmeJob "Java and Linux")).isSome = true :=
  have hrepeated : Repeated ascii (acmeJob "Java and Linux") "Java" := by
    refine ⟨"developer ".toList, " and linux acme".toList, ?_, (Option.all_eq_true _ _).mp ?_,
      (Option.all_eq_true _ _).mp ?_⟩ <;> decide +kernel
  ((repeated_found_iff ascii_documented (by decide +kernel)).mpr (by decide +kernel) _ _
    hrepeated).1 (List.mem_singleton_self "Java")

/-- There is no word boundary after the last character. -/
theorem cpp_repeated_not_found :
    tokenize ascii "C++" ≠ [] ∧ Repeated ascii (acmeJob "C++ and Linux") "C++" ∧
      dealBreakerHit ascii { dealBreakers := ["C++"] } (acmeJob "C++ and Linux") = none ∧
      missingHardSkills ascii { skills := [⟨"C++", none, true, by decide⟩] }
        (acmeJob "C++ and Linux") = true := by
  refine ⟨?_, ⟨"developer ".toList, " and linux acme".toList, ?_, (Option.all_eq_true _ _).mp ?_,
    (Option.all_eq_true _ _).mp ?_⟩, ?_, ?_⟩ <;> decide +kernel

/-! ## Variants of a phrase -/

/-- The offer that spells out the tokens of a phrase. -/
def spellingOffer (unicode : Unicode) (phrase : String) : Offer :=
  describedOffer (.ofList (spelling (isWord unicode) '-' '_' (tokenize unicode phrase)))

theorem lower_spelling (h : unicode.Documented) {c : Char}
    (hc : c ∈ spelling (isWord unicode) '-' '_' (tokenize unicode phrase)) :
    unicode.lower (.singleton c) = .singleton c := by
  rcases mem_spelling hc with rfl | rfl | hc
  · exact h.lower_separator '-' (by decide)
  · exact h.lower_separator '_' (by decide)
  · exact h.lower_lower _ c (mem_of_mem_words hc)

/-- The phrases that are hits in the offer that spells out a phrase. -/
theorem isHit_spellingOffer_iff (h : unicode.Documented) (hne : tokenize unicode phrase ≠ []) :
    IsHit unicode (spellingOffer unicode phrase) phrase' ↔ tokenize unicode phrase' ≠ [] ∧
      Occurs isSeparator (isWord unicode) (tokenize unicode phrase')
        (['-', ' '] ++ spelling (isWord unicode) '-' '_' (tokenize unicode phrase) ++ [' ', '-']) := by
  have hspelling := spelling_ne_nil (isWord unicode) '-' '_' areWords_tokenize hne
  rw [isHit_iff, spellingOffer, offerHaystack_described h hspelling fun c hc => lower_spelling h hc]

theorem isHit_spellingOffer (h : unicode.Documented) (hne : tokenize unicode phrase ≠ []) :
    IsHit unicode (spellingOffer unicode phrase) phrase := by
  have hspace : isWord unicode ' ' = false := not_isWord_of_isSpace h (by decide)
  have hunderscore : isWord unicode '_' = true := by simp [isWord]
  exact (isHit_spellingOffer_iff h hne).mpr ⟨hne, @occurs_spelling _ _ _ _ '_' '-' ['-', ' ']
    [' ', '-'] (by decide) hunderscore areWords_tokenize hne hspace hspace⟩

/-- Phrases that are hits in the same offers have the same tokens. -/
theorem tokenize_eq_of_isHit (h : unicode.Documented)
    (hsame : ∀ offer, IsHit unicode offer phrase ↔ IsHit unicode offer phrase') :
    tokenize unicode phrase = tokenize unicode phrase' := by
  by_cases hne : tokenize unicode phrase = []
  · by_contra hdiffer
    have hne' : tokenize unicode phrase' ≠ [] := fun hnil => hdiffer (hne.trans hnil.symm)
    have hhit := (hsame _).mpr (isHit_spellingOffer h hne')
    exact (isHit_iff.mp hhit).1 hne
  · have hhit := (hsame _).mp (isHit_spellingOffer h hne)
    obtain ⟨hne', hoccurs⟩ := (isHit_spellingOffer_iff h hne).mp hhit
    have hhit' := (hsame _).mpr (isHit_spellingOffer h hne')
    have hoccurs' := ((isHit_spellingOffer_iff h hne').mp hhit').2
    exact @eq_of_occurs_spelling _ _ _ _ '_' '-' ['-', ' '] [' ', '-'] _ (by decide) (by decide)
      (List.all_eq_true.mp (by decide)) (List.all_eq_true.mp (by decide)) areWords_tokenize
      areWords_tokenize hne hne' hoccurs hoccurs'

/-- Two phrases are interchangeable, as deal-breakers and as hard skills, exactly when
they have the same tokens. -/
theorem interchangeable_iff (h : unicode.Documented) (phrase phrase' : String) :
    ((∀ offer, IsHit unicode offer phrase ↔ IsHit unicode offer phrase') ∧
        ∀ profile profile' offer, hardSkillNames profile = [phrase] →
          hardSkillNames profile' = [phrase'] →
            missingHardSkills unicode profile offer = missingHardSkills unicode profile' offer) ↔
      tokenize unicode phrase = tokenize unicode phrase' := by
  constructor
  · rintro ⟨hsame, -⟩
    exact tokenize_eq_of_isHit h hsame
  · intro htokens
    have hfound (haystack : String) :
        phraseFound unicode haystack phrase = phraseFound unicode haystack phrase' := by
      rw [phraseFound, phraseFound, htokens]
    constructor
    · intro offer
      rw [isHit_iff_found, isHit_iff_found, hfound]
    · intro profile profile' offer hskill hskill'
      simp [missingHardSkills, hskill, hskill', hfound]

theorem interchangeable_iff_on_site :
    IsHit ascii (acmeJob "This is on-site only.") "on site" :=
  (((interchangeable_iff ascii_documented "on-site" "on site").mpr (by decide +kernel)).1 _).mp
    (by decide +kernel)

/-- A text without its white space, hyphens and slashes. -/
def squeeze (text : String) : List Char :=
  text.toList.filter fun c => !(Python.isSpace c || c = '-' || c = '/')

/-- The separators of the offer are optional only where the phrase has some. -/
theorem onsite_not_on_site :
    squeeze "onsite" = squeeze "on-site" ∧ (squeeze "onsite").all (isWord ascii) = true ∧
      IsHit ascii (acmeJob "This is on-site only.") "on-site" ∧
      ¬ IsHit ascii (acmeJob "This is on-site only.") "onsite" ∧
      missingHardSkills ascii { skills := [⟨"on-site", none, true, by decide⟩] }
        (acmeJob "This is on-site only.") = false ∧
      missingHardSkills ascii { skills := [⟨"onsite", none, true, by decide⟩] }
        (acmeJob "This is on-site only.") = true := by
  decide +kernel

end RecruFlow.Llm
