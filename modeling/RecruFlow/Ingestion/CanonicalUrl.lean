import RecruFlow.Ingestion.Dedup
import RecruFlow.Python.UrlParse

/-!
# The canonical form of a url
-/

namespace RecruFlow.Ingestion

open Python

/-- What is left of a url when the white space around it is stripped and `urlsplit` has left out
the characters that it ignores. -/
def visible (url : String) : List Char :=
  sanitize (strip url).toList

namespace Urllib

/-- `urlsplit`; `accepts` is its verdict on an authority. -/
def urlsplit (accepts : String → Bool) (url : String) : Except PyError SplitUrl :=
  let parts := splitParts (sanitize url.toList)
  if accepts (String.ofList parts.netloc) then
    .ok ⟨String.ofList parts.scheme, String.ofList parts.netloc, String.ofList parts.path⟩
  else .error .valueError

def urlunsplit (parts : SplitUrl) : String :=
  String.ofList (unsplitParts ⟨parts.scheme.toList, parts.netloc.toList, parts.path.toList⟩)

end Urllib

/-- Urls as `urllib.parse` takes them apart, and what lower case keeps. -/
structure StandardUrls (text : TextTools) (accepts : String → Bool) : Prop where
  urlsplit : ∀ url, text.urlsplit url = Urllib.urlsplit accepts url
  urlunsplit : ∀ parts, text.urlunsplit parts = Urllib.urlunsplit parts
  lower_ascii : ∀ s, (∀ c ∈ s.toList, c.toNat < 128) →
    text.lower s = String.ofList (s.toList.map Char.toLower)
  lower_lower : ∀ s, text.lower (text.lower s) = text.lower s
  lower_eq_empty : ∀ s, text.lower s = "" → s = ""
  /-- What separates is no letter. -/
  mem_lower : ∀ s c, endsNetloc c ∨ isUnsafe c → (c ∈ (text.lower s).toList ↔ c ∈ s.toList)
  getLast_lower : ∀ s,
    (text.lower s).toList.getLast?.any isSpace = s.toList.getLast?.any isSpace
  accepts_lower : ∀ s, accepts s → accepts (text.lower s)

/-- The url up to its query and its fragment. -/
def page (url : String) : List Char :=
  (strip url).toList.takeWhile fun c => !endsPath c

def queryAndFragment (url : String) : List Char :=
  (strip url).toList.dropWhile fun c => !endsPath c

/-- `url'` differs from `url` in the case of letters of the scheme and of the host. -/
def SameButCase (lower : String → String) (url url' : List Char) : Prop :=
  ∃ scheme netloc, scheme.map Char.toLower = (splitScheme url).1.map Char.toLower ∧
    lower (String.ofList netloc) = lower (String.ofList (splitParts url).netloc) ∧
    url' = withHead url scheme netloc

structure Canonical (text : TextTools) (url : String) : Prop where
  idempotent : ∃ result, normalizeCanonicalUrl text url = .ok result ∧
    normalizeCanonicalUrl text result = .ok result
  spaces : ∀ before after : List Char, (∀ c ∈ before, isSpace c) → (∀ c ∈ after, isSpace c) →
    normalizeCanonicalUrl text (String.ofList (before ++ url.toList ++ after)) =
      normalizeCanonicalUrl text url
  /-- Of the urls that `urlsplit` accepts. -/
  case : ∀ url', SameButCase text.lower (visible url) (visible url') →
    ∀ result, normalizeCanonicalUrl text url' = .ok result →
      normalizeCanonicalUrl text url = .ok result
  query : ∀ more : List Char, (∀ c ∈ more.head?, endsPath c) →
    normalizeCanonicalUrl text (String.ofList (page url ++ more)) = normalizeCanonicalUrl text url
  slashes : ∀ count, normalizeCanonicalUrl text
      (String.ofList (page url ++ List.replicate count '/' ++ queryAndFragment url)) =
    normalizeCanonicalUrl text url

/-- `urlsplit` accepts the url, and neither end of the page it names is white space. -/
structure NamesPage (text : TextTools) (url : String) : Prop where
  accepted : ∃ parts, text.urlsplit (strip url) = .ok parts
  front : ∀ c ∈ (visible url).head?, isSpace c = false
  back : ∀ c ∈ ((splitParts (visible url)).netloc ++
    (splitParts (visible url)).path.rdropWhile (· = '/')).getLast?, isSpace c = false

/-! ## What is put together again -/

/-- The parts that `urlunsplit` is given. -/
def normalParts (lower : String → String) (parts : UrlParts) : UrlParts :=
  ⟨parts.scheme, (lower (String.ofList parts.netloc)).toList, parts.path.rdropWhile (· = '/')⟩

variable {text : TextTools} {accepts : String → Bool} {url : String}

theorem toNat_lt_of_isSchemeChar {c : Char} (h : isSchemeChar c) : c.toNat < 128 := by
  have hbounds := toNat_of_isSchemeChar h
  omega

theorem lower_netloc_eq_nil_iff (hstd : StandardUrls text accepts) {netloc : List Char} :
    (text.lower (String.ofList netloc)).toList = [] ↔ netloc = [] := by
  rw [String.toList_eq_nil_iff]
  constructor
  · intro h
    exact String.ofList_eq_empty_iff.mp (hstd.lower_eq_empty _ h)
  · rintro rfl
    exact hstd.lower_ascii "" (by simp)

theorem lower_scheme (hstd : StandardUrls text accepts) {parts : UrlParts}
    (h : parts.WellFormed) :
    text.lower (String.ofList parts.scheme) = String.ofList parts.scheme := by
  rw [hstd.lower_ascii, String.toList_ofList, h.scheme_lower]
  intro c hc
  rw [String.toList_ofList] at hc
  exact toNat_lt_of_isSchemeChar
    (List.all_eq_true.mp (h.scheme (List.ne_nil_of_mem hc)).2 c hc)

theorem urlsplit_strip (hstd : StandardUrls text accepts) (url : String) :
    text.urlsplit (strip url) =
      if accepts (String.ofList (splitParts (visible url)).netloc) then
        .ok ⟨String.ofList (splitParts (visible url)).scheme,
          String.ofList (splitParts (visible url)).netloc,
          String.ofList (splitParts (visible url)).path⟩
      else .error .valueError := by
  rw [hstd.urlsplit]
  rfl

theorem normalizeCanonicalUrl_eq (hstd : StandardUrls text accepts) (url : String) :
    normalizeCanonicalUrl text url =
      if accepts (String.ofList (splitParts (visible url)).netloc) then
        .ok (String.ofList (unsplitParts (normalParts text.lower (splitParts (visible url)))))
      else .error .valueError := by
  rw [normalizeCanonicalUrl, urlsplit_strip hstd]
  split
  · show Except.ok (text.urlunsplit _) = _
    rw [hstd.urlunsplit, Urllib.urlunsplit, lower_scheme hstd (wellFormed_splitParts _),
      String.toList_ofList,
      rstripSlash, String.toList_ofList, String.toList_ofList]
    rfl
  · rfl

/-- The result depends on what the url is taken apart into, up to the case of the authority and
slashes at the end of the path. -/
theorem normalizeCanonicalUrl_congr (hstd : StandardUrls text accepts) {url url' : String}
    (hscheme : (splitParts (visible url')).scheme = (splitParts (visible url)).scheme)
    (hnetloc : (splitParts (visible url')).netloc = (splitParts (visible url)).netloc)
    (hpath : (splitParts (visible url')).path.rdropWhile (· = '/') =
      (splitParts (visible url)).path.rdropWhile (· = '/')) :
    normalizeCanonicalUrl text url' = normalizeCanonicalUrl text url := by
  rw [normalizeCanonicalUrl_eq hstd, normalizeCanonicalUrl_eq hstd, normalParts, normalParts,
    hscheme, hnetloc, hpath]

theorem normalizeCanonicalUrl_congr_parts (hstd : StandardUrls text accepts) {url url' : String}
    (h : splitParts (visible url') = splitParts (visible url)) :
    normalizeCanonicalUrl text url' = normalizeCanonicalUrl text url :=
  normalizeCanonicalUrl_congr hstd (by rw [h]) (by rw [h]) (by rw [h])

theorem exists_urlsplit_iff (hstd : StandardUrls text accepts) :
    (∃ parts, text.urlsplit (strip url) = .ok parts) ↔
      accepts (String.ofList (splitParts (visible url)).netloc) := by
  rw [urlsplit_strip hstd]
  split
  · next haccepts => simp [haccepts]
  · next haccepts => simp [haccepts]

/-! ## White space, queries and slashes -/

theorem visible_append_spaces {before after : List Char} (hbefore : ∀ c ∈ before, isSpace c)
    (hafter : ∀ c ∈ after, isSpace c) :
    visible (String.ofList (before ++ url.toList ++ after)) = visible url := by
  have htrim := @Lib.Trim.trim_append_of_forall _ isSpace url.toList _ _ hbefore hafter
  have hstrip : strip (String.ofList (before ++ url.toList ++ after)) = strip url := by
    show String.ofList (Lib.Trim.trim isSpace (String.ofList _).toList) =
      String.ofList (Lib.Trim.trim isSpace url.toList)
    rw [String.toList_ofList, htrim]
  rw [visible, visible, hstrip]

theorem visible_ofList (xs : List Char) :
    visible (String.ofList xs) = sanitize (Lib.Trim.trim isSpace xs) := by
  show sanitize (String.ofList (Lib.Trim.trim isSpace (String.ofList xs).toList)).toList = _
  rw [String.toList_ofList, String.toList_ofList]

theorem trimmed_strip (url : String) : Lib.Trim.Trimmed isSpace (strip url).toList := by
  show Lib.Trim.Trimmed isSpace (String.ofList (Lib.Trim.trim isSpace url.toList)).toList
  rw [String.toList_ofList]
  exact Lib.Trim.trimmed_trim

theorem page_append (url : String) : page url ++ queryAndFragment url = (strip url).toList :=
  List.takeWhile_append_dropWhile

theorem endsPath_of_mem_page {c : Char} (h : c ∈ page url) : endsPath c = false := by
  simpa using List.mem_takeWhile_imp (p := fun c => !endsPath c) h

theorem head?_queryAndFragment : ∀ c ∈ (queryAndFragment url).head?, endsPath c := by
  intro c hc
  simpa using Lib.Trim.head?_dropWhile c hc

theorem head?_page : ∀ c ∈ (page url).head?, isSpace c = false := by
  intro c hc
  apply (trimmed_strip url).1
  rw [← page_append, List.head?_append, Option.mem_def.mp hc]
  rfl

theorem of_endsPath {c : Char} (h : endsPath c) :
    isSpace c = false ∧ isControlOrSpace c = false ∧ isUnsafe c = false := by
  rw [endsPath, Bool.or_eq_true, decide_eq_true_eq, decide_eq_true_eq] at h
  rcases h with rfl | rfl <;> decide

/-- A query that is put behind a page makes no difference to the parts. -/
theorem splitParts_sanitize_append {xs ys : List Char} (h : ∀ y ∈ ys.head?, endsPath y) :
    splitParts (sanitize (xs ++ ys)) = splitParts (sanitize xs) := by
  rw [sanitize_append fun y hy => (of_endsPath (h y hy)).2.1]
  apply splitParts_append
  cases ys with
  | nil =>
      intro y hy
      cases hy
  | cons y ys =>
      have hy := h y rfl
      rw [List.filter_cons_of_pos (by rw [(of_endsPath hy).2.2]; rfl)]
      intro z hz
      rwa [← Option.some.inj hz]

theorem splitParts_visible (url : String) :
    splitParts (visible url) = splitParts (sanitize (page url)) := by
  rw [visible, ← page_append]
  exact splitParts_sanitize_append head?_queryAndFragment

theorem endsPath_of_mem_sanitize_page {c : Char} (h : c ∈ sanitize (page url)) :
    endsPath c = false :=
  endsPath_of_mem_page ((List.dropWhile_sublist _).subset (List.mem_of_mem_filter h))

/-- What is left of a page that has no white space at its end has none there either. -/
theorem getLast?_sanitize_page (h : NamesPage text url) :
    ∀ c ∈ (sanitize (page url)).getLast?, isSpace c = false := by
  have hback := h.back
  rw [splitParts_visible] at hback
  obtain ⟨front, heq, hfront⟩ := exists_eq_append_path fun c => @endsPath_of_mem_sanitize_page url c
  rw [heq]
  intro c hc
  rw [List.getLast?_append, List.getLast?_append] at hc
  cases hpath : (splitParts (sanitize (page url))).path.getLast? with
  | none =>
      rw [List.getLast?_eq_none_iff.mp hpath, List.rdropWhile_nil, List.append_nil] at hback
      rw [hpath, Option.none_or] at hc
      cases hnetloc : (splitParts (sanitize (page url))).netloc.getLast? with
      | none =>
          rw [hnetloc, Option.none_or] at hc
          exact (hfront.of_mem (List.mem_of_mem_getLast? hc)).1
      | some d =>
          rw [hnetloc] at hc
          exact hback c (by rw [hnetloc]; exact hc)
  | some d =>
      rw [hpath] at hc
      by_cases hslash : d = '/'
      · rw [← Option.some.inj hc, hslash]
        rfl
      · have hself : (splitParts (sanitize (page url))).path.rdropWhile (· = '/') =
            (splitParts (sanitize (page url))).path := by
          apply Lib.Trim.rdropWhile_eq_self
          intro e he
          rw [hpath] at he
          rw [← Option.some.inj he]
          simpa using hslash
        rw [hself, List.getLast?_append, hpath, Option.some_or] at hback
        rw [Option.some_or] at hc
        exact hback c hc

theorem query_of_namesPage (hstd : StandardUrls text accepts) (h : NamesPage text url)
    {more : List Char} (hmore : ∀ c ∈ more.head?, endsPath c) :
    normalizeCanonicalUrl text (String.ofList (page url ++ more)) =
      normalizeCanonicalUrl text url := by
  apply normalizeCanonicalUrl_congr_parts hstd
  rw [visible_ofList, splitParts_visible]
  have hhead : ∀ c ∈ (page url ++ more).head?, isSpace c = false := by
    intro c hc
    rw [List.head?_append] at hc
    cases hpage : (page url).head? with
    | none =>
        rw [hpage] at hc
        exact (of_endsPath (hmore c hc)).1
    | some d =>
        rw [hpage] at hc
        exact head?_page c (by rw [hpage]; exact hc)
  rw [Lib.Trim.trim, Lib.Trim.dropWhile_eq_self hhead]
  cases more with
  | nil => rw [List.append_nil, sanitize_rdropWhile (getLast?_sanitize_page h)]
  | cons c more =>
      have hc := hmore c rfl
      rw [Lib.Trim.rdropWhile_append_of_exists ⟨c, List.mem_cons_self, (of_endsPath hc).1⟩]
      exact splitParts_sanitize_append fun y hy => hmore y (Lib.Trim.mem_head?_of_rdropWhile hy)

theorem slashes_of_standard (hstd : StandardUrls text accepts) (url : String) (count : Nat) :
    normalizeCanonicalUrl text
        (String.ofList (page url ++ List.replicate count '/' ++ queryAndFragment url)) =
      normalizeCanonicalUrl text url := by
  have hslash {c : Char} (hc : c ∈ List.replicate count '/') : c = '/' :=
    List.eq_of_mem_replicate hc
  have htrimmed : Lib.Trim.Trimmed isSpace
      (page url ++ List.replicate count '/' ++ queryAndFragment url) := by
    apply Lib.Trim.Trimmed.append_between
    · rw [page_append]
      exact trimmed_strip url
    · intro c hc
      rw [hslash hc]
      rfl
  have hhead : ∀ c ∈ (List.replicate count '/').head?, isControlOrSpace c = false := by
    intro c hc
    rw [hslash (List.mem_of_mem_head? hc)]
    rfl
  have hfilter : (List.replicate count '/').filter (fun c => !isUnsafe c) =
      List.replicate count '/' := by
    rw [List.filter_eq_self]
    intro c hc
    rw [hslash hc]
    rfl
  obtain ⟨hscheme, hnetloc, hpath⟩ :=
    splitParts_append_slashes (fun c => @endsPath_of_mem_sanitize_page url c) count
  rw [← hfilter, ← sanitize_append hhead] at hscheme hnetloc hpath
  have hparts := @splitParts_sanitize_append (page url ++ List.replicate count '/') _
    (@head?_queryAndFragment url)
  apply normalizeCanonicalUrl_congr hstd
  all_goals rw [visible_ofList, Lib.Trim.trim_of_trimmed htrimmed, hparts, splitParts_visible]
  · exact hscheme
  · exact hnetloc
  · exact hpath

theorem case_of_accepted (hstd : StandardUrls text accepts)
    (haccepts : accepts (String.ofList (splitParts (visible url)).netloc)) {url' result : String}
    (hcase : SameButCase text.lower (visible url) (visible url'))
    (hresult : normalizeCanonicalUrl text url' = .ok result) :
    normalizeCanonicalUrl text url = .ok result := by
  obtain ⟨scheme, netloc, hscheme, hlower, hurl⟩ := hcase
  have hparts : splitParts (visible url') = { splitParts (visible url) with netloc } := by
    rw [hurl]
    apply splitParts_withHead hscheme
    · intro c hc
      by_contra hends
      have hends : endsNetloc c = true := by simpa using hends
      have hmem := (hstd.mem_lower (String.ofList netloc) c (.inl hends)).mpr (by simpa using hc)
      rw [hlower, hstd.mem_lower _ c (.inl hends), String.toList_ofList] at hmem
      rw [(wellFormed_splitParts _).netloc c hmem] at hends
      cases hends
    · intro hnone
      rw [← lower_netloc_eq_nil_iff hstd, hlower, lower_netloc_eq_nil_iff hstd]
      exact hnone
  rw [normalizeCanonicalUrl_eq hstd, hparts] at hresult
  rw [normalizeCanonicalUrl_eq hstd, if_pos haccepts]
  split at hresult
  · rw [← hresult, normalParts, normalParts, hlower]
  · cases hresult

/-! ## The result -/

/-- The characters of the result. -/
def normalForm (text : TextTools) (url : String) : List Char :=
  unsplitParts (normalParts text.lower (splitParts (visible url)))

theorem wellFormed_normalParts (hstd : StandardUrls text accepts) {parts : UrlParts}
    (h : parts.WellFormed) : (normalParts text.lower parts).WellFormed where
  scheme := h.scheme
  scheme_lower := h.scheme_lower
  netloc c hc := by
    by_contra hends
    have hends : endsNetloc c = true := by simpa using hends
    have hmem := (hstd.mem_lower _ c (.inl hends)).mp hc
    rw [String.toList_ofList] at hmem
    rw [h.netloc c hmem] at hends
    cases hends
  path c hc := h.path c ((List.rdropWhile_prefix _ _).subset hc)
  path_head hne c hc := by
    exact h.path_head (mt (lower_netloc_eq_nil_iff hstd).mpr hne) c
      (Lib.Trim.mem_head?_of_rdropWhile hc)
  no_scheme hscheme hnetloc :=
    splitScheme_rdropWhile (h.no_scheme hscheme ((lower_netloc_eq_nil_iff hstd).mp hnetloc))

theorem splitParts_normalForm (hstd : StandardUrls text accepts) (url : String) :
    splitParts (normalForm text url) = normalParts text.lower (splitParts (visible url)) :=
  splitParts_unsplitParts (wellFormed_normalParts hstd (wellFormed_splitParts _))

theorem unsplitParts_normalParts (hstd : StandardUrls text accepts) {parts : UrlParts}
    (h : parts.WellFormed) :
    ∃ front, unsplitParts (normalParts text.lower parts) =
        front ++ ((text.lower (String.ofList parts.netloc)).toList ++
          parts.path.rdropWhile (· = '/')) ∧
      InFront front ∧ (front = [] → parts.scheme = [] ∧
        (text.lower (String.ofList parts.netloc)).toList = []) :=
  unsplitParts_eq_append (wellFormed_normalParts hstd h)

/-- What stands in front of the authority and the path of the result. -/
theorem exists_normalForm_eq (hstd : StandardUrls text accepts) (url : String) :
    ∃ front, normalForm text url =
        front ++ ((text.lower (String.ofList (splitParts (visible url)).netloc)).toList ++
          (splitParts (visible url)).path.rdropWhile (· = '/')) ∧
      InFront front ∧ (front = [] → (splitParts (visible url)).scheme = [] ∧
        (text.lower (String.ofList (splitParts (visible url)).netloc)).toList = []) :=
  unsplitParts_normalParts hstd (wellFormed_splitParts _)

theorem of_mem_normalForm (hstd : StandardUrls text accepts) {c : Char}
    (h : c ∈ normalForm text url) : isUnsafe c = false ∧ endsPath c = false := by
  obtain ⟨front, heq, hfront, -⟩ := exists_normalForm_eq hstd url
  rw [heq, List.mem_append, List.mem_append] at h
  rcases h with hmem | hmem | hmem
  · obtain ⟨-, hcontrol, hends⟩ := hfront.of_mem hmem
    refine ⟨Bool.eq_false_iff.mpr fun hremoved => ?_, hends⟩
    rw [isControlOrSpace_of_isUnsafe hremoved] at hcontrol
    cases hcontrol
  · have hkept (hseparates : endsNetloc c ∨ isUnsafe c) :
        c ∈ (splitParts (visible url)).netloc := by
      rw [hstd.mem_lower _ c hseparates, String.toList_ofList] at hmem
      exact hmem
    constructor
    · refine Bool.eq_false_iff.mpr fun hremoved => ?_
      rw [isUnsafe_of_mem_sanitize (mem_netloc (hkept (.inr hremoved)))] at hremoved
      cases hremoved
    · refine Bool.eq_false_iff.mpr fun hends => ?_
      have hnetloc : endsNetloc c = true := by rw [endsNetloc, hends, Bool.or_true]
      rw [(wellFormed_splitParts _).netloc c (hkept (.inl hnetloc))] at hnetloc
      cases hnetloc
  · have hpath := (List.rdropWhile_prefix _ _).subset hmem
    exact ⟨isUnsafe_of_mem_sanitize (mem_path hpath), (wellFormed_splitParts _).path c hpath⟩

/-- The result begins as the url does, or with a character that is no white space. -/
theorem head?_normalForm (hstd : StandardUrls text accepts) :
    ∀ c ∈ (normalForm text url).head?, c ∈ (visible url).head? ∨
      isSpace c = false ∧ isControlOrSpace c = false := by
  obtain ⟨front, heq, hfront, hnone⟩ := exists_normalForm_eq hstd url
  intro c hc
  rw [heq] at hc
  cases front with
  | nil =>
      obtain ⟨hscheme, hnetloc⟩ := hnone rfl
      rw [hnetloc, List.nil_append, List.nil_append] at hc
      rcases head?_path_of_scheme hscheme c (Lib.Trim.mem_head?_of_rdropWhile hc) with
        hslash | hsame
      · rw [hslash]
        exact .inr (by decide)
      · exact .inl hsame
  | cons d front =>
      rw [← Option.some.inj hc]
      obtain ⟨hspace, hcontrol, -⟩ := hfront.of_mem (List.mem_cons_self)
      exact .inr ⟨hspace, hcontrol⟩

theorem isControlOrSpace_head?_normalForm (hstd : StandardUrls text accepts) :
    ∀ c ∈ (normalForm text url).head?, isControlOrSpace c = false := by
  intro c hc
  rcases head?_normalForm hstd c hc with hsame | ⟨-, hcontrol⟩
  · exact head?_sanitize c hsame
  · exact hcontrol

/-- White space stands at the end of the result when it stands at the end of the page. -/
theorem any_getLast?_normalForm (hstd : StandardUrls text accepts) :
    (normalForm text url).getLast?.any isSpace =
      ((splitParts (visible url)).netloc ++
        (splitParts (visible url)).path.rdropWhile (· = '/')).getLast?.any isSpace := by
  obtain ⟨front, heq, hfront, -⟩ := exists_normalForm_eq hstd url
  have hlower := hstd.getLast_lower (String.ofList (splitParts (visible url)).netloc)
  rw [String.toList_ofList] at hlower
  rw [heq, List.getLast?_append, List.getLast?_append, List.getLast?_append]
  cases ((splitParts (visible url)).path.rdropWhile (· = '/')).getLast? with
  | some d => rw [Option.some_or, Option.some_or, Option.some_or]
  | none =>
      rw [Option.none_or, Option.none_or, ← hlower]
      cases (text.lower (String.ofList (splitParts (visible url)).netloc)).toList.getLast? with
      | some d => rw [Option.some_or]
      | none =>
          rw [Option.none_or, Option.any_none]
          cases hlast : front.getLast? with
          | none => rfl
          | some d => exact (hfront.of_mem (List.mem_of_mem_getLast? hlast)).1

theorem any_eq_false_iff {o : Option Char} :
    o.any isSpace = false ↔ ∀ c ∈ o, isSpace c = false := by
  cases o <;> simp

/-- A url that begins with white space is kept as a path. -/
theorem normalForm_of_space (hstd : StandardUrls text accepts)
    (h : (visible url).head?.any isSpace) :
    normalForm text url =
      ((visible url).takeWhile fun c => !endsPath c).rdropWhile (· = '/') ∧
      (normalForm text url).head?.any isSpace := by
  cases hurl : visible url with
  | nil =>
      rw [hurl] at h
      cases h
  | cons c rest =>
      rw [hurl] at h
      have hc : isSpace c = true := h
      have hslash : decide (c = '/') = false := by
        rw [decide_eq_false_iff_not]
        rintro rfl
        revert hc
        decide
      have hkept : endsPath c = false := by
        refine Bool.eq_false_iff.mpr fun hends => ?_
        rw [(of_endsPath hends).1] at hc
        cases hc
      have hlower : (text.lower (String.ofList [])).toList = [] :=
        (lower_netloc_eq_nil_iff hstd).mpr rfl
      have hpath : ((c :: rest).takeWhile fun c => !endsPath c).rdropWhile (· = '/') =
          c :: (rest.takeWhile fun c => !endsPath c).rdropWhile (· = '/') := by
        rw [List.takeWhile_cons_of_pos (by rw [hkept]; rfl),
          Lib.Trim.rdropWhile_cons_of_neg (p := fun c => decide (c = '/')) hslash]
      rw [normalForm, hurl, splitParts_of_space hc, normalParts, hlower, hpath, unsplitParts_path]
      · exact ⟨rfl, h⟩
      · intro heq
        rw [Option.some.inj heq] at hslash
        cases hslash

/-- White space stands at the front of the result when it stands at the front of the url. -/
theorem any_head?_normalForm (hstd : StandardUrls text accepts) :
    (normalForm text url).head?.any isSpace = (visible url).head?.any isSpace := by
  cases hspace : (visible url).head?.any isSpace with
  | false =>
      rw [any_eq_false_iff] at hspace ⊢
      intro c hc
      rcases head?_normalForm hstd c hc with hsame | ⟨hnot, -⟩
      · exact hspace c hsame
      · exact hnot
  | true => exact (normalForm_of_space hstd hspace).2

theorem trimmed_normalForm_iff (hstd : StandardUrls text accepts) :
    Lib.Trim.Trimmed isSpace (normalForm text url) ↔
      (∀ c ∈ (visible url).head?, isSpace c = false) ∧
      ∀ c ∈ ((splitParts (visible url)).netloc ++
        (splitParts (visible url)).path.rdropWhile (· = '/')).getLast?, isSpace c = false := by
  rw [Lib.Trim.Trimmed, ← any_eq_false_iff, ← any_eq_false_iff, ← any_eq_false_iff,
    ← any_eq_false_iff, any_head?_normalForm hstd, any_getLast?_normalForm hstd]

/-! ## The second application -/

theorem normalParts_normalParts (hstd : StandardUrls text accepts) {parts : UrlParts} :
    normalParts text.lower (normalParts text.lower parts) = normalParts text.lower parts := by
  rw [normalParts, normalParts, String.ofList_toList, hstd.lower_lower,
    List.rdropWhile_idempotent]

/-- A result without white space at its ends is left alone. -/
theorem normalizeCanonicalUrl_normalForm (hstd : StandardUrls text accepts)
    (haccepts : accepts (String.ofList (splitParts (visible url)).netloc))
    (htrimmed : Lib.Trim.Trimmed isSpace (normalForm text url)) :
    normalizeCanonicalUrl text (String.ofList (normalForm text url)) =
      .ok (String.ofList (normalForm text url)) := by
  have hvisible : visible (String.ofList (normalForm text url)) = normalForm text url := by
    rw [visible_ofList, Lib.Trim.trim_of_trimmed htrimmed]
    exact sanitize_eq_self (isControlOrSpace_head?_normalForm hstd)
      fun c hc => (of_mem_normalForm hstd hc).1
  have haccepts' : accepts
      (String.ofList (normalParts text.lower (splitParts (visible url))).netloc) := by
    rw [normalParts, String.ofList_toList]
    exact hstd.accepts_lower _ haccepts
  rw [normalizeCanonicalUrl_eq hstd, hvisible, splitParts_normalForm hstd, if_pos haccepts',
    normalParts_normalParts hstd]
  rfl

/-- A result that is left alone does not begin with white space: the url that does is longer than
its form. -/
theorem head?_of_idempotent (hstd : StandardUrls text accepts)
    (h : normalForm text (String.ofList (normalForm text url)) = normalForm text url) :
    ∀ c ∈ (normalForm text url).head?, isSpace c = false := by
  rw [← any_eq_false_iff]
  by_contra hspace
  have hspace : (normalForm text url).head?.any isSpace = true := by simpa using hspace
  have hvisible := hspace
  rw [← h, any_head?_normalForm hstd] at hvisible
  obtain ⟨hpath, -⟩ := normalForm_of_space hstd hvisible
  rw [h] at hpath
  have hkept : (normalForm text url).dropWhile isSpace ≠ normalForm text url := by
    intro heq
    have hhead := any_eq_false_iff.mpr
      (@Lib.Trim.head?_dropWhile _ isSpace (normalForm text url))
    rw [heq, hspace] at hhead
    cases hhead
  have hshorter : (normalForm text url).length < (normalForm text url).length := by
    calc
      (normalForm text url).length ≤ (visible (String.ofList (normalForm text url))).length :=
        (congrArg List.length hpath).trans_le
          ((List.rdropWhile_prefix _ _).length_le.trans (List.takeWhile_sublist _).length_le)
      _ ≤ (Lib.Trim.trim isSpace (normalForm text url)).length := by
        rw [visible_ofList]
        exact (List.length_filter_le _ _).trans (List.dropWhile_sublist _).length_le
      _ ≤ ((normalForm text url).dropWhile isSpace).length :=
        (List.rdropWhile_prefix _ _).length_le
      _ < (normalForm text url).length :=
        lt_of_le_of_ne (List.dropWhile_sublist _).length_le
          (mt (List.dropWhile_sublist _).eq_of_length hkept)
  exact absurd hshorter (Nat.lt_irrefl _)

theorem of_isSpace {c : Char} (h : isSpace c) :
    endsNetloc c = false ∧ isSchemeChar c = false ∧ c ≠ ':' := by
  refine ⟨Bool.eq_false_iff.mpr fun hends => ?_, isSchemeChar_of_isSpace h, ?_⟩
  · rw [endsNetloc, Bool.or_eq_true, decide_eq_true_eq] at hends
    rcases hends with rfl | hends
    · revert h
      decide
    · rw [(of_endsPath hends).1] at h
      cases h
  · rintro rfl
    revert h
    decide

/-- White space at the end changes what a url is taken apart into. -/
theorem spaces_eq_nil (hstd : StandardUrls text accepts) {kept spaces : List Char}
    (hkept : ∀ c ∈ kept, endsPath c = false) (hlast : ∀ c ∈ kept.getLast?, isSpace c = false)
    (hspaces : ∀ c ∈ spaces, isSpace c)
    (h : splitParts (kept ++ spaces) = normalParts text.lower (splitParts kept)) :
    spaces = [] := by
  rcases splitParts_append_text hkept fun c hc => of_isSpace (hspaces c hc) with
    hpath | ⟨hpath, hnetloc⟩
  · rw [h] at hpath
    have hle : ((splitParts kept).path ++ spaces).length ≤ (splitParts kept).path.length := by
      rw [← hpath]
      exact (List.rdropWhile_prefix _ _).length_le
    rw [List.length_append] at hle
    exact List.eq_nil_of_length_eq_zero (by omega)
  · by_contra hne
    have hlower := hstd.getLast_lower (String.ofList (splitParts kept).netloc)
    rw [String.toList_ofList] at hlower
    rw [h] at hnetloc
    have hnetloc : (text.lower (String.ofList (splitParts kept).netloc)).toList =
        (splitParts kept).netloc ++ spaces := hnetloc
    rw [hnetloc, List.getLast?_append, List.getLast?_eq_some_getLast hne, Option.some_or,
      Option.any_some, hspaces _ (List.getLast_mem hne)] at hlower
    obtain ⟨front, heq, -⟩ := exists_eq_append_path hkept
    rw [heq, hpath, List.append_nil, List.getLast?_append] at hlast
    cases hend : (splitParts kept).netloc.getLast? with
    | none =>
        rw [hend] at hlower
        cases hlower
    | some d =>
        rw [hend] at hlower hlast
        rw [Option.any_some, hlast d rfl] at hlower
        cases hlower

/-- A result that is left alone has no white space at its ends. -/
theorem trimmed_of_idempotent (hstd : StandardUrls text accepts)
    (h : normalForm text (String.ofList (normalForm text url)) = normalForm text url) :
    Lib.Trim.Trimmed isSpace (normalForm text url) := by
  have hhead := head?_of_idempotent hstd h
  refine ⟨hhead, ?_⟩
  -- the second application sees the result without the white space at its end
  have hvisible : visible (String.ofList (normalForm text url)) =
      (normalForm text url).rdropWhile isSpace := by
    rw [visible_ofList, Lib.Trim.trim, Lib.Trim.dropWhile_eq_self hhead]
    apply sanitize_eq_self
    · intro c hc
      exact isControlOrSpace_head?_normalForm hstd c (Lib.Trim.mem_head?_of_rdropWhile hc)
    · intro c hc
      exact (of_mem_normalForm hstd ((List.rdropWhile_prefix _ _).subset hc)).1
  have hparts := splitParts_normalForm hstd (String.ofList (normalForm text url))
  rw [h, hvisible] at hparts
  have hcut : (normalForm text url).rdropWhile isSpace ++ (normalForm text url).rtakeWhile isSpace =
      normalForm text url := List.rdropWhile_append_rtakeWhile
  have hkept : ∀ c ∈ (normalForm text url).rdropWhile isSpace, endsPath c = false := fun c hc =>
    (of_mem_normalForm hstd ((List.rdropWhile_prefix _ _).subset hc)).2
  have hnone := spaces_eq_nil hstd hkept Lib.Trim.getLast?_rdropWhile
    (fun c hc => List.mem_rtakeWhile_imp hc) (by rw [hcut]; exact hparts)
  rw [hnone, List.append_nil] at hcut
  rw [← hcut]
  exact Lib.Trim.getLast?_rdropWhile

theorem canonical_iff_namesPage (hstd : StandardUrls text accepts) (url : String) :
    Canonical text url ↔ NamesPage text url := by
  constructor
  · intro h
    obtain ⟨result, hresult, hagain⟩ := h.idempotent
    rw [normalizeCanonicalUrl_eq hstd] at hresult
    split at hresult
    · next haccepts =>
      have hform : result = String.ofList (normalForm text url) := (Except.ok.inj hresult).symm
      rw [hform, normalizeCanonicalUrl_eq hstd] at hagain
      split at hagain
      · have hsame := String.ofList_injective (Except.ok.inj hagain)
        obtain ⟨hfront, hback⟩ :=
          (trimmed_normalForm_iff hstd).mp (trimmed_of_idempotent hstd hsame)
        exact ⟨(exists_urlsplit_iff hstd).mpr haccepts, hfront, hback⟩
      · cases hagain
    · cases hresult
  · intro h
    have haccepts := (exists_urlsplit_iff hstd).mp h.accepted
    have htrimmed := (trimmed_normalForm_iff hstd).mpr ⟨h.front, h.back⟩
    refine
      { idempotent := ⟨String.ofList (normalForm text url), ?_,
          normalizeCanonicalUrl_normalForm hstd haccepts htrimmed⟩
        spaces := fun before after hbefore hafter => ?_
        case := fun url' hcase result hresult => case_of_accepted hstd haccepts hcase hresult
        query := fun more hmore => query_of_namesPage hstd h hmore
        slashes := slashes_of_standard hstd url }
    · rw [normalizeCanonicalUrl_eq hstd, if_pos haccepts]
      rfl
    · apply normalizeCanonicalUrl_congr_parts hstd
      rw [visible_append_spaces hbefore hafter]

/-! ## A text library for ASCII -/

def asciiText : TextTools where
  lower s := String.ofList (s.toList.map Char.toLower)
  urlsplit := Urllib.urlsplit fun _ => true
  urlunsplit := Urllib.urlunsplit
  sha256 := id
  str _ := ""
  repr := id

theorem isSpace_eq_false_of_isAlpha {c : Char} (h : c.isAlpha) : isSpace c = false := by
  refine Bool.eq_false_iff.mpr fun hspace => ?_
  have hscheme := isSchemeChar_of_isSpace hspace
  rw [isSchemeChar, Char.isAlphanum, h] at hscheme
  cases hscheme

theorem isSpace_toLower (c : Char) : isSpace c.toLower = isSpace c := by
  by_cases hupper : c.isUpper
  · have halpha : c.isAlpha = true := by rw [Char.isAlpha, hupper, Bool.true_or]
    rw [isSpace_eq_false_of_isAlpha halpha,
      isSpace_eq_false_of_isAlpha (by rw [Char.isAlpha_toLower_eq_isAlpha, halpha])]
  · rw [Char.toLower_eq_of_not_isUpper hupper]

theorem isAlpha_eq_false {c : Char} (h : endsNetloc c ∨ isUnsafe c) : c.isAlpha = false := by
  simp only [endsNetloc, endsPath, isUnsafe, Bool.or_eq_true, decide_eq_true_eq] at h
  rcases h with (rfl | rfl | rfl) | (rfl | rfl) | rfl <;> decide

theorem toLower_eq_iff {c d : Char} (h : endsNetloc d ∨ isUnsafe d) : c.toLower = d ↔ c = d := by
  have hd := isAlpha_eq_false h
  have hnot {e : Char} (he : e.isAlpha = false) : e.toLower = e :=
    Char.toLower_eq_of_not_isUpper fun hupper => by
      rw [Char.isAlpha, hupper, Bool.true_or] at he
      cases he
  constructor
  · intro hlower
    have hc : c.isAlpha = false := by rw [← Char.isAlpha_toLower_eq_isAlpha, hlower, hd]
    rw [← hlower, hnot hc]
  · rintro rfl
    exact hnot hd

theorem standardUrls_asciiText : StandardUrls asciiText fun _ => true where
  urlsplit _ := rfl
  urlunsplit _ := rfl
  lower_ascii _ _ := rfl
  lower_lower s := by
    show String.ofList ((String.ofList (s.toList.map Char.toLower)).toList.map Char.toLower) = _
    rw [String.toList_ofList, map_toLower_map_toLower]
    rfl
  lower_eq_empty s h := by
    have hnil := List.map_eq_nil_iff.mp (String.ofList_eq_empty_iff.mp h)
    exact String.toList_eq_nil_iff.mp hnil
  mem_lower s c h := by
    show c ∈ (String.ofList (s.toList.map Char.toLower)).toList ↔ c ∈ s.toList
    rw [String.toList_ofList, List.mem_map]
    simp only [toLower_eq_iff h, exists_eq_right]
  getLast_lower s := by
    show (String.ofList (s.toList.map Char.toLower)).toList.getLast?.any isSpace = _
    rw [String.toList_ofList, List.getLast?_map, Option.any_map]
    simp only [isSpace_toLower]
  accepts_lower _ _ := rfl

theorem canonical_iff_namesPage_jobs :
    Canonical asciiText " https://Example.com/Jobs/1/?utm_source=x#section" ↔
      NamesPage asciiText " https://Example.com/Jobs/1/?utm_source=x#section" :=
  canonical_iff_namesPage standardUrls_asciiText _

/-- White space that trailing slashes had kept at the end of a path is stripped the next time. -/
theorem not_canonical_space :
    StandardUrls asciiText (fun _ => true) ∧
      normalizeCanonicalUrl asciiText "https://example.com/a /" = .ok "https://example.com/a " ∧
      normalizeCanonicalUrl asciiText "https://example.com/a " = .ok "https://example.com/a" ∧
      ¬ Canonical asciiText "https://example.com/a /" := by
  have hfirst : normalizeCanonicalUrl asciiText "https://example.com/a /" =
      .ok "https://example.com/a " := by decide +kernel
  have hsecond : normalizeCanonicalUrl asciiText "https://example.com/a " =
      .ok "https://example.com/a" := by decide +kernel
  refine ⟨standardUrls_asciiText, hfirst, hsecond, fun hcanonical => ?_⟩
  obtain ⟨result, hresult, hagain⟩ := hcanonical.idempotent
  rw [hfirst] at hresult
  rw [← Except.ok.inj hresult, hsecond] at hagain
  revert hagain
  decide +kernel

end RecruFlow.Ingestion
