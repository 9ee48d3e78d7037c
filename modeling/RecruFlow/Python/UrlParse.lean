import Mathlib
import RecruFlow.Lib.Trim
import RecruFlow.Python.Text

/-!
# Urls

`urllib.parse` as Python 3.12 has it since 3.12.4: a url is taken apart from the
left, and a path that begins with two slashes is put behind an empty authority.
Whether an authority is valid (brackets, and what becomes of its characters under
compatibility normalization) is left to the callers.
-/

namespace RecruFlow.Python

/-- `_WHATWG_C0_CONTROL_OR_SPACE` -/
def isControlOrSpace (c : Char) : Bool :=
  c.toNat ≤ 0x20

/-- `_UNSAFE_URL_BYTES_TO_REMOVE` -/
def isUnsafe (c : Char) : Bool :=
  c = '\t' || c = '\r' || c = '\n'

/-- `scheme_chars` -/
def isSchemeChar (c : Char) : Bool :=
  c.isAlphanum || c = '+' || c = '-' || c = '.'

/-- Where a path ends. -/
def endsPath (c : Char) : Bool :=
  c = '?' || c = '#'

/-- Where an authority ends. -/
def endsNetloc (c : Char) : Bool :=
  c = '/' || endsPath c

/-- `uses_netloc`, without the empty scheme. -/
def usesNetloc : List String :=
  ["ftp", "http", "gopher", "nntp", "telnet", "imap", "wais", "file", "mms", "https", "shttp",
    "snews", "prospero", "rtsp", "rtsps", "rtspu", "rsync", "svn", "svn+ssh", "sftp", "nfs",
    "git", "git+ssh", "ws", "wss", "itms-services"]

/-- The text that is taken apart. -/
def sanitize (url : List Char) : List Char :=
  (url.dropWhile isControlOrSpace).filter fun c => !isUnsafe c

/-- The scheme as it is written, and what follows its colon. -/
def splitScheme (url : List Char) : List Char × List Char :=
  let before := url.takeWhile (· ≠ ':')
  if ':' ∈ url ∧ before.head?.any Char.isAlpha ∧ before.all isSchemeChar then
    (before, url.drop (before.length + 1))
  else ([], url)

/-- `_splitnetloc`, behind two slashes. -/
def splitNetloc (url : List Char) : List Char × List Char :=
  if url.take 2 = ['/', '/'] then (url.drop 2).span fun c => !endsNetloc c else ([], url)

/-- A url without its query and its fragment. -/
structure UrlParts where
  scheme : List Char
  netloc : List Char
  path : List Char
  deriving DecidableEq

/-- The parts of a sanitized url. -/
def splitParts (url : List Char) : UrlParts :=
  let (scheme, rest) := splitScheme url
  let (netloc, rest) := splitNetloc rest
  ⟨scheme.map Char.toLower, netloc, rest.takeWhile fun c => !endsPath c⟩

/-- `urlunsplit` puts the two slashes of an authority before these. -/
def unsplitNetloc (scheme netloc path : List Char) : List Char :=
  if netloc ≠ [] then
    '/' :: '/' :: netloc ++ (if path ≠ [] ∧ path.head? ≠ some '/' then '/' :: path else path)
  else if path.take 2 = ['/', '/'] then '/' :: '/' :: path
  else if String.ofList scheme ∈ usesNetloc ∧ (path = [] ∨ path.head? = some '/') then
    '/' :: '/' :: path
  else path

/-- `urlunsplit` -/
def unsplitParts (parts : UrlParts) : List Char :=
  let url := unsplitNetloc parts.scheme parts.netloc parts.path
  if parts.scheme ≠ [] then parts.scheme ++ ':' :: url else url

/-- What follows the scheme, with another authority in the place of its own. -/
def withNetloc (url netloc : List Char) : List Char :=
  if url.take 2 = ['/', '/'] then '/' :: '/' :: (netloc ++ (splitNetloc url).2) else url

/-- The url with another scheme and another authority in the place of its own. -/
def withHead (url scheme netloc : List Char) : List Char :=
  let (oldScheme, rest) := splitScheme url
  if oldScheme = [] then withNetloc rest netloc else scheme ++ ':' :: withNetloc rest netloc

variable {url xs ys rest scheme : List Char}

/-! ## Sanitizing -/

theorem isControlOrSpace_of_isUnsafe {c : Char} (h : isUnsafe c) : isControlOrSpace c := by
  simp only [isUnsafe, Bool.or_eq_true, decide_eq_true_eq] at h
  rcases h with (rfl | rfl) | rfl <;> decide

theorem isUnsafe_of_mem_sanitize {c : Char} (h : c ∈ sanitize url) : isUnsafe c = false := by
  rw [sanitize, List.mem_filter] at h
  simpa using h.2

theorem sanitize_of_control (h : ∀ c ∈ xs, isControlOrSpace c) :
    sanitize xs = [] ∧ sanitize (xs ++ ys) = sanitize ys := by
  constructor
  · rw [sanitize, List.dropWhile_eq_nil_iff.mpr h, List.filter_nil]
  · rw [sanitize, List.dropWhile_append_of_pos h, sanitize]

/-- Behind a character that is kept, only single characters are removed. -/
theorem sanitize_append_of_exists (h : ∃ c ∈ xs, isControlOrSpace c = false) :
    sanitize (xs ++ ys) = sanitize xs ++ ys.filter fun c => !isUnsafe c := by
  have hdrop : xs.dropWhile isControlOrSpace ≠ [] := by
    obtain ⟨c, hmem, hc⟩ := h
    intro hnil
    rw [List.dropWhile_eq_nil_iff.mp hnil c hmem] at hc
    cases hc
  rw [sanitize, List.dropWhile_append, if_neg (by simpa using hdrop), List.filter_append, sanitize]

theorem sanitize_eq_filter (h : ∀ c ∈ xs.head?, isControlOrSpace c = false) :
    sanitize xs = xs.filter fun c => !isUnsafe c := by
  rw [sanitize, Lib.Trim.dropWhile_eq_self h]

theorem sanitize_append (h : ∀ c ∈ ys.head?, isControlOrSpace c = false) :
    sanitize (xs ++ ys) = sanitize xs ++ ys.filter fun c => !isUnsafe c := by
  by_cases hkept : ∃ c ∈ xs, isControlOrSpace c = false
  · exact sanitize_append_of_exists hkept
  · have hall : ∀ c ∈ xs, isControlOrSpace c := by simpa using hkept
    obtain ⟨hnil, happend⟩ := @sanitize_of_control xs ys hall
    rw [happend, sanitize_eq_filter h, hnil, List.nil_append]

theorem head?_sanitize : ∀ c ∈ (sanitize url).head?, isControlOrSpace c = false := by
  have hhead := @Lib.Trim.head?_dropWhile _ isControlOrSpace url
  rw [sanitize]
  cases hdrop : url.dropWhile isControlOrSpace with
  | nil =>
      intro c hc
      cases hc
  | cons x xs =>
      have hx : isControlOrSpace x = false := hhead x (by rw [hdrop]; rfl)
      have hsafe : isUnsafe x = false := Bool.eq_false_iff.mpr fun hremoved => by
        rw [isControlOrSpace_of_isUnsafe hremoved] at hx
        cases hx
      rw [List.filter_cons_of_pos (by rw [hsafe]; rfl)]
      intro c hc
      rwa [← Option.some.inj hc]

theorem sanitize_eq_self (hhead : ∀ c ∈ xs.head?, isControlOrSpace c = false)
    (hsafe : ∀ c ∈ xs, isUnsafe c = false) : sanitize xs = xs := by
  rw [sanitize_eq_filter hhead, List.filter_eq_self]
  intro c hc
  rw [hsafe c hc]
  rfl

/-- A character at the end is kept or left out. -/
theorem sanitize_concat (xs : List Char) (c : Char) :
    sanitize (xs ++ [c]) = sanitize xs ∨ sanitize (xs ++ [c]) = sanitize xs ++ [c] := by
  by_cases hkept : ∃ c ∈ xs, isControlOrSpace c = false
  · rw [sanitize_append_of_exists hkept]
    by_cases hremoved : isUnsafe c <;> simp [hremoved]
  · have hall : ∀ c ∈ xs, isControlOrSpace c := by simpa using hkept
    obtain ⟨hnil, happend⟩ := @sanitize_of_control xs [c] hall
    rw [happend, hnil, sanitize]
    by_cases hcontrol : isControlOrSpace c <;> by_cases hremoved : isUnsafe c <;>
      simp [hcontrol, hremoved]

/-- White space at the end does not matter when none of it is left in what is sanitized. -/
theorem sanitize_rdropWhile (h : ∀ c ∈ (sanitize xs).getLast?, isSpace c = false) :
    sanitize (xs.rdropWhile isSpace) = sanitize xs := by
  induction xs using List.reverseRecOn with
  | nil => rfl
  | append_singleton xs c ih =>
      by_cases hc : isSpace c
      · rw [List.rdropWhile_concat_pos isSpace xs c hc]
        rcases sanitize_concat xs c with hsame | hkept
        · rw [hsame] at h ⊢
          exact ih h
        · rw [hkept, List.getLast?_concat] at h
          rw [h c rfl] at hc
          cases hc
      · rw [List.rdropWhile_concat_neg isSpace xs c hc]

/-! ## The scheme -/

/-- The text of a scheme. -/
def IsScheme (scheme : List Char) : Prop :=
  scheme.head?.any Char.isAlpha ∧ scheme.all isSchemeChar

theorem IsScheme.colon_not_mem (h : IsScheme scheme) : ':' ∉ scheme := by
  intro hmem
  have hchar := List.all_eq_true.mp h.2 ':' hmem
  revert hchar
  decide

theorem splitScheme_of_isScheme (h : IsScheme scheme) :
    splitScheme (scheme ++ ':' :: rest) = (scheme, rest) := by
  have hbefore : (scheme ++ ':' :: rest).takeWhile (· ≠ ':') = scheme := by
    rw [List.takeWhile_append_of_pos, List.takeWhile_cons_of_neg (by decide), List.append_nil]
    intro c hc
    have hne : c ≠ ':' := fun heq => h.colon_not_mem (heq ▸ hc)
    simpa using hne
  rw [splitScheme, hbefore, if_pos ⟨by simp, h⟩]
  simp

theorem IsScheme.ne_nil (h : IsScheme scheme) : scheme ≠ [] := by
  rintro rfl
  cases h.1

theorem splitScheme_cases (url : List Char) :
    splitScheme url = ([], url) ∨
      ∃ scheme rest, IsScheme scheme ∧ url = scheme ++ ':' :: rest ∧
        splitScheme url = (scheme, rest) := by
  by_cases hscheme : ':' ∈ url ∧ IsScheme (url.takeWhile (· ≠ ':'))
  · have hsplit := url.takeWhile_append_dropWhile (p := (· ≠ ':'))
    have hhead := @Lib.Trim.head?_dropWhile _ (· ≠ ':') url
    cases hdrop : url.dropWhile (· ≠ ':') with
    | nil =>
        have hnone := List.dropWhile_eq_nil_iff.mp hdrop ':' hscheme.1
        simp at hnone
    | cons c rest =>
        have hc : c = ':' := by simpa using hhead c (by rw [hdrop]; rfl)
        rw [hdrop, hc] at hsplit
        refine .inr ⟨_, rest, hscheme.2, hsplit.symm, ?_⟩
        calc
          splitScheme url = splitScheme (url.takeWhile (· ≠ ':') ++ ':' :: rest) :=
            congrArg splitScheme hsplit.symm
          _ = _ := splitScheme_of_isScheme hscheme.2
  · exact .inl (if_neg hscheme)

/-- What comes behind a character that no scheme has is no part of a scheme. -/
theorem splitScheme_append (h : ∀ y ∈ ys.head?, isSchemeChar y = false ∧ y ≠ ':') :
    splitScheme (xs ++ ys) = ((splitScheme xs).1, (splitScheme xs).2 ++ ys) := by
  have hcolon {rest : List Char} : ys ≠ ':' :: rest := by
    rintro rfl
    exact (h ':' rfl).2 rfl
  rcases splitScheme_cases xs with hnone | ⟨scheme, rest, hscheme, hxs, hsplit⟩
  · rw [hnone]
    rcases splitScheme_cases (xs ++ ys) with hboth | ⟨scheme, rest, hscheme, hboth, -⟩
    · exact hboth
    · rcases List.append_eq_append_iff.mp hboth with ⟨more, hmore, hys⟩ | ⟨more, hxs, hrest⟩
      · cases more with
        | nil => exact absurd hys hcolon
        | cons y more =>
            have hy := (h y (by rw [hys]; rfl)).1
            rw [List.all_eq_true.mp hscheme.2 y (by simp [hmore])] at hy
            cases hy
      · cases more with
        | nil => exact absurd hrest.symm hcolon
        | cons c more =>
            rw [List.cons_append, List.cons.injEq] at hrest
            rw [hxs, ← hrest.1, splitScheme_of_isScheme hscheme] at hnone
            exact absurd (congrArg Prod.fst hnone) hscheme.ne_nil
  · rw [hsplit, hxs, List.append_assoc, List.cons_append, splitScheme_of_isScheme hscheme]

/-! ## The authority -/

theorem splitNetloc_slashes (rest : List Char) :
    splitNetloc ('/' :: '/' :: rest) =
      (rest.takeWhile fun c => !endsNetloc c, rest.dropWhile fun c => !endsNetloc c) := by
  exact (if_pos rfl).trans (List.span_eq_takeWhile_dropWhile _ rest)

theorem splitNetloc_of_ne (h : url.take 2 ≠ ['/', '/']) : splitNetloc url = ([], url) := by
  rw [splitNetloc, if_neg h]

theorem take_two_cases (url : List Char) :
    url.take 2 ≠ ['/', '/'] ∨ ∃ rest, url = '/' :: '/' :: rest := by
  by_cases h : url.take 2 = ['/', '/']
  · refine .inr ⟨url.drop 2, ?_⟩
    rw [← url.take_append_drop 2, h]
    rfl
  · exact .inl h

theorem span_append {p : Char → Bool} (h : ∀ y ∈ ys.head?, p y = false) :
    (xs ++ ys).takeWhile p = xs.takeWhile p ∧ (xs ++ ys).dropWhile p = xs.dropWhile p ++ ys := by
  induction xs with
  | nil =>
      rw [List.nil_append, Lib.Trim.dropWhile_eq_self h]
      refine ⟨?_, rfl⟩
      cases ys with
      | nil => rfl
      | cons y ys => exact List.takeWhile_cons_of_neg (by rw [h y rfl]; decide)
  | cons x xs ih =>
      by_cases hx : p x
      · rw [List.cons_append, List.takeWhile_cons_of_pos hx, List.takeWhile_cons_of_pos hx,
          List.dropWhile_cons_of_pos hx, List.dropWhile_cons_of_pos hx, ih.1, ih.2]
        exact ⟨rfl, rfl⟩
      · rw [List.cons_append, List.takeWhile_cons_of_neg hx, List.takeWhile_cons_of_neg hx,
          List.dropWhile_cons_of_neg hx, List.dropWhile_cons_of_neg hx]
        exact ⟨rfl, rfl⟩

theorem take_two_append (h : '/' ∉ ys.head?) :
    (xs ++ ys).take 2 = ['/', '/'] ↔ xs.take 2 = ['/', '/'] := by
  cases ys with
  | nil => rw [List.append_nil]
  | cons y ys =>
      have hy : y ≠ '/' := fun heq => h (by rw [heq]; rfl)
      cases xs with
      | nil => simp [hy]
      | cons c xs =>
          cases xs with
          | nil => simp [hy]
          | cons d xs => rfl

theorem splitNetloc_append (h : ∀ y ∈ ys.head?, endsPath y) :
    splitNetloc (xs ++ ys) = ((splitNetloc xs).1, (splitNetloc xs).2 ++ ys) := by
  rcases take_two_cases xs with hne | ⟨rest, rfl⟩
  · have hslash : '/' ∉ ys.head? := by
      intro hmem
      have hends := h '/' hmem
      revert hends
      decide
    rw [splitNetloc_of_ne hne, splitNetloc_of_ne (mt (take_two_append hslash).mp hne)]
  · have hends : ∀ y ∈ ys.head?, (!endsNetloc y) = false := by
      intro y hy
      rw [endsNetloc, h y hy, Bool.or_true]
      rfl
    obtain ⟨htake, hdrop⟩ := @span_append rest ys _ hends
    rw [List.cons_append, List.cons_append, splitNetloc_slashes, splitNetloc_slashes, htake, hdrop]

theorem splitNetloc_netloc_path {netloc path : List Char}
    (hnetloc : ∀ c ∈ netloc, endsNetloc c = false) (hpath : ∀ c ∈ path.head?, endsNetloc c) :
    splitNetloc ('/' :: '/' :: (netloc ++ path)) = (netloc, path) := by
  have hstop : ∀ c ∈ path.head?, (!endsNetloc c) = false := by
    intro c hc
    rw [hpath c hc]
    rfl
  have hnot : ∀ c ∈ netloc, (!endsNetloc c) = true := by
    intro c hc
    rw [hnetloc c hc]
    rfl
  obtain ⟨htake, hdrop⟩ := @span_append netloc path _ hstop
  rw [splitNetloc_slashes, htake, hdrop, List.takeWhile_eq_self_iff.mpr hnot,
    List.dropWhile_eq_nil_iff.mpr hnot, List.nil_append]

theorem splitNetloc_slashes_of_head (h : ∀ c ∈ xs.head?, c = '/') :
    splitNetloc ('/' :: '/' :: xs) = ([], xs) := by
  apply @splitNetloc_netloc_path [] xs (by simp)
  intro c hc
  rw [h c hc]
  rfl

theorem rdropWhile_append_slashes (xs : List Char) (count : Nat) :
    (xs ++ List.replicate count '/').rdropWhile (· = '/') = xs.rdropWhile (· = '/') := by
  induction count with
  | zero => rw [List.replicate_zero, List.append_nil]
  | succ count ih =>
      rw [List.replicate_succ', ← List.append_assoc, List.rdropWhile_concat_pos _ _ _ (by decide)]
      exact ih

/-- More slashes at the end belong to the path. -/
theorem splitNetloc_append_slashes (xs : List Char) (count : Nat) :
    (splitNetloc (xs ++ List.replicate count '/')).1 = (splitNetloc xs).1 ∧
      (splitNetloc (xs ++ List.replicate count '/')).2.rdropWhile (· = '/') =
        (splitNetloc xs).2.rdropWhile (· = '/') := by
  rcases take_two_cases xs with hne | ⟨rest, rfl⟩
  · rw [splitNetloc_of_ne hne]
    rcases take_two_cases (xs ++ List.replicate count '/') with hboth | ⟨rest, hboth⟩
    · rw [splitNetloc_of_ne hboth]
      exact ⟨rfl, rdropWhile_append_slashes xs count⟩
    · -- only when nothing but slashes was there
      have hslashes : ∀ c ∈ xs, c = '/' := by
        cases xs with
        | nil => simp
        | cons c xs =>
            obtain ⟨hc, htail⟩ := List.cons.inj hboth
            cases xs with
            | nil => simp [hc]
            | cons d xs => exact absurd (by rw [hc, (List.cons.inj htail).1]; rfl) hne
      have hall : ∀ c ∈ '/' :: '/' :: rest, c = '/' := by
        intro c hc
        rw [← hboth, List.mem_append, List.mem_replicate] at hc
        exact hc.elim (hslashes c) (·.2)
      have hrest : ∀ c ∈ rest, c = '/' := fun c hc => hall c (by simp [hc])
      rw [hboth, splitNetloc_slashes_of_head fun c hc => hrest c (List.mem_of_mem_head? hc)]
      refine ⟨rfl, ?_⟩
      rw [List.rdropWhile_eq_nil_iff.mpr (by simpa using hrest),
        List.rdropWhile_eq_nil_iff.mpr (by simpa using hslashes)]
  · have hends : ∀ y ∈ (List.replicate count '/').head?, (!endsNetloc y) = false := by
      intro y hy
      rw [List.eq_of_mem_replicate (List.mem_of_mem_head? hy)]
      rfl
    obtain ⟨htake, hdrop⟩ := @span_append rest _ _ hends
    rw [List.cons_append, List.cons_append, splitNetloc_slashes, splitNetloc_slashes, htake, hdrop]
    exact ⟨rfl, rdropWhile_append_slashes _ count⟩

/-! ## The parts -/

/-- Parts that a url can be taken apart into. -/
structure UrlParts.WellFormed (parts : UrlParts) : Prop where
  scheme : parts.scheme ≠ [] → IsScheme parts.scheme
  scheme_lower : parts.scheme.map Char.toLower = parts.scheme
  netloc : ∀ c ∈ parts.netloc, endsNetloc c = false
  path : ∀ c ∈ parts.path, endsPath c = false
  path_head : parts.netloc ≠ [] → ∀ c ∈ parts.path.head?, c = '/'
  no_scheme : parts.scheme = [] → parts.netloc = [] → (splitScheme parts.path).1 = []

theorem UrlParts.WellFormed.unsplitNetloc_of_ne {parts : UrlParts} (h : parts.WellFormed)
    (hnetloc : parts.netloc ≠ []) :
    unsplitNetloc parts.scheme parts.netloc parts.path =
      '/' :: '/' :: (parts.netloc ++ parts.path) := by
  have hpath : ¬ (parts.path ≠ [] ∧ parts.path.head? ≠ some '/') := by
    rintro ⟨hne, hslash⟩
    obtain ⟨c, path, hpath⟩ := List.exists_cons_of_ne_nil hne
    rw [hpath] at hslash
    exact hslash (congrArg some (h.path_head hnetloc c (by rw [hpath]; rfl)))
  rw [unsplitNetloc, if_pos hnetloc, if_neg hpath]
  rfl

theorem splitNetloc_unsplitNetloc {parts : UrlParts} (h : parts.WellFormed) :
    splitNetloc (unsplitNetloc parts.scheme parts.netloc parts.path) =
      (parts.netloc, parts.path) := by
  by_cases hnetloc : parts.netloc ≠ []
  · rw [h.unsplitNetloc_of_ne hnetloc]
    apply splitNetloc_netloc_path h.netloc
    intro c hc
    rw [h.path_head hnetloc c hc]
    rfl
  · rw [unsplitNetloc, if_neg hnetloc, not_not.mp hnetloc]
    split
    · next hslashes =>
      apply splitNetloc_slashes_of_head
      intro c hc
      obtain ⟨rest, hrest⟩ := (take_two_cases parts.path).resolve_left (not_not.mpr hslashes)
      rw [hrest] at hc
      exact (Option.some.inj hc).symm
    · next hslashes =>
      split
      · next huses =>
        apply splitNetloc_slashes_of_head
        intro c hc
        rcases huses.2 with hempty | hslash
        · rw [hempty] at hc
          cases hc
        · rw [hslash] at hc
          exact (Option.some.inj hc).symm
      · exact splitNetloc_of_ne hslashes

theorem splitScheme_of_fst (h : (splitScheme url).1 = []) : splitScheme url = ([], url) := by
  rcases splitScheme_cases url with hnone | ⟨scheme, rest, hscheme, -, hsplit⟩
  · exact hnone
  · rw [hsplit] at h
    exact absurd h hscheme.ne_nil

theorem splitScheme_slash (rest : List Char) : splitScheme ('/' :: rest) = ([], '/' :: rest) := by
  rcases splitScheme_cases ('/' :: rest) with hnone | ⟨scheme, more, hscheme, hurl, -⟩
  · exact hnone
  · cases scheme with
    | nil => exact absurd rfl hscheme.ne_nil
    | cons c scheme =>
        have hc := hscheme.1
        rw [← (List.cons.inj hurl).1] at hc
        cases hc

theorem splitParts_def (url : List Char) :
    splitParts url =
      ⟨(splitScheme url).1.map Char.toLower, (splitNetloc (splitScheme url).2).1,
        (splitNetloc (splitScheme url).2).2.takeWhile fun c => !endsPath c⟩ :=
  rfl

theorem splitParts_eq (h : splitScheme url = (scheme, rest)) :
    splitParts url =
      ⟨scheme.map Char.toLower, (splitNetloc rest).1,
        (splitNetloc rest).2.takeWhile fun c => !endsPath c⟩ := by
  rw [splitParts_def, h]

theorem splitParts_unsplitParts {parts : UrlParts} (h : parts.WellFormed) :
    splitParts (unsplitParts parts) = parts := by
  have hnetloc := splitNetloc_unsplitNetloc h
  have hpath : (parts.path.takeWhile fun c => !endsPath c) = parts.path := by
    rw [List.takeWhile_eq_self_iff]
    intro c hc
    rw [h.path c hc]
    rfl
  rw [unsplitParts]
  split
  · next hscheme =>
    rw [splitParts_eq (splitScheme_of_isScheme (h.scheme hscheme)), hnetloc, hpath,
      h.scheme_lower]
  · next hnone =>
    have hscheme := not_not.mp hnone
    have hsplit : splitScheme (unsplitNetloc parts.scheme parts.netloc parts.path) =
        ([], unsplitNetloc parts.scheme parts.netloc parts.path) := by
      rw [unsplitNetloc]
      split
      · exact splitScheme_slash _
      · next hnone =>
        split
        · exact splitScheme_slash _
        · split
          · exact splitScheme_slash _
          · exact splitScheme_of_fst (h.no_scheme hscheme (not_not.mp hnone))
    rw [splitParts_eq hsplit, hnetloc, hpath, List.map_nil, ← hscheme]

theorem isSchemeChar_toLower (c : Char) : isSchemeChar c.toLower = isSchemeChar c := by
  by_cases hupper : c.isUpper
  · have halpha : c.isAlpha = true := by rw [Char.isAlpha, hupper, Bool.true_or]
    rw [isSchemeChar, isSchemeChar, Char.isAlphanum, Char.isAlphanum,
      Char.isAlpha_toLower_eq_isAlpha, halpha]
    rfl
  · rw [Char.toLower_eq_of_not_isUpper hupper]

/-- Case does not matter to a scheme. -/
theorem isScheme_map_toLower : IsScheme (scheme.map Char.toLower) ↔ IsScheme scheme := by
  rw [IsScheme, IsScheme, List.head?_map, Option.any_map, List.all_map]
  have halpha : (fun c : Char => c.toLower.isAlpha) = Char.isAlpha :=
    funext Char.isAlpha_toLower_eq_isAlpha
  have hchar : isSchemeChar ∘ Char.toLower = isSchemeChar := funext isSchemeChar_toLower
  rw [halpha, hchar]

theorem map_toLower_map_toLower (xs : List Char) :
    (xs.map Char.toLower).map Char.toLower = xs.map Char.toLower := by
  rw [List.map_map]
  exact List.map_congr_left fun c _ => Char.toLower_toLower_eq_toLower c

theorem endsPath_of_endsNetloc {c : Char} (h : endsNetloc c) (hpath : endsPath c = false) :
    c = '/' := by
  rw [endsNetloc, hpath, Bool.or_false] at h
  exact of_decide_eq_true h

theorem isSchemeChar_of_endsPath {c : Char} (h : endsPath c) :
    isSchemeChar c = false ∧ c ≠ ':' := by
  rw [endsPath, Bool.or_eq_true, decide_eq_true_eq, decide_eq_true_eq] at h
  rcases h with rfl | rfl <;> decide

theorem head?_takeWhile_dropWhile {p q : Char → Bool} :
    ∀ c ∈ ((xs.dropWhile p).takeWhile q).head?, p c = false ∧ q c = true := by
  intro c hc
  refine ⟨?_, List.mem_takeWhile_imp (List.mem_of_mem_head? hc)⟩
  apply Lib.Trim.head?_dropWhile c
  cases hdrop : xs.dropWhile p with
  | nil =>
      rw [hdrop] at hc
      cases hc
  | cons d rest =>
      rw [hdrop, List.takeWhile_cons] at hc
      split at hc
      · exact hc
      · cases hc

/-- Behind an authority a path begins with a slash. -/
theorem head?_path : ∀ c ∈ ((rest.dropWhile fun c => !endsNetloc c).takeWhile
    fun c => !endsPath c).head?, c = '/' := by
  intro c hc
  obtain ⟨hends, hnot⟩ := head?_takeWhile_dropWhile c hc
  exact endsPath_of_endsNetloc (by simpa using hends) (by simpa using hnot)

/-- A path without a scheme in front of it is not taken for one. -/
theorem splitScheme_path (h : (splitScheme url).1 = []) :
    (splitScheme (url.takeWhile fun c => !endsPath c)).1 = [] := by
  have hhead : ∀ y ∈ (url.dropWhile fun c => !endsPath c).head?,
      isSchemeChar y = false ∧ y ≠ ':' := by
    intro y hy
    have hends := Lib.Trim.head?_dropWhile y hy
    exact isSchemeChar_of_endsPath (by simpa using hends)
  have happend := @splitScheme_append (url.takeWhile fun c => !endsPath c) _ hhead
  rw [List.takeWhile_append_dropWhile] at happend
  rw [happend] at h
  exact h

theorem wellFormed_splitParts (url : List Char) : (splitParts url).WellFormed := by
  obtain ⟨scheme, rest, hsplit, hscheme, hrest⟩ :
      ∃ scheme rest, splitScheme url = (scheme, rest) ∧ (scheme ≠ [] → IsScheme scheme) ∧
        (scheme = [] → rest = url) := by
    rcases splitScheme_cases url with hnone | ⟨scheme, rest, hscheme, -, hsplit⟩
    · exact ⟨[], url, hnone, absurd rfl, fun _ => rfl⟩
    · exact ⟨scheme, rest, hsplit, fun _ => hscheme, fun h => absurd h hscheme.ne_nil⟩
  rw [splitParts_eq hsplit]
  constructor
  case scheme =>
    intro hne
    exact isScheme_map_toLower.mpr (hscheme fun h => hne (by rw [h]; rfl))
  case scheme_lower => exact map_toLower_map_toLower scheme
  case path =>
    intro c hc
    simpa using List.mem_takeWhile_imp (p := fun c => !endsPath c) hc
  all_goals rcases take_two_cases rest with hone | ⟨more, rfl⟩
  case netloc.inl =>
    intro c hc
    rw [splitNetloc_of_ne hone] at hc
    cases hc
  case netloc.inr =>
    intro c hc
    rw [splitNetloc_slashes] at hc
    simpa using List.mem_takeWhile_imp (p := fun c => !endsNetloc c) hc
  case path_head.inl =>
    intro hne
    rw [splitNetloc_of_ne hone] at hne
    exact absurd rfl hne
  case path_head.inr =>
    intro _
    rw [splitNetloc_slashes]
    exact head?_path
  case no_scheme.inl =>
    intro hnone _
    rw [splitNetloc_of_ne hone, hrest (List.map_eq_nil_iff.mp hnone)]
    apply splitScheme_path
    rw [hsplit]
    exact List.map_eq_nil_iff.mp hnone
  case no_scheme.inr =>
    intro _ _
    rw [splitNetloc_slashes]
    have hhead := @head?_path more
    cases hpath : (more.dropWhile fun c => !endsNetloc c).takeWhile fun c => !endsPath c with
    | nil => rfl
    | cons c path =>
        rw [hpath] at hhead
        rw [hhead c rfl, splitScheme_slash]

/-! ## Texts that differ at the end -/

theorem isSchemeChar_slash : isSchemeChar '/' = false ∧ '/' ≠ ':' := by decide

theorem splitScheme_rdropWhile (h : (splitScheme url).1 = []) :
    (splitScheme (url.rdropWhile (· = '/'))).1 = [] := by
  have hhead : ∀ y ∈ (url.rtakeWhile (· = '/')).head?, isSchemeChar y = false ∧ y ≠ ':' := by
    intro y hy
    have hslash := List.mem_rtakeWhile_imp (List.mem_of_mem_head? hy)
    rw [of_decide_eq_true hslash]
    exact isSchemeChar_slash
  have happend := @splitScheme_append (url.rdropWhile (· = '/')) _ hhead
  rw [List.rdropWhile_append_rtakeWhile] at happend
  rw [happend] at h
  exact h

/-- The query and the fragment are in no part. -/
theorem splitParts_append (h : ∀ y ∈ ys.head?, endsPath y) :
    splitParts (xs ++ ys) = splitParts xs := by
  have hstop : ∀ y ∈ ys.head?, (!endsPath y) = false := by
    intro y hy
    rw [h y hy]
    rfl
  have hscheme := @splitScheme_append xs ys fun y hy => isSchemeChar_of_endsPath (h y hy)
  rw [splitParts_def, splitParts_def, hscheme, splitNetloc_append h, (span_append hstop).1]

theorem mem_of_mem_splitNetloc {c : Char} (h : c ∈ (splitNetloc xs).2) : c ∈ xs := by
  rcases take_two_cases xs with hne | ⟨rest, rfl⟩
  · rwa [splitNetloc_of_ne hne] at h
  · rw [splitNetloc_slashes] at h
    simp [(List.dropWhile_sublist _).subset h]

theorem mem_of_mem_splitScheme {c : Char} (h : c ∈ (splitScheme xs).2) : c ∈ xs := by
  rcases splitScheme_cases xs with hnone | ⟨scheme, rest, -, hxs, hsplit⟩
  · rwa [hnone] at h
  · rw [hsplit] at h
    simp [hxs, h]

/-- More slashes at the end of the path are trailing slashes of the path. -/
theorem splitParts_append_slashes (h : ∀ c ∈ xs, endsPath c = false) (count : Nat) :
    (splitParts (xs ++ List.replicate count '/')).scheme = (splitParts xs).scheme ∧
      (splitParts (xs ++ List.replicate count '/')).netloc = (splitParts xs).netloc ∧
      (splitParts (xs ++ List.replicate count '/')).path.rdropWhile (· = '/') =
        (splitParts xs).path.rdropWhile (· = '/') := by
  have hhead : ∀ y ∈ (List.replicate count '/').head?, isSchemeChar y = false ∧ y ≠ ':' := by
    intro y hy
    rw [List.eq_of_mem_replicate (List.mem_of_mem_head? hy)]
    exact isSchemeChar_slash
  have hpath {zs : List Char} (hzs : ∀ c ∈ zs, endsPath c = false) :
      ((splitNetloc (splitScheme zs).2).2.takeWhile fun c => !endsPath c) =
        (splitNetloc (splitScheme zs).2).2 := by
    rw [List.takeWhile_eq_self_iff]
    intro c hc
    rw [hzs c (mem_of_mem_splitScheme (mem_of_mem_splitNetloc hc))]
    rfl
  have hboth : ∀ c ∈ xs ++ List.replicate count '/', endsPath c = false := by
    intro c hc
    rcases List.mem_append.mp hc with hxs | hslash
    · exact h c hxs
    · rw [List.eq_of_mem_replicate hslash]
      rfl
  obtain ⟨hnetloc, hslashes⟩ := splitNetloc_append_slashes (splitScheme xs).2 count
  have hscheme := @splitScheme_append xs _ hhead
  have hsecond := hpath hboth
  rw [hscheme] at hsecond
  rw [splitParts_def, splitParts_def, hscheme, hpath h, hsecond, hnetloc, hslashes]
  exact ⟨rfl, rfl, rfl⟩

theorem splitNetloc_withNetloc {netloc : List Char} (hnetloc : ∀ c ∈ netloc, endsNetloc c = false)
    (hnone : (splitNetloc url).1 = [] → netloc = []) :
    splitNetloc (withNetloc url netloc) = (netloc, (splitNetloc url).2) := by
  rw [withNetloc]
  rcases take_two_cases url with hne | ⟨rest, rfl⟩
  · rw [splitNetloc_of_ne hne] at hnone
    rw [if_neg hne, splitNetloc_of_ne hne, hnone rfl]
  · rw [if_pos (by rfl)]
    apply splitNetloc_netloc_path hnetloc
    rw [splitNetloc_slashes]
    intro c hc
    simpa using Lib.Trim.head?_dropWhile c hc

theorem splitScheme_withNetloc {netloc : List Char} (h : (splitScheme url).1 = []) :
    splitScheme (withNetloc url netloc) = ([], withNetloc url netloc) := by
  rw [withNetloc]
  split
  · exact splitScheme_slash _
  · exact splitScheme_of_fst h

theorem splitParts_withHead {netloc : List Char}
    (hscheme : scheme.map Char.toLower = (splitScheme url).1.map Char.toLower)
    (hnetloc : ∀ c ∈ netloc, endsNetloc c = false)
    (hnone : (splitParts url).netloc = [] → netloc = []) :
    splitParts (withHead url scheme netloc) = { splitParts url with netloc } := by
  rcases splitScheme_cases url with hplain | ⟨old, rest, hold, -, hsplit⟩
  · have hurl : withHead url scheme netloc = withNetloc url netloc := by
      rw [withHead, hplain]
      rfl
    rw [splitParts_eq hplain] at hnone ⊢
    rw [hurl, splitParts_eq (splitScheme_withNetloc (by rw [hplain])),
      splitNetloc_withNetloc hnetloc hnone]
  · have hurl : withHead url scheme netloc = scheme ++ ':' :: withNetloc rest netloc := by
      rw [withHead, hsplit]
      exact if_neg hold.ne_nil
    have hnew : IsScheme scheme := by
      rw [← isScheme_map_toLower, hscheme, isScheme_map_toLower, hsplit]
      exact hold
    rw [hsplit] at hscheme
    rw [splitParts_eq hsplit] at hnone ⊢
    rw [hurl, splitParts_eq (splitScheme_of_isScheme hnew),
      splitNetloc_withNetloc hnetloc hnone, hscheme]

theorem path_eq (h : ∀ c ∈ xs, endsPath c = false) :
    (splitParts xs).path = (splitNetloc (splitScheme xs).2).2 := by
  rw [splitParts_def, List.takeWhile_eq_self_iff]
  intro c hc
  rw [h c (mem_of_mem_splitScheme (mem_of_mem_splitNetloc hc))]
  rfl

/-- What is written in front of an authority or a path. -/
def InFront (front : List Char) : Prop :=
  ∀ c ∈ front, isSchemeChar c ∨ c = ':' ∨ c = '/'

/-- A url without a query ends in its authority and its path. -/
theorem exists_eq_append_path (h : ∀ c ∈ xs, endsPath c = false) :
    ∃ front, xs = front ++ ((splitParts xs).netloc ++ (splitParts xs).path) ∧ InFront front := by
  have hnetloc : ∃ front, (splitScheme xs).2 =
      front ++ ((splitParts xs).netloc ++ (splitParts xs).path) ∧ InFront front := by
    rw [path_eq h, splitParts_def]
    rcases take_two_cases (splitScheme xs).2 with hne | ⟨rest, hrest⟩
    · exact ⟨[], by rw [splitNetloc_of_ne hne]; rfl, by simp [InFront]⟩
    · refine ⟨['/', '/'], ?_, by simp [InFront]⟩
      rw [hrest, splitNetloc_slashes, List.takeWhile_append_dropWhile]
      rfl
  obtain ⟨front, hfront, hin⟩ := hnetloc
  rcases splitScheme_cases xs with hnone | ⟨scheme, rest, hscheme, hxs, hsplit⟩
  · rw [hnone] at hfront
    exact ⟨front, hfront, hin⟩
  · rw [hsplit] at hfront
    refine ⟨scheme ++ ':' :: front, ?_, ?_⟩
    · rw [List.append_assoc, List.cons_append, ← hfront]
      exact hxs
    · intro c hc
      rw [List.mem_append, List.mem_cons] at hc
      rcases hc with hmem | hcolon | hmem
      · exact .inl (List.all_eq_true.mp hscheme.2 c hmem)
      · exact .inr (.inl hcolon)
      · exact hin c hmem

/-- More text that no authority and no scheme is ended by belongs to the path, or else to the
authority. -/
theorem splitParts_append_text (hxs : ∀ c ∈ xs, endsPath c = false)
    (hys : ∀ c ∈ ys, endsNetloc c = false ∧ isSchemeChar c = false ∧ c ≠ ':') :
    (splitParts (xs ++ ys)).path = (splitParts xs).path ++ ys ∨
      (splitParts xs).path = [] ∧
        (splitParts (xs ++ ys)).netloc = (splitParts xs).netloc ++ ys := by
  have hscheme := @splitScheme_append xs ys fun y hy => (hys y (List.mem_of_mem_head? hy)).2
  have hboth : ∀ c ∈ xs ++ ys, endsPath c = false := by
    intro c hc
    rcases List.mem_append.mp hc with hmem | hmem
    · exact hxs c hmem
    · exact (Bool.or_eq_false_iff.mp (hys c hmem).1).2
  rw [path_eq hboth, path_eq hxs, splitParts_def, splitParts_def, hscheme]
  rcases take_two_cases (splitScheme xs).2 with hne | ⟨rest, hrest⟩
  · have hslash : '/' ∉ ys.head? := by
      intro hmem
      have hends := (hys '/' (List.mem_of_mem_head? hmem)).1
      revert hends
      decide
    rw [splitNetloc_of_ne hne, splitNetloc_of_ne (mt (take_two_append hslash).mp hne)]
    exact .inl rfl
  · rw [hrest, List.cons_append, List.cons_append, splitNetloc_slashes, splitNetloc_slashes]
    by_cases hends : ∃ c ∈ rest, endsNetloc c
    · left
      have hdrop : (rest.dropWhile fun c => !endsNetloc c) ≠ [] := by
        obtain ⟨c, hmem, hc⟩ := hends
        intro hnil
        have hnot := List.dropWhile_eq_nil_iff.mp hnil c hmem
        rw [hc] at hnot
        cases hnot
      show (rest ++ ys).dropWhile _ = rest.dropWhile _ ++ ys
      rw [List.dropWhile_append, if_neg (by simpa using hdrop)]
    · right
      have hrest : ∀ c ∈ rest, (!endsNetloc c) = true := by simpa using hends
      have hall : ∀ c ∈ rest ++ ys, (!endsNetloc c) = true := by
        intro c hc
        rcases List.mem_append.mp hc with hmem | hmem
        · exact hrest c hmem
        · rw [(hys c hmem).1]
          rfl
      exact ⟨List.dropWhile_eq_nil_iff.mpr hrest, by
        rw [List.takeWhile_eq_self_iff.mpr hall, List.takeWhile_eq_self_iff.mpr hrest]⟩

/-- What `urlunsplit` puts in front of the authority and the path. -/
theorem unsplitParts_eq_append {parts : UrlParts} (h : parts.WellFormed) :
    ∃ front, unsplitParts parts = front ++ (parts.netloc ++ parts.path) ∧
      InFront front ∧
      (front = [] → parts.scheme = [] ∧ parts.netloc = []) := by
  obtain ⟨slashes, hslashes, hurl, hnone⟩ : ∃ slashes : List Char, (∀ c ∈ slashes, c = '/') ∧
      unsplitNetloc parts.scheme parts.netloc parts.path =
        slashes ++ (parts.netloc ++ parts.path) ∧ (slashes = [] → parts.netloc = []) := by
    by_cases hnetloc : parts.netloc ≠ []
    · exact ⟨['/', '/'], by simp, h.unsplitNetloc_of_ne hnetloc, by simp⟩
    · rw [unsplitNetloc, if_neg hnetloc, not_not.mp hnetloc]
      split
      · exact ⟨['/', '/'], by simp, rfl, by simp⟩
      · split
        · exact ⟨['/', '/'], by simp, rfl, by simp⟩
        · exact ⟨[], by simp, rfl, by simp⟩
  rw [unsplitParts, hurl]
  split
  · next hscheme =>
    refine ⟨parts.scheme ++ ':' :: slashes, by simp, ?_, by simp⟩
    intro c hc
    rw [List.mem_append, List.mem_cons] at hc
    rcases hc with hmem | hcolon | hmem
    · exact .inl (List.all_eq_true.mp (h.scheme hscheme).2 c hmem)
    · exact .inr (.inl hcolon)
    · exact .inr (.inr (hslashes c hmem))
  · next hscheme =>
    exact ⟨slashes, rfl, fun c hc => .inr (.inr (hslashes c hc)),
      fun hempty => ⟨not_not.mp hscheme, hnone hempty⟩⟩

theorem toNat_of_isSchemeChar {c : Char} (h : isSchemeChar c) :
    43 ≤ c.toNat ∧ c.toNat ≤ 122 ∧ c.toNat ≠ 63 := by
  have htoNat : c.toNat = c.val.toNat := rfl
  simp only [isSchemeChar, Char.isAlphanum, Char.isAlpha, Char.isUpper, Char.isLower, Char.isDigit,
    Bool.or_eq_true, Bool.and_eq_true, decide_eq_true_eq, ge_iff_le, UInt32.le_iff_toNat_le] at h
  rcases h with ((hletter | rfl) | rfl) | rfl
  · simp at hletter
    omega
  · decide
  · decide
  · decide

theorem InFront.of_mem {front : List Char} (h : InFront front) {c : Char} (hc : c ∈ front) :
    isSpace c = false ∧ isControlOrSpace c = false ∧ endsPath c = false := by
  have hbounds : 43 ≤ c.toNat ∧ c.toNat ≤ 122 ∧ c.toNat ≠ 63 := by
    rcases h c hc with hscheme | rfl | rfl
    · exact toNat_of_isSchemeChar hscheme
    · decide
    · decide
  have hends : endsPath c = false := by
    rw [endsPath, Bool.or_eq_false_iff, decide_eq_false_iff_not, decide_eq_false_iff_not]
    constructor
    · rintro rfl
      exact hbounds.2.2 rfl
    · rintro rfl
      exact absurd hbounds.1 (by decide)
  refine ⟨?_, ?_, hends⟩
  · simp only [isSpace, Bool.or_eq_false_iff, Bool.and_eq_false_iff, decide_eq_false_iff_not]
    omega
  · simp only [isControlOrSpace, decide_eq_false_iff_not]
    omega

theorem mem_netloc {c : Char} (h : c ∈ (splitParts url).netloc) : c ∈ url := by
  apply mem_of_mem_splitScheme
  rw [splitParts_def] at h
  rcases take_two_cases (splitScheme url).2 with hne | ⟨rest, hrest⟩
  · rw [splitNetloc_of_ne hne] at h
    cases h
  · rw [hrest, splitNetloc_slashes] at h
    simp [hrest, (List.takeWhile_sublist _).subset h]

theorem mem_path {c : Char} (h : c ∈ (splitParts url).path) : c ∈ url :=
  mem_of_mem_splitScheme (mem_of_mem_splitNetloc ((List.takeWhile_sublist _).subset h))

/-- Without a scheme, a path that is not behind two slashes begins where the url does. -/
theorem head?_path_of_scheme (h : (splitParts url).scheme = []) :
    ∀ c ∈ (splitParts url).path.head?, c = '/' ∨ c ∈ url.head? := by
  have hplain : splitScheme url = ([], url) := splitScheme_of_fst (List.map_eq_nil_iff.mp h)
  rw [splitParts_eq hplain]
  intro c hc
  rcases take_two_cases url with hne | ⟨rest, rfl⟩
  · rw [splitNetloc_of_ne hne] at hc
    right
    cases url with
    | nil => exact hc
    | cons d url =>
        rw [List.takeWhile_cons] at hc
        split at hc
        · exact hc
        · cases hc
  · rw [splitNetloc_slashes] at hc
    exact .inl (head?_path c hc)

theorem isSchemeChar_of_isSpace {c : Char} (h : isSpace c) : isSchemeChar c = false := by
  by_contra hscheme
  have hin : InFront [c] := by
    intro d hd
    rw [List.mem_singleton.mp hd]
    exact .inl (by simpa using hscheme)
  rw [(hin.of_mem (List.mem_singleton.mpr rfl)).1] at h
  cases h

/-- A url that begins with white space is a path. -/
theorem splitParts_of_space {c : Char} (hc : isSpace c) :
    splitParts (c :: rest) = ⟨[], [], (c :: rest).takeWhile fun c => !endsPath c⟩ := by
  have hplain : splitScheme (c :: rest) = ([], c :: rest) := by
    rcases splitScheme_cases (c :: rest) with hnone | ⟨scheme, more, hscheme, hurl, -⟩
    · exact hnone
    · cases scheme with
      | nil => exact absurd rfl hscheme.ne_nil
      | cons d scheme =>
          have hd := List.all_eq_true.mp hscheme.2 d List.mem_cons_self
          rw [← (List.cons.inj hurl).1, isSchemeChar_of_isSpace hc] at hd
          cases hd
  have hne : (c :: rest).take 2 ≠ ['/', '/'] := by
    intro heq
    rw [(List.cons.inj heq).1] at hc
    revert hc
    decide
  rw [splitParts_eq hplain, splitNetloc_of_ne hne]
  rfl

theorem unsplitParts_path {path : List Char} (h : path.head? ≠ some '/') :
    unsplitParts ⟨[], [], path⟩ = path := by
  have htwo : path.take 2 ≠ ['/', '/'] := by
    intro heq
    obtain ⟨rest, hrest⟩ := (take_two_cases path).resolve_left (not_not.mpr heq)
    exact h (by rw [hrest]; rfl)
  have hnone : String.ofList [] ∉ usesNetloc := by decide
  rw [unsplitParts, unsplitNetloc, if_neg (by simp), if_neg (by simp), if_neg htwo,
    if_neg fun huses => hnone huses.1]

end RecruFlow.Python
