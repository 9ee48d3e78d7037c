import RecruFlow.Python.Text
import RecruFlow.Schemas.Offer

/-!
# The identity of an offer

Lower case, url parsing and SHA-256 come from the standard library and are
parameters.
-/

namespace RecruFlow.Ingestion

open Schemas

/-- `urlsplit(url)`, without the query and the fragment that nothing keeps. -/
structure SplitUrl where
  scheme : String
  netloc : String
  path : String
  deriving DecidableEq

structure TextTools where
  lower : String → String
  /-- A `ValueError` is possible, for example for an unbalanced bracket. -/
  urlsplit : String → Except PyError SplitUrl
  /-- `urlunsplit` with empty query and fragment. -/
  urlunsplit : SplitUrl → String
  /-- `hashlib.sha256(text.encode("utf-8")).hexdigest()` -/
  sha256 : String → String
  /-- What an f-string makes of a value. -/
  str : PyValue → String
  /-- The same with the conversion `!r`. -/
  repr : String → String

variable (text : TextTools)

/-- `path.rstrip("/")` -/
def rstripSlash (path : String) : String :=
  String.ofList (path.toList.reverse.dropWhile (· = '/')).reverse

def normalizeCanonicalUrl (url : String) : Except PyError String := do
  let parsed ← text.urlsplit (Python.strip url)
  pure (text.urlunsplit
    ⟨text.lower parsed.scheme, text.lower parsed.netloc, rstripSlash parsed.path⟩)

def isComparable (normalizedUrl : String) : Except PyError Bool := do
  let parsed ← text.urlsplit normalizedUrl
  pure (parsed.path ≠ "")

/-- The hash of an offer whose url names no page. -/
def fallbackHash (offer : Offer) : String :=
  let part (s : String) : String := text.lower (Python.strip s)
  text.sha256
    ("|".intercalate [part offer.title, part offer.company, part (offer.location.getD "")])

/-- An offer that pydantic has accepted has no empty url. -/
def computeDedupHash (offer : Offer) : Except PyError String :=
  match offer.canonicalUrl with
  | none => pure (fallbackHash text offer)
  | some url => do
      let normalized ← normalizeCanonicalUrl text url
      if ← isComparable text normalized then pure (text.sha256 normalized)
      else pure (fallbackHash text offer)

end RecruFlow.Ingestion
