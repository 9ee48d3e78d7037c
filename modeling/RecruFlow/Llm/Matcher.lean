import RecruFlow.Lib.Phrases
import RecruFlow.Python.Text
import RecruFlow.Schemas.Offer
import RecruFlow.Schemas.Profile
import Mathlib.Data.PNat.Defs
import Mathlib.Data.Rat.Floor
import Mathlib.Order.Interval.Set.Defs

/-!
# The matcher

The language model rates six dimensions of an offer. Its ratings are clamped and
weighted in exact rational arithmetic, and the total is capped where a deal-breaker
occurs in the offer or where none of the hard skills does; the caps depend on the
texts of the profile and of the offer only.
-/

namespace RecruFlow.Llm

open Schemas Lib.Phrases

/-- What the standard library knows of characters. -/
structure Unicode where
  /-- `str.lower` -/
  lower : String → String
  /-- `str.isalnum` of one character -/
  isAlnum : Char → Bool

variable (unicode : Unicode)

/-! ## Phrases -/

/-- `[\s\-_/]` -/
def isSeparator (c : Char) : Bool :=
  Python.isSpace c || c = '-' || c = '_' || c = '/'

/-- `\w` -/
def isWord (c : Char) : Bool :=
  unicode.isAlnum c || c = '_'

/-- `_tokenize`; the empty texts between separators are left out. -/
def tokenize (text : String) : List (List Char) :=
  words isSeparator (unicode.lower (Python.strip text)).toList

def offerHaystack (offer : Offer) : String :=
  let parts := [some offer.title, offer.description, some offer.company, offer.contractType,
    offer.location]
  unicode.lower (" ".intercalate (parts.reduceOption.filter (· ≠ "")))

/-- One turn of the loops over phrases; one without a token is skipped. -/
def phraseFound (haystack phrase : String) : Bool :=
  let tokens := tokenize unicode phrase
  !tokens.isEmpty && (Lib.Phrases.phrase isSeparator (isWord unicode) tokens).search haystack.toList

def dealBreakerHit (profile : Profile) (offer : Offer) : Option String :=
  profile.dealBreakers.find? (phraseFound unicode (offerHaystack unicode offer))

def missingHardSkills (profile : Profile) (offer : Offer) : Bool :=
  let hardSkills := hardSkillNames profile
  !hardSkills.isEmpty && !hardSkills.any (phraseFound unicode (offerHaystack unicode offer))

/-! ## Ratings -/

inductive Dimension where
  | skillMatch
  | salaryFit
  | seniorityFit
  | workModeLocation
  | contractType
  | redFlags
  deriving DecidableEq

/-- `DIMENSION_WEIGHTS` -/
def dimensionWeights : List (Dimension × ℚ) :=
  [(.skillMatch, 30 / 100), (.salaryFit, 25 / 100), (.seniorityFit, 15 / 100),
    (.workModeLocation, 15 / 100), (.contractType, 10 / 100), (.redFlags, 5 / 100)]

/-- A rating, in the unit interval. -/
abbrev Rating := Set.Icc (0 : ℚ) 1

/-- `_MatcherOutput` -/
structure MatcherOutput where
  skillMatch : Rating
  salaryFit : Rating
  seniorityFit : Rating
  workModeLocation : Rating
  contractType : Rating
  redFlags : Rating
  rationale : String

/-- `getattr(output, dim)` -/
def MatcherOutput.get (output : MatcherOutput) : Dimension → Rating
  | .skillMatch => output.skillMatch
  | .salaryFit => output.salaryFit
  | .seniorityFit => output.seniorityFit
  | .workModeLocation => output.workModeLocation
  | .contractType => output.contractType
  | .redFlags => output.redFlags

/-- `float(value)`, without its rounding; `parse` reads the text of a number. -/
def toFloat (parse : String → Option PyFloat) : PyValue → Except PyError PyFloat
  | .bool b => .ok (.finite (if b then 1 else 0))
  -- from here on the nearest double would be infinite
  | .int i => if i.natAbs < 2 ^ 1024 - 2 ^ 970 then .ok (.finite i) else .error .overflowError
  | .float x => .ok x
  | .str s => match parse s with
      | some x => .ok x
      | none => .error .valueError
  | _ => .error .typeError

/-- `max(0.0, min(1.0, x))`; no comparison with a NaN holds, so that `min` keeps its
first argument. -/
def clamp : PyFloat → Rating
  | .finite q => ⟨max 0 (min 1 q), le_max_left 0 _, max_le zero_le_one (min_le_left 1 q)⟩
  | .infinity | .nan => ⟨1, zero_le_one, le_refl 1⟩
  | .negInfinity => ⟨0, le_refl 0, zero_le_one⟩

/-- `_MatcherOutput.model_validate(raw)`; `none` is any exception. -/
def MatcherOutput.modelValidate (pydantic : Pydantic) (parse : String → Option PyFloat)
    (raw : Dict) : Option MatcherOutput := do
  let rating (name : String) : Option Rating := do
    let x ← (toFloat parse (← raw.get name)).toOption
    pure (clamp x)
  pure
    { skillMatch := ← rating "skill_match"
      salaryFit := ← rating "salary_fit"
      seniorityFit := ← rating "seniority_fit"
      workModeLocation := ← rating "work_mode_location"
      contractType := ← rating "contract_type"
      redFlags := ← rating "red_flags"
      rationale := ← raw.get "rationale" >>= pydantic.str }

def weightedTotal (output : MatcherOutput) : ℚ :=
  (dimensionWeights.map fun (dim, weight) => (output.get dim : ℚ) * weight).sum

/-- `_CONSERVATIVE_SALARY_SCORE_CAP` -/
def conservativeSalaryScoreCap : ℚ :=
  1 / 2

/-- `min(rating, _CONSERVATIVE_SALARY_SCORE_CAP)` -/
def conservative (rating : Rating) : Rating :=
  ⟨min rating.1 conservativeSalaryScoreCap, le_min rating.2.1 (by decide +kernel),
    le_trans (min_le_left _ _) rating.2.2⟩

/-- `part in text` -/
def contains (part text : String) : Bool :=
  (Lib.Regex.literal part.toList).search text.toList

def applyMissingSalaryConservatism (output : MatcherOutput) (profile : Profile) : MatcherOutput :=
  if profile.salaryMin = none ∧ profile.salaryTarget = none then
    let output := { output with salaryFit := conservative output.salaryFit }
    if contains "salary" (unicode.lower output.rationale) then output
    else
      { output with
        rationale := output.rationale ++ " No salary preference was provided in the profile, so " ++
          "salary fit was scored conservatively." }
  else output

/-! ## Scores -/

/-- `round(q)`: the nearest integer, and the even one of two. -/
def roundHalfEven (q : ℚ) : Int :=
  let rest := q - ⌊q⌋
  if 1 / 2 < rest ∨ (rest = 1 / 2 ∧ ⌊q⌋ % 2 = 1) then ⌊q⌋ + 1 else ⌊q⌋

/-- A cap on the score. -/
inductive Cap where
  | dealBreaker
  | missingHardSkill
  deriving DecidableEq

/-- `_DEAL_BREAKER_SCORE_CAP` and `_HARD_SKILL_MISS_CAP` -/
def Cap.value : Cap → Int
  | .dealBreaker => 40
  | .missingHardSkill => 25

/-- The local variables of `_score_offer`, with the caps that have been applied. -/
structure Scoring where
  scorePercent : Int
  rationale : String
  caps : List Cap := []

/-- `_cap_score_for_deal_breaker` and `_cap_score_for_missing_hard_skill`, with what
they add to the rationale. -/
def Scoring.apply (scoring : Scoring) (cap : Cap) (reason : String) : Scoring where
  scorePercent := min scoring.scorePercent cap.value
  rationale := scoring.rationale ++ reason
  caps := scoring.caps ++ [cap]

def capDealBreaker (profile : Profile) (offer : Offer) (scoring : Scoring) : Scoring :=
  match dealBreakerHit unicode profile offer with
  | none => scoring
  | some dealBreaker => scoring.apply .dealBreaker
      (" Deal-breaker matched: '" ++ dealBreaker ++ "'; score capped at 40.")

def capMissingHardSkills (profile : Profile) (offer : Offer) (scoring : Scoring) : Scoring :=
  if missingHardSkills unicode profile offer then
    scoring.apply .missingHardSkill (" None of the required hard skills (" ++
      ", ".intercalate (hardSkillNames profile) ++
      ") were found in this offer; score capped at 25.")
  else scoring

/-- A score that the schema accepts. -/
structure MatchScore where
  offerId : ℕ+
  profileId : ℕ+
  scorePercent : Int
  dimensions : List (Dimension × ℚ)
  rationale : String
  /-- Named in the rationale. -/
  caps : List Cap
  scorePercent_le : 0 ≤ scorePercent ∧ scorePercent ≤ 100

/-- The exceptions of `_score_offer`. -/
inductive ScoringError where
  | matcherError (message : String)
  | validationError
  deriving DecidableEq

/-- `_score_offer`; a failed call of the language model comes with its description. -/
def scoreOffer (answer : Except String MatcherOutput) (offerId profileId : ℕ+) (profile : Profile)
    (offer : Offer) : Except ScoringError MatchScore :=
  match answer with
  | .error description => .error (.matcherError ("LangChain matcher failed: " ++ description))
  | .ok output =>
      let output := applyMissingSalaryConservatism unicode output profile
      let scoring : Scoring :=
        { scorePercent := roundHalfEven (weightedTotal output * 100)
          rationale := output.rationale }
      let scoring := capMissingHardSkills unicode profile offer
        (capDealBreaker unicode profile offer scoring)
      if scorePercent_le : 0 ≤ scoring.scorePercent ∧ scoring.scorePercent ≤ 100 then
        .ok
          { offerId
            profileId
            scorePercent := scoring.scorePercent
            dimensions := dimensionWeights.map fun (dim, _) => (dim, output.get dim)
            rationale := scoring.rationale
            caps := scoring.caps
            scorePercent_le }
      else .error .validationError

end RecruFlow.Llm
