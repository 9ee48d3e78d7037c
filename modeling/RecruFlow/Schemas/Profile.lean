import RecruFlow.Python.Value

/-!
# The profile schema

What pydantic accepts as a `Profile`: texts are stripped, and the checks of the
fields and of the model hold. `model_dump` keeps every field, so the stored JSON
of two profiles is the same exactly when the profiles are.
-/

namespace RecruFlow.Schemas

structure Skill where
  name : String
  category : Option String
  hard : Bool
  name_ne : name ≠ ""
  deriving DecidableEq

structure PastRole where
  title : String
  company : String
  startDate : Option String
  endDate : Option String
  description : Option String
  title_ne : title ≠ ""
  company_ne : company ≠ ""
  deriving DecidableEq

structure Project where
  name : String
  description : Option String
  techStack : List String
  client : Option String
  teamSize : Option Nat
  name_ne : name ≠ ""
  deriving DecidableEq

structure Education where
  institution : String
  degree : Option String
  fieldOfStudy : Option String
  startDate : Option String
  endDate : Option String
  institution_ne : institution ≠ ""
  deriving DecidableEq

structure Certification where
  name : String
  issuer : Option String
  year : Option Int
  name_ne : name ≠ ""
  deriving DecidableEq

structure Language where
  name : String
  name_ne : name ≠ ""
  deriving DecidableEq

structure Profile where
  skills : List Skill := []
  pastRoles : List PastRole := []
  education : List Education := []
  certifications : List Certification := []
  languages : List Language := []
  projects : List Project := []
  industryTags : List String := []
  headline : Option String := none
  summary : Option String := none
  email : Option String := none
  phone : Option String := none
  location : Option String := none
  links : List String := []
  contractTypePreference : Option String := none
  salaryMin : Option Nat := none
  salaryTarget : Option Nat := none
  locationPreference : Option String := none
  remotePreference : Option Bool := none
  dealBreakers : List String := []
  salaryTarget_not_below_min : ∀ low ∈ salaryMin, ∀ target ∈ salaryTarget, low ≤ target := by
    simp
  deriving DecidableEq

/-- `Profile()` -/
def Profile.empty : Profile := {}

def hardSkillNames (profile : Profile) : List String :=
  (profile.skills.filter (·.hard)).map (·.name)

end RecruFlow.Schemas
