import RecruFlow.Lib.Trim
import RecruFlow.Schemas.Offer
import RecruFlow.Schemas.Profile

/-!
# Validating and dumping a profile

`Profile.model_validate` goes through the lists of nested models, each of which is
validated in its own fields; `model_dump(mode="json")` gives every field back.
-/

namespace RecruFlow.Schemas

/-- Unicode's `White_Space`. -/
def isWhiteSpace (c : Char) : Bool :=
  (9 ≤ c.toNat && c.toNat ≤ 13) || c.toNat = 0x20 || c.toNat = 0x85 || c.toNat = 0xa0 ||
    c.toNat = 0x1680 || (0x2000 ≤ c.toNat && c.toNat ≤ 0x200a) || c.toNat = 0x2028 ||
    c.toNat = 0x2029 || c.toNat = 0x202f || c.toNat = 0x205f || c.toNat = 0x3000

/-- A mode that takes the values of a field's own type only. -/
def Pydantic.exact : Pydantic where
  int
    | .int i => some i
    | _ => none
  bool
    | .bool b => some b
    | _ => none
  datetime
    | .datetime d => some d
    | _ => none
  trim s := String.ofList (Lib.Trim.trim isWhiteSpace s.toList)

namespace Pydantic

variable (pydantic : Pydantic)

/-- `str | None = None` -/
def optionalStr (raw : Dict) (name : String) : Option (Option String) :=
  field raw name none (orNone pydantic.str)

/-- `list[str] = Field(default_factory=list)` -/
def strs (raw : Dict) (name : String) : Option (List String) :=
  field raw name [] pydantic.strList

/-- `int | None = Field(default=None, ge=0)` -/
def optionalNonneg (raw : Dict) (name : String) : Option (Option Nat) :=
  field raw name none (orNone pydantic.nonneg)

/-- A list of models; a `dict` is validated as one. -/
def modelList {α : Type} (modelValidate : Dict → Option α) : PyValue → Option (List α)
  | .list xs => xs.mapM fun
      | .dict items => modelValidate ⟨items⟩
      | _ => none
  | _ => none

/-- `list[Model] = Field(default_factory=list)` -/
def models {α : Type} (modelValidate : Dict → Option α) (raw : Dict) (name : String) :
    Option (List α) :=
  field raw name [] (modelList modelValidate)

end Pydantic

variable (pydantic : Pydantic)

def Skill.modelValidate (raw : Dict) : Option Skill := do
  let name ← raw.get "name" >>= pydantic.str
  let category ← pydantic.optionalStr raw "category"
  let hard ← Pydantic.field raw "hard" false pydantic.bool
  if name_ne : name ≠ "" then some { name, category, hard, name_ne } else none

def PastRole.modelValidate (raw : Dict) : Option PastRole := do
  let title ← raw.get "title" >>= pydantic.str
  let company ← raw.get "company" >>= pydantic.str
  let startDate ← pydantic.optionalStr raw "start_date"
  let endDate ← pydantic.optionalStr raw "end_date"
  let description ← pydantic.optionalStr raw "description"
  if h : title ≠ "" ∧ company ≠ "" then
    some { title, company, startDate, endDate, description, title_ne := h.1, company_ne := h.2 }
  else none

def Project.modelValidate (raw : Dict) : Option Project := do
  let name ← raw.get "name" >>= pydantic.str
  let description ← pydantic.optionalStr raw "description"
  let techStack ← pydantic.strs raw "tech_stack"
  let client ← pydantic.optionalStr raw "client"
  let teamSize ← pydantic.optionalNonneg raw "team_size"
  if name_ne : name ≠ "" then some { name, description, techStack, client, teamSize, name_ne }
  else none

def Education.modelValidate (raw : Dict) : Option Education := do
  let institution ← raw.get "institution" >>= pydantic.str
  let degree ← pydantic.optionalStr raw "degree"
  let fieldOfStudy ← pydantic.optionalStr raw "field_of_study"
  let startDate ← pydantic.optionalStr raw "start_date"
  let endDate ← pydantic.optionalStr raw "end_date"
  if institution_ne : institution ≠ "" then
    some { institution, degree, fieldOfStudy, startDate, endDate, institution_ne }
  else none

def Certification.modelValidate (raw : Dict) : Option Certification := do
  let name ← raw.get "name" >>= pydantic.str
  let issuer ← pydantic.optionalStr raw "issuer"
  let year ← Pydantic.field raw "year" none (Pydantic.orNone pydantic.int)
  if name_ne : name ≠ "" then some { name, issuer, year, name_ne } else none

def Language.modelValidate (raw : Dict) : Option Language := do
  let name ← raw.get "name" >>= pydantic.str
  if name_ne : name ≠ "" then some { name, name_ne } else none

/-- `_check_salary_target_not_below_min` -/
def salaryTargetNotBelowMin (salaryMin salaryTarget : Option Nat) : Prop :=
  ∀ low ∈ salaryMin, ∀ target ∈ salaryTarget, low ≤ target

instance (salaryMin salaryTarget : Option Nat) :
    Decidable (salaryTargetNotBelowMin salaryMin salaryTarget) :=
  inferInstanceAs (Decidable (∀ low ∈ salaryMin, ∀ target ∈ salaryTarget, low ≤ target))

/-- `Profile(**raw)`; `none` is a `ValidationError`. -/
def Profile.modelValidate (raw : Dict) : Option Profile := do
  let skills ← Pydantic.models (Skill.modelValidate pydantic) raw "skills"
  let pastRoles ← Pydantic.models (PastRole.modelValidate pydantic) raw "past_roles"
  let education ← Pydantic.models (Education.modelValidate pydantic) raw "education"
  let certifications ← Pydantic.models (Certification.modelValidate pydantic) raw "certifications"
  let languages ← Pydantic.models (Language.modelValidate pydantic) raw "languages"
  let projects ← Pydantic.models (Project.modelValidate pydantic) raw "projects"
  let industryTags ← pydantic.strs raw "industry_tags"
  let headline ← pydantic.optionalStr raw "headline"
  let summary ← pydantic.optionalStr raw "summary"
  let email ← pydantic.optionalStr raw "email"
  let phone ← pydantic.optionalStr raw "phone"
  let location ← pydantic.optionalStr raw "location"
  let links ← pydantic.strs raw "links"
  let contractTypePreference ← pydantic.optionalStr raw "contract_type_preference"
  let salaryMin ← pydantic.optionalNonneg raw "salary_min"
  let salaryTarget ← pydantic.optionalNonneg raw "salary_target"
  let locationPreference ← pydantic.optionalStr raw "location_preference"
  let remotePreference ←
    Pydantic.field raw "remote_preference" none (Pydantic.orNone pydantic.bool)
  let dealBreakers ← pydantic.strs raw "deal_breakers"
  if h : salaryTargetNotBelowMin salaryMin salaryTarget then
    some
      { skills, pastRoles, education, certifications, languages, projects, industryTags, headline,
        summary, email, phone, location, links, contractTypePreference, salaryMin, salaryTarget,
        locationPreference, remotePreference, dealBreakers
        salaryTarget_not_below_min := h }
  else none

/-! ## Dumping -/

def dumpStr (s : Option String) : PyValue :=
  (s.map PyValue.str).getD .none

def dumpStrs (xs : List String) : PyValue :=
  .list (xs.map .str)

def dumpInt (i : Option Int) : PyValue :=
  (i.map PyValue.int).getD .none

def dumpModels {α : Type} (modelDump : α → Dict) (xs : List α) : PyValue :=
  .list (xs.map fun x => .dict (modelDump x).items)

def Skill.modelDump (skill : Skill) : Dict :=
  ⟨[("name", .str skill.name), ("category", dumpStr skill.category), ("hard", .bool skill.hard)]⟩

def PastRole.modelDump (role : PastRole) : Dict :=
  ⟨[("title", .str role.title), ("company", .str role.company),
    ("start_date", dumpStr role.startDate), ("end_date", dumpStr role.endDate),
    ("description", dumpStr role.description)]⟩

def Project.modelDump (project : Project) : Dict :=
  ⟨[("name", .str project.name), ("description", dumpStr project.description),
    ("tech_stack", dumpStrs project.techStack), ("client", dumpStr project.client),
    ("team_size", dumpInt (project.teamSize.map Int.ofNat))]⟩

def Education.modelDump (entry : Education) : Dict :=
  ⟨[("institution", .str entry.institution), ("degree", dumpStr entry.degree),
    ("field_of_study", dumpStr entry.fieldOfStudy), ("start_date", dumpStr entry.startDate),
    ("end_date", dumpStr entry.endDate)]⟩

def Certification.modelDump (entry : Certification) : Dict :=
  ⟨[("name", .str entry.name), ("issuer", dumpStr entry.issuer), ("year", dumpInt entry.year)]⟩

def Language.modelDump (entry : Language) : Dict :=
  ⟨[("name", .str entry.name)]⟩

/-- `profile.model_dump(mode="json")` -/
def Profile.modelDump (profile : Profile) : Dict :=
  ⟨[("skills", dumpModels Skill.modelDump profile.skills),
    ("past_roles", dumpModels PastRole.modelDump profile.pastRoles),
    ("education", dumpModels Education.modelDump profile.education),
    ("certifications", dumpModels Certification.modelDump profile.certifications),
    ("languages", dumpModels Language.modelDump profile.languages),
    ("projects", dumpModels Project.modelDump profile.projects),
    ("industry_tags", dumpStrs profile.industryTags), ("headline", dumpStr profile.headline),
    ("summary", dumpStr profile.summary), ("email", dumpStr profile.email),
    ("phone", dumpStr profile.phone), ("location", dumpStr profile.location),
    ("links", dumpStrs profile.links),
    ("contract_type_preference", dumpStr profile.contractTypePreference),
    ("salary_min", dumpInt (profile.salaryMin.map Int.ofNat)),
    ("salary_target", dumpInt (profile.salaryTarget.map Int.ofNat)),
    ("location_preference", dumpStr profile.locationPreference),
    ("remote_preference", (profile.remotePreference.map PyValue.bool).getD .none),
    ("deal_breakers", dumpStrs profile.dealBreakers)]⟩

variable {pydantic} {raw : Dict} {name : String}

/-! ## Fields that are given with a value of their type -/

namespace Pydantic

theorem required_of_get {s : String} (h : raw.get name = some (.str s)) :
    (raw.get name >>= pydantic.str) = some (pydantic.trim s) := by
  rw [h]
  rfl

theorem optionalStr_of_get {s : Option String} (h : raw.get name = s.map .str) :
    pydantic.optionalStr raw name = some (s.map pydantic.trim) := by
  rw [optionalStr, field, h]
  cases s <;> rfl

theorem strList_map_str (xs : List String) :
    pydantic.strList (.list (xs.map .str)) = some (xs.map pydantic.trim) := by
  show (xs.map PyValue.str).mapM pydantic.str = _
  induction xs with
  | nil => rfl
  | cons x xs ih =>
      rw [List.map_cons, List.mapM_cons, ih]
      rfl

theorem strs_of_get {xs : Option (List String)}
    (h : raw.get name = xs.map fun xs => .list (xs.map .str)) :
    pydantic.strs raw name = some ((xs.getD []).map pydantic.trim) := by
  rw [strs, field, h]
  cases xs with
  | none => rfl
  | some xs => exact strList_map_str xs

theorem modelList_map_dict {α β : Type} {modelValidate : Dict → Option α} {toDict : β → Dict}
    (xs : List β) :
    modelList modelValidate (.list (xs.map fun x => .dict (toDict x).items)) =
      xs.mapM fun x => modelValidate (toDict x) := by
  rw [modelList]
  induction xs with
  | nil => rfl
  | cons x xs ih =>
      rw [List.map_cons, List.mapM_cons, List.mapM_cons, ih]

theorem models_of_get {α β : Type} {modelValidate : Dict → Option α} {toDict : β → Dict}
    {xs : Option (List β)}
    (h : raw.get name = xs.map fun xs => .list (xs.map fun x => .dict (toDict x).items)) :
    models modelValidate raw name = (xs.getD []).mapM fun x => modelValidate (toDict x) := by
  rw [models, field, h]
  cases xs with
  | none => rfl
  | some xs => exact modelList_map_dict xs

end Pydantic

/-! ## Acceptance -/

theorem isSome_bind_iff {α β : Type} {x : Option α} {f : α → Option β} {P : Prop}
    (h : ∀ a, x = some a → ((f a).isSome ↔ P)) : (x >>= f).isSome ↔ x.isSome ∧ P := by
  cases x with
  | none => simp
  | some a => simpa using h a rfl

theorem isSome_mapM_iff {α β : Type} {f : α → Option β} {xs : List α} :
    (xs.mapM f).isSome ↔ ∀ x ∈ xs, (f x).isSome := by
  induction xs with
  | nil => simp
  | cons x xs ih =>
      rw [List.mapM_cons, List.forall_mem_cons, ← ih]
      apply isSome_bind_iff
      intro y _
      cases xs.mapM f <;> simp

/-- A profile is accepted when each of its fields is and the salaries are in order. -/
theorem Profile.isSome_modelValidate_iff :
    (Profile.modelValidate pydantic raw).isSome ↔
      (Pydantic.models (Skill.modelValidate pydantic) raw "skills").isSome ∧
      (Pydantic.models (PastRole.modelValidate pydantic) raw "past_roles").isSome ∧
      (Pydantic.models (Education.modelValidate pydantic) raw "education").isSome ∧
      (Pydantic.models (Certification.modelValidate pydantic) raw "certifications").isSome ∧
      (Pydantic.models (Language.modelValidate pydantic) raw "languages").isSome ∧
      (Pydantic.models (Project.modelValidate pydantic) raw "projects").isSome ∧
      (pydantic.strs raw "industry_tags").isSome ∧ (pydantic.optionalStr raw "headline").isSome ∧
      (pydantic.optionalStr raw "summary").isSome ∧ (pydantic.optionalStr raw "email").isSome ∧
      (pydantic.optionalStr raw "phone").isSome ∧ (pydantic.optionalStr raw "location").isSome ∧
      (pydantic.strs raw "links").isSome ∧
      (pydantic.optionalStr raw "contract_type_preference").isSome ∧
      (pydantic.optionalNonneg raw "salary_min").isSome ∧
      (pydantic.optionalNonneg raw "salary_target").isSome ∧
      (pydantic.optionalStr raw "location_preference").isSome ∧
      (Pydantic.field raw "remote_preference" none (Pydantic.orNone pydantic.bool)).isSome ∧
      (pydantic.strs raw "deal_breakers").isSome ∧
      ∀ low target, pydantic.optionalNonneg raw "salary_min" = some (some low) →
        pydantic.optionalNonneg raw "salary_target" = some (some target) → low ≤ target := by
  unfold Profile.modelValidate
  refine isSome_bind_iff fun skills _ => isSome_bind_iff fun pastRoles _ =>
    isSome_bind_iff fun education _ => isSome_bind_iff fun certifications _ =>
    isSome_bind_iff fun languages _ => isSome_bind_iff fun projects _ =>
    isSome_bind_iff fun industryTags _ => isSome_bind_iff fun headline _ =>
    isSome_bind_iff fun summary _ => isSome_bind_iff fun email _ =>
    isSome_bind_iff fun phone _ => isSome_bind_iff fun location _ =>
    isSome_bind_iff fun links _ => isSome_bind_iff fun contractTypePreference _ =>
    isSome_bind_iff fun salaryMin hmin => isSome_bind_iff fun salaryTarget htarget =>
    isSome_bind_iff fun locationPreference _ => isSome_bind_iff fun remotePreference _ =>
    isSome_bind_iff fun dealBreakers _ => ?_
  rw [hmin, htarget]
  split
  · next h =>
    constructor
    · intro _ low target hlow htarget
      exact h low (Option.some.inj hlow) target (Option.some.inj htarget)
    · intro _
      rfl
  · next h =>
    constructor
    · intro hsome
      cases hsome
    · intro hordered
      refine absurd (fun low hlow target htarget => ?_) h
      exact hordered low target (congrArg some hlow) (congrArg some htarget)

end RecruFlow.Schemas
