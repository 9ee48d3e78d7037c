import RecruFlow.Lib.Trim
import RecruFlow.Schemas.ProfileModel

/-!
# The profile editor's validation

The editor checks the required texts of most lists before it sends a profile; the
request is validated again as a `Profile`.
-/

namespace RecruFlow.Frontend

open Schemas

/-! ## The value in the editor -/

structure SkillData where
  name : String
  category : Option String := none
  hard : Bool

structure PastRoleData where
  title : String
  company : String
  startDate : Option String := none
  endDate : Option String := none
  description : Option String := none

structure ProjectData where
  name : String
  description : Option String := none
  techStack : Option (List String) := none
  client : Option String := none
  teamSize : Option PyFloat := none

structure EducationData where
  institution : String
  degree : Option String := none
  fieldOfStudy : Option String := none
  startDate : Option String := none
  endDate : Option String := none

structure CertificationData where
  name : String
  issuer : Option String := none
  year : Option PyFloat := none

structure LanguageData where
  name : String

/-- `components['schemas']['Profile']`; `none` is a property that is left out, which for those
of a type `T | null` means the same to the server as `null`. -/
structure ProfileData where
  skills : Option (List SkillData) := none
  pastRoles : Option (List PastRoleData) := none
  education : Option (List EducationData) := none
  certifications : Option (List CertificationData) := none
  languages : Option (List LanguageData) := none
  projects : Option (List ProjectData) := none
  industryTags : Option (List String) := none
  headline : Option String := none
  summary : Option String := none
  email : Option String := none
  phone : Option String := none
  location : Option String := none
  links : Option (List String) := none
  contractTypePreference : Option String := none
  salaryMin : Option PyFloat := none
  salaryTarget : Option PyFloat := none
  locationPreference : Option String := none
  remotePreference : Option Bool := none
  dealBreakers : Option (List String) := none

/-! ## The editor's checks -/

/-- The white space and the line terminators of ECMAScript. -/
def isJsSpace (c : Char) : Bool :=
  (9 ≤ c.toNat && c.toNat ≤ 13) || c.toNat = 0x20 || c.toNat = 0xa0 || c.toNat = 0x1680 ||
    (0x2000 ≤ c.toNat && c.toNat ≤ 0x200a) || c.toNat = 0x2028 || c.toNat = 0x2029 ||
    c.toNat = 0x202f || c.toNat = 0x205f || c.toNat = 0x3000 || c.toNat = 0xfeff

/-- `value.trim()` -/
def jsTrim (value : String) : String :=
  String.ofList (Lib.Trim.trim isJsSpace value.toList)

def isBlank (value : String) : Bool :=
  jsTrim value = ""

structure RoleErrors where
  title : Bool
  company : Bool

structure ProfileValidationErrors where
  skills : List Bool
  pastRoles : List RoleErrors
  education : List Bool
  certifications : List Bool
  languages : List Bool

def validateProfile (profile : ProfileData) : ProfileValidationErrors where
  skills := (profile.skills.getD []).map fun skill => isBlank skill.name
  pastRoles := (profile.pastRoles.getD []).map fun role =>
    { title := isBlank role.title, company := isBlank role.company }
  education := (profile.education.getD []).map fun entry => isBlank entry.institution
  certifications := (profile.certifications.getD []).map fun entry => isBlank entry.name
  languages := (profile.languages.getD []).map fun entry => isBlank entry.name

def hasValidationErrors (errors : ProfileValidationErrors) : Bool :=
  errors.skills.any id || errors.pastRoles.any (fun role => role.title || role.company) ||
    errors.education.any id || errors.certifications.any id || errors.languages.any id

/-! ## The request -/

/-- The object with the properties that are there. -/
def given (properties : List (String × Option PyValue)) : Dict :=
  ⟨properties.filterMap fun property => property.2.map (property.1, ·)⟩

/-- A whole number below `10^21` is written without an exponent, which Python reads as an
`int`; what is not a number is written as `null`. -/
def jsonNumber : PyFloat → PyValue
  | .finite q => if q.den = 1 ∧ q.num.natAbs < 10 ^ 21 then .int q.num else .float (.finite q)
  | _ => .none

def jsonStrs (xs : List String) : PyValue :=
  .list (xs.map .str)

def jsonList {α : Type} (body : α → Dict) (xs : List α) : PyValue :=
  .list (xs.map fun x => .dict (body x).items)

def SkillData.body (skill : SkillData) : Dict :=
  given [("name", some (.str skill.name)), ("category", skill.category.map .str),
    ("hard", some (.bool skill.hard))]

def PastRoleData.body (role : PastRoleData) : Dict :=
  given [("title", some (.str role.title)), ("company", some (.str role.company)),
    ("start_date", role.startDate.map .str), ("end_date", role.endDate.map .str),
    ("description", role.description.map .str)]

def ProjectData.body (project : ProjectData) : Dict :=
  given [("name", some (.str project.name)), ("description", project.description.map .str),
    ("tech_stack", project.techStack.map jsonStrs), ("client", project.client.map .str),
    ("team_size", project.teamSize.map jsonNumber)]

def EducationData.body (entry : EducationData) : Dict :=
  given [("institution", some (.str entry.institution)), ("degree", entry.degree.map .str),
    ("field_of_study", entry.fieldOfStudy.map .str), ("start_date", entry.startDate.map .str),
    ("end_date", entry.endDate.map .str)]

def CertificationData.body (entry : CertificationData) : Dict :=
  given [("name", some (.str entry.name)), ("issuer", entry.issuer.map .str),
    ("year", entry.year.map jsonNumber)]

def LanguageData.body (entry : LanguageData) : Dict :=
  given [("name", some (.str entry.name))]

/-- `JSON.stringify(profile)`, as the server parses it. -/
def ProfileData.body (profile : ProfileData) : Dict :=
  given [("skills", profile.skills.map (jsonList SkillData.body)),
    ("past_roles", profile.pastRoles.map (jsonList PastRoleData.body)),
    ("education", profile.education.map (jsonList EducationData.body)),
    ("certifications", profile.certifications.map (jsonList CertificationData.body)),
    ("languages", profile.languages.map (jsonList LanguageData.body)),
    ("projects", profile.projects.map (jsonList ProjectData.body)),
    ("industry_tags", profile.industryTags.map jsonStrs),
    ("headline", profile.headline.map .str), ("summary", profile.summary.map .str),
    ("email", profile.email.map .str), ("phone", profile.phone.map .str),
    ("location", profile.location.map .str), ("links", profile.links.map jsonStrs),
    ("contract_type_preference", profile.contractTypePreference.map .str),
    ("salary_min", profile.salaryMin.map jsonNumber),
    ("salary_target", profile.salaryTarget.map jsonNumber),
    ("location_preference", profile.locationPreference.map .str),
    ("remote_preference", profile.remotePreference.map .bool),
    ("deal_breakers", profile.dealBreakers.map jsonStrs)]

/-! ## When the server accepts -/

/-- What pydantic makes of numbers and of texts in lax mode, with `str_strip_whitespace`. -/
structure ReadsJson (pydantic : Pydantic) : Prop where
  int : ∀ i, pydantic.int (.int i) = some i
  float : ∀ q : ℚ, q.den ≠ 1 ∨ 10 ^ 21 ≤ q.num.natAbs → pydantic.int (.float (.finite q)) = none
  bool : ∀ b, pydantic.bool (.bool b) = some b
  trim : ∀ s, pydantic.trim s = "" ↔ ∀ c ∈ s.toList, isWhiteSpace c

/-- The number reaches the server as `null` or as a whole number that `P` holds of. -/
def ArrivesAs (P : Int → Prop) (number : Option PyFloat) : Prop :=
  ∀ n ∈ number, jsonNumber n = .none ∨ ∃ i, P i ∧ jsonNumber n = .int i

/-- A line break that pydantic strips and the editor does not, and white space around it. -/
def OnlyNextLine (text : String) : Prop :=
  (∀ c ∈ text.toList, isWhiteSpace c) ∧ Char.ofNat 0x85 ∈ text.toList

/-- The texts that the editor checks. -/
def ProfileData.checkedTexts (profile : ProfileData) : List String :=
  (profile.skills.getD []).map (·.name) ++
    (profile.pastRoles.getD []).flatMap (fun role => [role.title, role.company]) ++
    (profile.education.getD []).map (·.institution) ++
    (profile.certifications.getD []).map (·.name) ++ (profile.languages.getD []).map (·.name)

/-- What the editor does not check. -/
structure ProfileData.PassesUnchecked (profile : ProfileData) : Prop where
  texts : ∀ text ∈ profile.checkedTexts, ¬ OnlyNextLine text
  projectNames : ∀ project ∈ profile.projects.getD [],
    ∃ c ∈ project.name.toList, isWhiteSpace c = false
  teamSizes : ∀ project ∈ profile.projects.getD [], ArrivesAs (0 ≤ ·) project.teamSize
  years : ∀ entry ∈ profile.certifications.getD [], ArrivesAs (fun _ => True) entry.year
  salaryMin : ArrivesAs (0 ≤ ·) profile.salaryMin
  salaryTarget : ArrivesAs (0 ≤ ·) profile.salaryTarget
  salaries : ∀ low target : Nat, profile.salaryMin.map jsonNumber = some (.int low) →
    profile.salaryTarget.map jsonNumber = some (.int target) → low ≤ target

/-- `save()` sends a profile that it finds no error in, and the server accepts it. -/
def SavesWhatItSends (pydantic : Pydantic) (profile : ProfileData) : Prop :=
  hasValidationErrors (validateProfile profile) = false →
    (Profile.modelValidate pydantic profile.body).isSome

variable {pydantic : Pydantic}

/-! ## Blank texts -/

theorem isBlank_iff {value : String} : isBlank value = true ↔ ∀ c ∈ value.toList, isJsSpace c := by
  rw [isBlank, decide_eq_true_iff, jsTrim, ← Lib.Trim.trim_eq_nil_iff]
  exact String.ofList_eq_empty_iff

theorem isJsSpace_of_isWhiteSpace {c : Char} (h : isWhiteSpace c) (hne : c ≠ Char.ofNat 0x85) :
    isJsSpace c := by
  have hnot : c.toNat ≠ 0x85 := fun hval => hne (by rw [← hval, Char.ofNat_toNat])
  simp only [isWhiteSpace, isJsSpace, Bool.or_eq_true, Bool.and_eq_true, decide_eq_true_eq] at h ⊢
  omega

theorem trim_ne_empty_iff (hreads : ReadsJson pydantic) {text : String} :
    pydantic.trim text ≠ "" ↔ ∃ c ∈ text.toList, isWhiteSpace c = false := by
  rw [ne_eq, hreads.trim]
  simp only [not_forall, Bool.not_eq_true, exists_prop]

/-- Of the texts that the editor lets through, pydantic strips nothing but next lines to nothing. -/
theorem trim_ne_iff (hreads : ReadsJson pydantic) {text : String} (hblank : isBlank text = false) :
    pydantic.trim text ≠ "" ↔ ¬ OnlyNextLine text := by
  rw [ne_eq, hreads.trim, not_iff_not]
  refine ⟨fun h => ⟨h, ?_⟩, fun h => h.1⟩
  by_contra hnone
  have hspaces : isBlank text = true := isBlank_iff.mpr fun c hc =>
    isJsSpace_of_isWhiteSpace (h c hc) fun heq => hnone (heq ▸ hc)
  rw [hblank] at hspaces
  cases hspaces

/-! ## Properties and numbers -/

theorem get_given {properties : List (String × Option PyValue)}
    (hnames : (properties.map (·.1)).Nodup) (name : String) :
    (given properties).get name = (properties.lookup name).join := by
  induction properties with
  | nil => rfl
  | cons property properties ih =>
      obtain ⟨key, value⟩ := property
      rw [List.map_cons, List.nodup_cons] at hnames
      have hrest := ih hnames.2
      rw [List.lookup_cons]
      cases value with
      | none =>
          by_cases hkey : name = key
          · subst hkey
            rw [beq_self_eq_true]
            have habsent : properties.lookup name = none := by
              rw [List.lookup_eq_none_iff]
              intro property hmem
              rw [bne_iff_ne]
              rintro rfl
              exact hnames.1 (List.mem_map.mpr ⟨property, hmem, rfl⟩)
            rw [habsent] at hrest
            exact hrest
          · rw [beq_false_of_ne hkey]
            exact hrest
      | some value =>
          show List.lookup name ((key, value) :: _) = _
          rw [List.lookup_cons]
          by_cases hkey : name = key
          · rw [hkey, beq_self_eq_true]
            rfl
          · rw [beq_false_of_ne hkey]
            exact hrest

theorem int_jsonNumber (hreads : ReadsJson pydantic) (n : PyFloat) :
    (∃ i, jsonNumber n = .int i) ∨ jsonNumber n = .none ∨
      (∃ x, jsonNumber n = .float x) ∧ pydantic.int (jsonNumber n) = none := by
  cases n with
  | finite q =>
      rw [jsonNumber]
      split
      · exact .inl ⟨_, rfl⟩
      · next hnot =>
        refine .inr (.inr ⟨⟨_, rfl⟩, hreads.float q ?_⟩)
        rcases not_and_or.mp hnot with hden | hlarge
        · exact .inl hden
        · exact .inr (Nat.not_lt.mp hlarge)
  | _ => exact .inr (.inl rfl)

variable {raw : Dict} {name : String} {number : Option PyFloat}

theorem isSome_optionalInt_iff (hreads : ReadsJson pydantic)
    (h : raw.get name = number.map jsonNumber) :
    (Pydantic.field raw name none (Pydantic.orNone pydantic.int)).isSome ↔
      ArrivesAs (fun _ => True) number := by
  rw [Pydantic.field, h]
  cases number with
  | none => simp [ArrivesAs]
  | some n =>
      simp only [Option.map_some, ArrivesAs, Option.mem_def, Option.some.injEq, forall_eq',
        true_and]
      rcases int_jsonNumber hreads n with ⟨i, hi⟩ | hnone | ⟨⟨x, hx⟩, hfloat⟩
      · simp [hi, Pydantic.orNone, hreads.int]
      · simp [hnone, Pydantic.orNone]
      · rw [hx] at hfloat ⊢
        simp [Pydantic.orNone, hfloat]

theorem optionalNonneg_of_int (hreads : ReadsJson pydantic) {i : Int}
    (h : raw.get name = some (.int i)) :
    pydantic.optionalNonneg raw name = if 0 ≤ i then some (some i.toNat) else none := by
  rw [Pydantic.optionalNonneg, Pydantic.field, h]
  simp only [Pydantic.orNone, Pydantic.nonneg, hreads.int]
  simp

theorem isSome_optionalNonneg_iff (hreads : ReadsJson pydantic)
    (h : raw.get name = number.map jsonNumber) :
    (pydantic.optionalNonneg raw name).isSome ↔ ArrivesAs (0 ≤ ·) number := by
  cases number with
  | none =>
      rw [Pydantic.optionalNonneg, Pydantic.field, h]
      simp [ArrivesAs]
  | some n =>
      simp only [ArrivesAs, Option.mem_def, Option.some.injEq, forall_eq']
      rcases int_jsonNumber hreads n with ⟨i, hi⟩ | hnone | ⟨⟨x, hx⟩, hfloat⟩
      · rw [Option.map_some, hi] at h
        rw [optionalNonneg_of_int hreads h, hi]
        split
        · next hle => simp [hle]
        · next hle => simp [hle]
      · rw [Pydantic.optionalNonneg, Pydantic.field, h]
        simp [hnone, Pydantic.orNone]
      · rw [Pydantic.optionalNonneg, Pydantic.field, h]
        rw [hx] at hfloat ⊢
        simp [Pydantic.orNone, Pydantic.nonneg, hx, hfloat]

theorem optionalNonneg_eq_some_iff (hreads : ReadsJson pydantic)
    (h : raw.get name = number.map jsonNumber) {low : Nat} :
    pydantic.optionalNonneg raw name = some (some low) ↔
      number.map jsonNumber = some (.int low) := by
  rw [← h]
  constructor
  · intro hsome
    have harrives := (isSome_optionalNonneg_iff hreads h).mp (by rw [hsome]; rfl)
    cases number with
    | none =>
        rw [Pydantic.optionalNonneg, Pydantic.field, h] at hsome
        cases hsome
    | some n =>
        rw [Option.map_some] at h
        rcases harrives n rfl with hnone | ⟨i, hle, hi⟩
        · rw [Pydantic.optionalNonneg, Pydantic.field, h, hnone] at hsome
          cases hsome
        · rw [hi] at h
          rw [optionalNonneg_of_int hreads h, if_pos hle, Option.some.injEq,
            Option.some.injEq] at hsome
          rw [h, ← hsome, Int.toNat_of_nonneg hle]
  · intro hget
    rw [optionalNonneg_of_int hreads hget, if_pos (Int.natCast_nonneg low), Int.toNat_natCast]

/-! ## The models -/

theorem isSome_skill_iff (hreads : ReadsJson pydantic) (skill : SkillData) :
    (Skill.modelValidate pydantic skill.body).isSome ↔ pydantic.trim skill.name ≠ "" := by
  have hget : ∀ name, skill.body.get name = _ :=
    get_given (by decide : ["name", "category", "hard"].Nodup)
  have hname : skill.body.get "name" = some (.str skill.name) := hget "name"
  have hcategory : skill.body.get "category" = skill.category.map .str := hget "category"
  have hhard : Pydantic.field skill.body "hard" false pydantic.bool = some skill.hard := by
    rw [Pydantic.field, hget]
    exact hreads.bool skill.hard
  rw [Skill.modelValidate, Pydantic.required_of_get hname, Pydantic.optionalStr_of_get hcategory,
    hhard]
  simp

theorem isSome_pastRole_iff (role : PastRoleData) :
    (PastRole.modelValidate pydantic role.body).isSome ↔
      pydantic.trim role.title ≠ "" ∧ pydantic.trim role.company ≠ "" := by
  have hget : ∀ name, role.body.get name = _ :=
    get_given (by decide : ["title", "company", "start_date", "end_date", "description"].Nodup)
  have htitle : role.body.get "title" = some (.str role.title) := hget "title"
  have hcompany : role.body.get "company" = some (.str role.company) := hget "company"
  have hstart : role.body.get "start_date" = role.startDate.map .str := hget "start_date"
  have hend : role.body.get "end_date" = role.endDate.map .str := hget "end_date"
  have hdescription : role.body.get "description" = role.description.map .str :=
    hget "description"
  rw [PastRole.modelValidate, Pydantic.required_of_get htitle, Pydantic.required_of_get hcompany,
    Pydantic.optionalStr_of_get hstart, Pydantic.optionalStr_of_get hend,
    Pydantic.optionalStr_of_get hdescription]
  simp

theorem isSome_project_iff (hreads : ReadsJson pydantic) (project : ProjectData) :
    (Project.modelValidate pydantic project.body).isSome ↔
      pydantic.trim project.name ≠ "" ∧ ArrivesAs (0 ≤ ·) project.teamSize := by
  have hget : ∀ name, project.body.get name = _ :=
    get_given (by decide : ["name", "description", "tech_stack", "client", "team_size"].Nodup)
  have hname : project.body.get "name" = some (.str project.name) := hget "name"
  have hdescription : project.body.get "description" = project.description.map .str :=
    hget "description"
  have htech : project.body.get "tech_stack" = project.techStack.map jsonStrs :=
    hget "tech_stack"
  have hclient : project.body.get "client" = project.client.map .str := hget "client"
  have hteam : project.body.get "team_size" = project.teamSize.map jsonNumber :=
    hget "team_size"
  rw [Project.modelValidate, Pydantic.required_of_get hname,
    Pydantic.optionalStr_of_get hdescription, Pydantic.strs_of_get htech,
    Pydantic.optionalStr_of_get hclient, ← isSome_optionalNonneg_iff hreads hteam]
  cases pydantic.optionalNonneg project.body "team_size" <;> simp

theorem isSome_education_iff (entry : EducationData) :
    (Education.modelValidate pydantic entry.body).isSome ↔
      pydantic.trim entry.institution ≠ "" := by
  have hget : ∀ name, entry.body.get name = _ :=
    get_given
      (by decide : ["institution", "degree", "field_of_study", "start_date", "end_date"].Nodup)
  have hinstitution : entry.body.get "institution" = some (.str entry.institution) :=
    hget "institution"
  have hdegree : entry.body.get "degree" = entry.degree.map .str := hget "degree"
  have hfield : entry.body.get "field_of_study" = entry.fieldOfStudy.map .str :=
    hget "field_of_study"
  have hstart : entry.body.get "start_date" = entry.startDate.map .str := hget "start_date"
  have hend : entry.body.get "end_date" = entry.endDate.map .str := hget "end_date"
  rw [Education.modelValidate, Pydantic.required_of_get hinstitution,
    Pydantic.optionalStr_of_get hdegree, Pydantic.optionalStr_of_get hfield,
    Pydantic.optionalStr_of_get hstart, Pydantic.optionalStr_of_get hend]
  simp

theorem isSome_certification_iff (hreads : ReadsJson pydantic) (entry : CertificationData) :
    (Certification.modelValidate pydantic entry.body).isSome ↔
      pydantic.trim entry.name ≠ "" ∧ ArrivesAs (fun _ => True) entry.year := by
  have hget : ∀ name, entry.body.get name = _ :=
    get_given (by decide : ["name", "issuer", "year"].Nodup)
  have hname : entry.body.get "name" = some (.str entry.name) := hget "name"
  have hissuer : entry.body.get "issuer" = entry.issuer.map .str := hget "issuer"
  have hyear : entry.body.get "year" = entry.year.map jsonNumber := hget "year"
  rw [Certification.modelValidate, Pydantic.required_of_get hname,
    Pydantic.optionalStr_of_get hissuer, ← isSome_optionalInt_iff hreads hyear]
  cases Pydantic.field entry.body "year" none (Pydantic.orNone pydantic.int) <;> simp

theorem isSome_language_iff (entry : LanguageData) :
    (Language.modelValidate pydantic entry.body).isSome ↔ pydantic.trim entry.name ≠ "" := by
  have hname : entry.body.get "name" = some (.str entry.name) := rfl
  rw [Language.modelValidate, Pydantic.required_of_get hname]
  simp

/-! ## The profile -/

theorem forall_checkedTexts {profile : ProfileData} {P : String → Prop} :
    (∀ text ∈ profile.checkedTexts, P text) ↔
      (∀ skill ∈ profile.skills.getD [], P skill.name) ∧
      (∀ role ∈ profile.pastRoles.getD [], P role.title ∧ P role.company) ∧
      (∀ entry ∈ profile.education.getD [], P entry.institution) ∧
      (∀ entry ∈ profile.certifications.getD [], P entry.name) ∧
      ∀ entry ∈ profile.languages.getD [], P entry.name := by
  have hpair (a b : String) : (∀ text ∈ [a, b], P text) ↔ P a ∧ P b := by simp
  simp only [ProfileData.checkedTexts, List.forall_mem_append, List.forall_mem_map,
    List.forall_mem_flatMap, hpair, and_assoc]

/-- The editor finds no error exactly when none of the texts it checks is blank. -/
theorem hasValidationErrors_eq_false_iff {profile : ProfileData} :
    hasValidationErrors (validateProfile profile) = false ↔
      ∀ text ∈ profile.checkedTexts, isBlank text = false := by
  rw [forall_checkedTexts]
  simp [hasValidationErrors, validateProfile, and_assoc]

/-- The server accepts a profile whose texts are left with something when they are stripped and
whose numbers it can read. -/
theorem isSome_profile_iff (hreads : ReadsJson pydantic) (profile : ProfileData) :
    (Profile.modelValidate pydantic profile.body).isSome ↔
      (∀ text ∈ profile.checkedTexts, pydantic.trim text ≠ "") ∧
      (∀ project ∈ profile.projects.getD [],
        pydantic.trim project.name ≠ "" ∧ ArrivesAs (0 ≤ ·) project.teamSize) ∧
      (∀ entry ∈ profile.certifications.getD [], ArrivesAs (fun _ => True) entry.year) ∧
      ArrivesAs (0 ≤ ·) profile.salaryMin ∧ ArrivesAs (0 ≤ ·) profile.salaryTarget ∧
      ∀ low target : Nat, profile.salaryMin.map jsonNumber = some (.int low) →
        profile.salaryTarget.map jsonNumber = some (.int target) → low ≤ target := by
  have hget : ∀ name, profile.body.get name = _ :=
    get_given
      (by decide : ["skills", "past_roles", "education", "certifications", "languages",
        "projects", "industry_tags", "headline", "summary", "email", "phone", "location", "links",
        "contract_type_preference", "salary_min", "salary_target", "location_preference",
        "remote_preference", "deal_breakers"].Nodup)
  have hskills : profile.body.get "skills" = profile.skills.map (jsonList SkillData.body) :=
    hget "skills"
  have hroles : profile.body.get "past_roles" =
      profile.pastRoles.map (jsonList PastRoleData.body) := hget "past_roles"
  have heducation : profile.body.get "education" =
      profile.education.map (jsonList EducationData.body) := hget "education"
  have hcertifications : profile.body.get "certifications" =
      profile.certifications.map (jsonList CertificationData.body) := hget "certifications"
  have hlanguages : profile.body.get "languages" =
      profile.languages.map (jsonList LanguageData.body) := hget "languages"
  have hprojects : profile.body.get "projects" =
      profile.projects.map (jsonList ProjectData.body) := hget "projects"
  have hstr {name : String} {s : Option String} (h : profile.body.get name = s.map .str) :
      (pydantic.optionalStr profile.body name).isSome := by
    rw [Pydantic.optionalStr_of_get h]
    rfl
  have hstrs {name : String} {xs : Option (List String)}
      (h : profile.body.get name = xs.map jsonStrs) :
      (pydantic.strs profile.body name).isSome := by
    rw [Pydantic.strs_of_get h]
    rfl
  have hmin : profile.body.get "salary_min" = profile.salaryMin.map jsonNumber := hget "salary_min"
  have htarget : profile.body.get "salary_target" = profile.salaryTarget.map jsonNumber :=
    hget "salary_target"
  have hpreference : profile.body.get "remote_preference" = profile.remotePreference.map .bool :=
    hget "remote_preference"
  have hremote : (Pydantic.field profile.body "remote_preference" none
      (Pydantic.orNone pydantic.bool)).isSome := by
    rw [Pydantic.field, hpreference]
    cases profile.remotePreference with
    | none => rfl
    | some b => simp [Pydantic.orNone, hreads.bool]
  rw [Profile.isSome_modelValidate_iff, Pydantic.models_of_get hskills,
    Pydantic.models_of_get hroles, Pydantic.models_of_get heducation,
    Pydantic.models_of_get hcertifications, Pydantic.models_of_get hlanguages,
    Pydantic.models_of_get hprojects]
  simp only [isSome_mapM_iff, isSome_skill_iff hreads, isSome_pastRole_iff, isSome_education_iff,
    isSome_certification_iff hreads, isSome_language_iff, isSome_project_iff hreads,
    isSome_optionalNonneg_iff hreads hmin, isSome_optionalNonneg_iff hreads htarget,
    optionalNonneg_eq_some_iff hreads hmin, optionalNonneg_eq_some_iff hreads htarget,
    forall_checkedTexts]
  constructor
  · rintro ⟨hs, hr, he, hc, hl, hp, -, -, -, -, -, -, -, -, hlow, htop, -, -, -, hordered⟩
    exact ⟨⟨hs, hr, he, fun entry hentry => (hc entry hentry).1, hl⟩, hp,
      fun entry hentry => (hc entry hentry).2, hlow, htop, hordered⟩
  · rintro ⟨⟨hs, hr, he, hc, hl⟩, hp, hyears, hlow, htop, hordered⟩
    exact ⟨hs, hr, he, fun entry hentry => ⟨hc entry hentry, hyears entry hentry⟩, hl, hp,
      hstrs (hget "industry_tags"), hstr (hget "headline"), hstr (hget "summary"),
      hstr (hget "email"), hstr (hget "phone"), hstr (hget "location"), hstrs (hget "links"),
      hstr (hget "contract_type_preference"), hlow, htop, hstr (hget "location_preference"),
      hremote, hstrs (hget "deal_breakers"), hordered⟩

/-- What the editor sends is accepted exactly when the fields it does not check are in order. -/
theorem savesWhatItSends_iff (hreads : ReadsJson pydantic) (profile : ProfileData) :
    SavesWhatItSends pydantic profile ↔
      (∃ text ∈ profile.checkedTexts, isBlank text) ∨ profile.PassesUnchecked := by
  rw [SavesWhatItSends, hasValidationErrors_eq_false_iff, isSome_profile_iff hreads]
  by_cases hblank : ∃ text ∈ profile.checkedTexts, isBlank text
  · obtain ⟨text, hmem, htext⟩ := hblank
    constructor
    · intro _
      exact .inl ⟨text, hmem, htext⟩
    · intro _ hnone
      rw [hnone text hmem] at htext
      cases htext
  · have hnone : ∀ text ∈ profile.checkedTexts, isBlank text = false := fun text hmem =>
      Bool.eq_false_iff.mpr fun htext => hblank ⟨text, hmem, htext⟩
    rw [or_iff_right hblank, imp_iff_right hnone]
    constructor
    · rintro ⟨htexts, hprojects, hyears, hmin, htarget, hordered⟩
      exact
        { texts := fun text hmem => (trim_ne_iff hreads (hnone text hmem)).mp (htexts text hmem)
          projectNames := fun project hmem =>
            (trim_ne_empty_iff hreads).mp (hprojects project hmem).1
          teamSizes := fun project hmem => (hprojects project hmem).2
          years := hyears
          salaryMin := hmin
          salaryTarget := htarget
          salaries := hordered }
    · intro hpasses
      exact ⟨fun text hmem => (trim_ne_iff hreads (hnone text hmem)).mpr (hpasses.texts text hmem),
        fun project hmem => ⟨(trim_ne_empty_iff hreads).mpr (hpasses.projectNames project hmem),
          hpasses.teamSizes project hmem⟩,
        hpasses.years, hpasses.salaryMin, hpasses.salaryTarget, hpasses.salaries⟩

/-- `{"salary_min": 20000, "salary_target": 15000}` -/
def targetBelowMin : ProfileData :=
  { salaryMin := some (.finite 20000), salaryTarget := some (.finite 15000) }

theorem readsJson_exact : ReadsJson Pydantic.exact where
  int _ := rfl
  float _ _ := rfl
  bool _ := rfl
  trim s := by
    rw [← Lib.Trim.trim_eq_nil_iff]
    exact String.ofList_eq_empty_iff

theorem savesWhatItSends_iff_targetBelowMin :
    SavesWhatItSends Pydantic.exact targetBelowMin ↔
      (∃ text ∈ targetBelowMin.checkedTexts, isBlank text) ∨ targetBelowMin.PassesUnchecked :=
  savesWhatItSends_iff readsJson_exact targetBelowMin

/-- The editor sends a salary target below the minimum, and the server refuses it. -/
theorem not_savesWhatItSends_targetBelowMin :
    ReadsJson Pydantic.exact ∧
      hasValidationErrors (validateProfile targetBelowMin) = false ∧
      Profile.modelValidate Pydantic.exact targetBelowMin.body = none ∧
      ¬ SavesWhatItSends Pydantic.exact targetBelowMin := by
  have hsent : hasValidationErrors (validateProfile targetBelowMin) = false := rfl
  have hrefused : Profile.modelValidate Pydantic.exact targetBelowMin.body = none := by
    decide +kernel
  refine ⟨readsJson_exact, hsent, hrefused, fun hsaves => ?_⟩
  have hsome := hsaves hsent
  rw [hrefused] at hsome
  cases hsome

end RecruFlow.Frontend
