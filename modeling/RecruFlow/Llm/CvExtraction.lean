import RecruFlow.Cv.TextExtraction
import RecruFlow.Llm.ScoreCaps
import RecruFlow.Scoring.StoredInputs

/-!
# From an uploaded CV to a draft profile

The language model is asked three times for a part of what the CV says. Each answer is
validated, the parts are dumped and validated as one extraction, and this is dumped and
validated as a profile, of which no skill is a hard one.
-/

namespace RecruFlow.Llm

open Cv Db Schemas

/-! ## The text of a CV -/

/-- An exception that was raised. -/
structure Raised where
  className : String
  text : String
  deriving DecidableEq

/-- `_describe` -/
def Raised.describe (e : Raised) : String :=
  if e.text ≠ "" then e.text else e.className

/-- `Path(filename).name` -/
def fileName (filename : List Char) : List Char :=
  (((filename.splitOn '/').filter fun part => part ≠ [] ∧ part ≠ ['.']).getLast?).getD []

/-- `Path(filename).suffix` -/
def suffix (filename : List Char) : List Char :=
  let name := fileName filename
  let i := (name.rdropWhile (· ≠ '.')).length - 1
  if 0 < i ∧ i + 1 < name.length then name.drop i else []

/-- What reads files; a file that it cannot read makes it raise. -/
structure FileReader where
  /-- `str.lower` -/
  lower : String → String
  /-- The words of the pages of a PDF. -/
  pdfPages : ByteArray → Except Raised (List (List Word))
  /-- The texts of the paragraphs of a document. -/
  docxParagraphs : ByteArray → Except Raised (List String)

/-- The exceptions of an upload; one that the route does not handle is a server error. -/
inductive UploadError where
  | unsupportedFileType (message : String)
  | cvExtraction (message : String)
  | unhandled (e : Raised)
  deriving DecidableEq

/-- The status code of the answer. -/
def UploadError.statusCode : UploadError → Nat
  | .unsupportedFileType _ => 415
  | .cvExtraction _ => 503
  | .unhandled _ => 500

def extractCvText (reader : FileReader) (filename : String) (content : ByteArray) :
    Except UploadError String :=
  let suffix := reader.lower (String.ofList (suffix filename.toList))
  if suffix = ".pdf" then
    ((reader.pdfPages content).mapError .unhandled).map fun pages =>
      "\n".intercalate (pages.map extractPageText)
  else if suffix = ".docx" then
    ((reader.docxParagraphs content).mapError .unhandled).map fun paragraphs =>
      "\n".intercalate paragraphs
  else .error (.unsupportedFileType
    ("unsupported file type: " ++ if suffix ≠ "" then suffix else "unknown"))

/-! ## The schemas of the answers -/

/-- `_CoreExtraction` -/
structure CoreExtraction where
  skills : List Skill
  pastRoles : List PastRole
  education : List Education
  certifications : List Certification
  languages : List Language

/-- `_ProjectsExtraction` -/
structure ProjectsExtraction where
  projects : List Project
  industryTags : List String

/-- `_ContactExtraction` -/
structure ContactExtraction where
  headline : Option String
  summary : Option String
  email : Option String
  phone : Option String
  location : Option String
  links : List String

structure CVExtraction extends CoreExtraction, ProjectsExtraction, ContactExtraction

def CoreExtraction.modelDump (core : CoreExtraction) : Dict :=
  ⟨[("skills", dumpModels Skill.modelDump core.skills),
    ("past_roles", dumpModels PastRole.modelDump core.pastRoles),
    ("education", dumpModels Education.modelDump core.education),
    ("certifications", dumpModels Certification.modelDump core.certifications),
    ("languages", dumpModels Language.modelDump core.languages)]⟩

def ProjectsExtraction.modelDump (projects : ProjectsExtraction) : Dict :=
  ⟨[("projects", dumpModels Project.modelDump projects.projects),
    ("industry_tags", dumpStrs projects.industryTags)]⟩

def ContactExtraction.modelDump (contact : ContactExtraction) : Dict :=
  ⟨[("headline", dumpStr contact.headline), ("summary", dumpStr contact.summary),
    ("email", dumpStr contact.email), ("phone", dumpStr contact.phone),
    ("location", dumpStr contact.location), ("links", dumpStrs contact.links)]⟩

def CVExtraction.modelDump (extraction : CVExtraction) : Dict :=
  ⟨extraction.toCoreExtraction.modelDump.items ++ extraction.toProjectsExtraction.modelDump.items ++
    extraction.toContactExtraction.modelDump.items⟩

section Validation

variable (pydantic : Pydantic)

def CoreExtraction.modelValidate (raw : Dict) : Option CoreExtraction := do
  let skills ← Pydantic.models (Skill.modelValidate pydantic) raw "skills"
  let pastRoles ← Pydantic.models (PastRole.modelValidate pydantic) raw "past_roles"
  let education ← Pydantic.models (Education.modelValidate pydantic) raw "education"
  let certifications ← Pydantic.models (Certification.modelValidate pydantic) raw "certifications"
  let languages ← Pydantic.models (Language.modelValidate pydantic) raw "languages"
  some { skills, pastRoles, education, certifications, languages }

def ProjectsExtraction.modelValidate (raw : Dict) : Option ProjectsExtraction := do
  let projects ← Pydantic.models (Project.modelValidate pydantic) raw "projects"
  let industryTags ← pydantic.strs raw "industry_tags"
  some { projects, industryTags }

def ContactExtraction.modelValidate (raw : Dict) : Option ContactExtraction := do
  let headline ← pydantic.optionalStr raw "headline"
  let summary ← pydantic.optionalStr raw "summary"
  let email ← pydantic.optionalStr raw "email"
  let phone ← pydantic.optionalStr raw "phone"
  let location ← pydantic.optionalStr raw "location"
  let links ← pydantic.strs raw "links"
  some { headline, summary, email, phone, location, links }

/-- The fields of an extraction are those of its parts. -/
def CVExtraction.modelValidate (raw : Dict) : Option CVExtraction := do
  let core ← CoreExtraction.modelValidate pydantic raw
  let projects ← ProjectsExtraction.modelValidate pydantic raw
  let contact ← ContactExtraction.modelValidate pydantic raw
  some { core, projects, contact with }

end Validation

/-! ## The upload -/

/-- The language model, asked with a prompt for a part of the CV's text. -/
structure ExtractionChains where
  core : String → Except Raised Dict
  contact : String → Except Raised Dict
  projects : String → Except Raised Dict
  /-- What is raised for an answer that the schema refuses. -/
  refused : Dict → Raised

/-- The structured output of a chain. -/
def ExtractionChains.structured {α : Type} (chains : ExtractionChains)
    (modelValidate : Dict → Option α) (answer : Except Raised Dict) : Except Raised α := do
  let raw ← answer
  match modelValidate raw with
  | some output => .ok output
  | none => .error (chains.refused raw)

/-- A call with the items of several `dict`s as its arguments; `none` is the `TypeError` of
an argument that is given twice. -/
def keywords (dicts : List Dict) : Option Dict :=
  let items := dicts.flatMap (·.items)
  if (items.map Prod.fst).Nodup then some ⟨items⟩ else none

/-- `{**skill, "hard": False}` -/
def softenedSkill : PyValue → Option PyValue
  | .dict skill => some (.dict (Dict.set ⟨skill⟩ "hard" (.bool false)).items)
  | _ => none

/-- The loop over the skills; `none` is a `TypeError`. -/
def softened : PyValue → Option PyValue
  | .list skills => PyValue.list <$> skills.mapM softenedSkill
  | _ => none

section Upload

variable (pydantic : Pydantic) (chains : ExtractionChains)

/-- The three answers, in the order in which they are asked for. -/
def answers (cvText : String) :
    Except Raised (CoreExtraction × ContactExtraction × ProjectsExtraction) := do
  let core ← chains.structured (CoreExtraction.modelValidate pydantic) (chains.core cvText)
  let contact ← chains.structured (ContactExtraction.modelValidate pydantic)
    (chains.contact cvText)
  let projects ← chains.structured (ProjectsExtraction.modelValidate pydantic)
    (chains.projects cvText)
  pure (core, contact, projects)

/-- A `TypeError` or a `ValidationError` that nothing handles. -/
def orUnhandled {α : Type} : Option α → Except UploadError α
  | some a => .ok a
  | none => .error (.unhandled ⟨"", ""⟩)

def callLlm (cvText : String) : Except UploadError CVExtraction := do
  let (core, contact, projects) ← (answers pydantic chains cvText).mapError fun e =>
    .cvExtraction ("CV extraction failed: " ++ e.describe)
  orUnhandled (keywords [core.modelDump, contact.modelDump, projects.modelDump] >>=
    CVExtraction.modelValidate pydantic)

def extractProfileFromCvText (cvText : String) : Except UploadError Profile := do
  let extraction ← callLlm pydantic chains cvText
  let data := extraction.modelDump
  orUnhandled do
    let skills ← data.get "skills" >>= softened
    Profile.modelValidate pydantic (data.set "skills" skills)

structure ProfileResponse where
  id : Nat
  name : String
  status : ProfileStatus
  isActive : Bool
  profile : Profile

/-- `_profile_response`; `none` is a `ValidationError`. -/
def profileResponse (row : ProfileRow) : Option ProfileResponse := do
  let profile ← Scoring.loadProfile pydantic row
  some { id := row.id, name := row.name, status := row.status, isActive := row.isActive, profile }

/-- `POST /profile/upload`, with the rows that it leaves; the answer is made after the commit. -/
def uploadCv (reader : FileReader) (uuid : String) (filename : String) (content : ByteArray)
    (db : Database) : Except UploadError ProfileResponse × Database :=
  match extractCvText reader filename content >>= extractProfileFromCvText pydantic chains with
  | .error e => (.error e, db)
  | .ok profile =>
      let (row, db) := insertProfile ("draft-" ++ uuid) .draft (some profile) db
      (orUnhandled (profileResponse pydantic row), db)

end Upload

/-! ## The extraction as a profile -/

/-- The skill as a candidate's wish that was not expressed. -/
def soft (skill : Skill) : Skill :=
  { skill with hard := false }

/-- The profile that says what was extracted and has no preferences. -/
def CVExtraction.profile (extraction : CVExtraction) : Profile :=
  { Profile.empty with
    skills := extraction.skills.map soft
    pastRoles := extraction.pastRoles
    education := extraction.education
    certifications := extraction.certifications
    languages := extraction.languages
    projects := extraction.projects
    industryTags := extraction.industryTags
    headline := extraction.headline
    summary := extraction.summary
    email := extraction.email
    phone := extraction.phone
    location := extraction.location
    links := extraction.links }

variable {pydantic : Pydantic} {raw : Dict}

theorem CoreExtraction.modelValidate_eq_some_iff {core : CoreExtraction} :
    CoreExtraction.modelValidate pydantic raw = some core ↔
      Pydantic.models (Skill.modelValidate pydantic) raw "skills" = some core.skills ∧
      Pydantic.models (PastRole.modelValidate pydantic) raw "past_roles" = some core.pastRoles ∧
      Pydantic.models (Education.modelValidate pydantic) raw "education" = some core.education ∧
      Pydantic.models (Certification.modelValidate pydantic) raw "certifications" =
        some core.certifications ∧
      Pydantic.models (Language.modelValidate pydantic) raw "languages" = some core.languages := by
  constructor
  · intro h
    obtain ⟨skills, hskills, h⟩ := Option.bind_eq_some_iff.mp h
    obtain ⟨pastRoles, hroles, h⟩ := Option.bind_eq_some_iff.mp h
    obtain ⟨education, heducation, h⟩ := Option.bind_eq_some_iff.mp h
    obtain ⟨certifications, hcertifications, h⟩ := Option.bind_eq_some_iff.mp h
    obtain ⟨languages, hlanguages, h⟩ := Option.bind_eq_some_iff.mp h
    rw [← Option.some.inj h]
    exact ⟨hskills, hroles, heducation, hcertifications, hlanguages⟩
  · intro ⟨hskills, hroles, heducation, hcertifications, hlanguages⟩
    rw [CoreExtraction.modelValidate, hskills, hroles, heducation, hcertifications, hlanguages]
    rfl

theorem ProjectsExtraction.modelValidate_eq_some_iff {projects : ProjectsExtraction} :
    ProjectsExtraction.modelValidate pydantic raw = some projects ↔
      Pydantic.models (Project.modelValidate pydantic) raw "projects" = some projects.projects ∧
      pydantic.strs raw "industry_tags" = some projects.industryTags := by
  constructor
  · intro h
    obtain ⟨items, hprojects, h⟩ := Option.bind_eq_some_iff.mp h
    obtain ⟨tags, htags, h⟩ := Option.bind_eq_some_iff.mp h
    rw [← Option.some.inj h]
    exact ⟨hprojects, htags⟩
  · intro ⟨hprojects, htags⟩
    rw [ProjectsExtraction.modelValidate, hprojects, htags]
    rfl

theorem ContactExtraction.modelValidate_eq_some_iff {contact : ContactExtraction} :
    ContactExtraction.modelValidate pydantic raw = some contact ↔
      pydantic.optionalStr raw "headline" = some contact.headline ∧
      pydantic.optionalStr raw "summary" = some contact.summary ∧
      pydantic.optionalStr raw "email" = some contact.email ∧
      pydantic.optionalStr raw "phone" = some contact.phone ∧
      pydantic.optionalStr raw "location" = some contact.location ∧
      pydantic.strs raw "links" = some contact.links := by
  constructor
  · intro h
    obtain ⟨headline, hheadline, h⟩ := Option.bind_eq_some_iff.mp h
    obtain ⟨summary, hsummary, h⟩ := Option.bind_eq_some_iff.mp h
    obtain ⟨email, hemail, h⟩ := Option.bind_eq_some_iff.mp h
    obtain ⟨phone, hphone, h⟩ := Option.bind_eq_some_iff.mp h
    obtain ⟨location, hlocation, h⟩ := Option.bind_eq_some_iff.mp h
    obtain ⟨links, hlinks, h⟩ := Option.bind_eq_some_iff.mp h
    rw [← Option.some.inj h]
    exact ⟨hheadline, hsummary, hemail, hphone, hlocation, hlinks⟩
  · intro ⟨hheadline, hsummary, hemail, hphone, hlocation, hlinks⟩
    rw [ContactExtraction.modelValidate, hheadline, hsummary, hemail, hphone, hlocation, hlinks]
    rfl

variable {extraction : CVExtraction}

variable {chains : ExtractionChains} {reader : FileReader} {filename uuid cvText : String}
  {content : ByteArray} {db : Database}

def wordReader : FileReader where
  lower s := String.ofList (s.toList.map Char.toLower)
  pdfPages _ := .ok [[⟨"Lean", 0, 10, 0⟩]]
  docxParagraphs _ := .error ⟨"PackageNotFoundError", ""⟩

/-- A model that takes the word of a CV for a hard requirement. -/
def eagerChains : ExtractionChains where
  core cvText := .ok ⟨[("skills", .list [.dict [("name", .str cvText), ("hard", .bool true)]])]⟩
  contact _ := .ok ⟨[]⟩
  projects _ := .ok ⟨[]⟩
  refused _ := ⟨"OutputParserException", ""⟩

end RecruFlow.Llm
