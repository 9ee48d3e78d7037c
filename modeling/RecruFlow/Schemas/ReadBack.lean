import RecruFlow.Schemas.ProfileModel

/-!
# Validating what was dumped

A value that was validated keeps every check when it is validated again: texts are
stripped already, and the checks are on what is kept.
-/

namespace RecruFlow.Schemas

/-- Values of a field's own type are taken as they are, and texts are stripped of white space. -/
structure Pydantic.TakesOwn (pydantic : Pydantic) : Prop where
  int : ∀ i, pydantic.int (.int i) = some i
  bool : ∀ b, pydantic.bool (.bool b) = some b
  datetime : ∀ d, pydantic.datetime (.datetime d) = some d
  trim : ∀ s, pydantic.trim s = String.ofList (Lib.Trim.trim isWhiteSpace s.toList)

theorem Pydantic.exact_takesOwn : Pydantic.exact.TakesOwn where
  int _ := rfl
  bool _ := rfl
  datetime _ := rfl
  trim _ := rfl

/-! ## Lists -/

section Lists

variable {α β : Type} {f : α → Option β} {xs : List α} {ys : List β}

theorem mem_of_mapM (h : xs.mapM f = some ys) {y : β} (hy : y ∈ ys) : ∃ x ∈ xs, f x = some y := by
  induction xs generalizing ys with
  | nil =>
      rw [← Option.some.inj h] at hy
      exact absurd hy List.not_mem_nil
  | cons x xs ih =>
      rw [List.mapM_cons] at h
      obtain ⟨z, hz, h⟩ := Option.bind_eq_some_iff.mp h
      obtain ⟨zs, hzs, h⟩ := Option.bind_eq_some_iff.mp h
      rw [← Option.some.inj h] at hy
      rcases List.mem_cons.mp hy with rfl | hy
      · exact ⟨x, List.mem_cons_self, hz⟩
      · obtain ⟨w, hw, hwy⟩ := ih hzs hy
        exact ⟨w, List.mem_cons_of_mem _ hw, hwy⟩

theorem mapM_eq_map {g : α → β} (h : ∀ x ∈ xs, f x = some (g x)) :
    xs.mapM f = some (xs.map g) := by
  induction xs with
  | nil => rfl
  | cons x xs ih =>
      have hx := h x List.mem_cons_self
      have hxs := ih fun y hy => h y (List.mem_cons_of_mem _ hy)
      rw [List.mapM_cons, hx, hxs]
      rfl

/-- Elements that are read back one by one are read back as a list. -/
theorem mapM_of_forall {g : β → α} (h : ∀ y ∈ ys, f (g y) = some y) :
    (ys.map g).mapM f = some ys := by
  calc (ys.map g).mapM f
      = ys.mapM (f ∘ g) := List.mapM_map
    _ = some (ys.map id) := mapM_eq_map h
    _ = some ys := by rw [List.map_id]

end Lists

variable {pydantic : Pydantic} {raw : Dict} {name : String}

/-! ## Fields -/

namespace Pydantic

theorem TakesOwn.trim_trim (hown : pydantic.TakesOwn) (s : String) :
    pydantic.trim (pydantic.trim s) = pydantic.trim s := by
  rw [hown.trim, hown.trim, String.toList_ofList, Lib.Trim.trim_trim]

theorem str_of_str (hown : pydantic.TakesOwn) {v : PyValue} {s : String}
    (h : pydantic.str v = some s) : pydantic.str (.str s) = some s := by
  cases v with
  | str t =>
      rw [← Option.some.inj h]
      exact congrArg some (hown.trim_trim t)
  | _ => cases h

/-- A required text that was taken is taken again. -/
theorem str_of_required (hown : pydantic.TakesOwn) {s : String}
    (h : raw.get name >>= pydantic.str = some s) : pydantic.str (.str s) = some s := by
  obtain ⟨v, -, hv⟩ := Option.bind_eq_some_iff.mp h
  exact str_of_str hown hv

/-- So is a text with a default that has nothing to strip. -/
theorem str_of_field (hown : pydantic.TakesOwn) {default s : String}
    (hdefault : pydantic.trim default = default)
    (h : field raw name default pydantic.str = some s) : pydantic.str (.str s) = some s := by
  rw [field] at h
  split at h
  · rw [← Option.some.inj h]
    exact congrArg some hdefault
  · exact str_of_str hown h

theorem orNone_str_dumpStr (hown : pydantic.TakesOwn) {s : Option String}
    (h : pydantic.optionalStr raw name = some s) : orNone pydantic.str (dumpStr s) = some s := by
  cases s with
  | none => rfl
  | some s =>
      rw [optionalStr, field] at h
      split at h
      · cases h
      · next v _ =>
        cases v with
        | none => cases h
        | str t => exact congrArg (some <$> ·) (str_of_str hown (Option.map_injective
            (Option.some_injective _) h : pydantic.str (.str t) = some s))
        | _ => cases h

theorem strList_dumpStrs (hown : pydantic.TakesOwn) {xs : List String}
    (h : pydantic.strs raw name = some xs) : pydantic.strList (dumpStrs xs) = some xs := by
  rw [strs, field] at h
  split at h
  · rw [← Option.some.inj h]
    rfl
  · next v _ =>
    cases v with
    | list ys =>
        refine mapM_of_forall fun x hx => ?_
        obtain ⟨y, -, hy⟩ := mem_of_mapM h hx
        exact str_of_str hown hy
    | _ => cases h

theorem nonneg_int (hown : pydantic.TakesOwn) (n : Nat) : pydantic.nonneg (.int n) = some n := by
  rw [nonneg, hown.int]
  rfl

theorem orNone_nonneg_dumpInt (hown : pydantic.TakesOwn) (n : Option Nat) :
    orNone pydantic.nonneg (dumpInt (n.map Int.ofNat)) = some n := by
  cases n with
  | none => rfl
  | some n => exact congrArg (some <$> ·) (nonneg_int hown n)

theorem orNone_int_dumpInt (hown : pydantic.TakesOwn) (i : Option Int) :
    orNone pydantic.int (dumpInt i) = some i := by
  cases i with
  | none => rfl
  | some i => exact congrArg (some <$> ·) (hown.int i)

theorem orNone_bool_dump (hown : pydantic.TakesOwn) (b : Option Bool) :
    orNone pydantic.bool ((b.map PyValue.bool).getD .none) = some b := by
  cases b with
  | none => rfl
  | some b => exact congrArg (some <$> ·) (hown.bool b)

/-- A list of models that are read back one by one. -/
theorem modelList_dumpModels {α : Type} {modelValidate : Dict → Option α} {modelDump : α → Dict}
    (hback : ∀ raw x, modelValidate raw = some x → modelValidate (modelDump x) = some x)
    {xs : List α} (h : models modelValidate raw name = some xs) :
    modelList modelValidate (dumpModels modelDump xs) = some xs := by
  rw [models, field] at h
  split at h
  · rw [← Option.some.inj h]
    rfl
  · next v _ =>
    cases v with
    | list ys =>
        refine mapM_of_forall fun x hx => ?_
        obtain ⟨y, -, hy⟩ := mem_of_mapM h hx
        cases y with
        | dict items => exact hback ⟨items⟩ x hy
        | _ => cases hy
    | _ => cases h

end Pydantic

/-! ## Nested models -/

theorem Skill.modelValidate_eq_some_iff {skill : Skill} :
    Skill.modelValidate pydantic raw = some skill ↔
      (raw.get "name" >>= pydantic.str) = some skill.name ∧
      pydantic.optionalStr raw "category" = some skill.category ∧
      Pydantic.field raw "hard" false pydantic.bool = some skill.hard := by
  constructor
  · intro h
    obtain ⟨name, hname, h⟩ := Option.bind_eq_some_iff.mp h
    obtain ⟨category, hcategory, h⟩ := Option.bind_eq_some_iff.mp h
    obtain ⟨hard, hhard, h⟩ := Option.bind_eq_some_iff.mp h
    obtain ⟨_, h⟩ := Option.dite_none_right_eq_some.mp h
    rw [← Option.some.inj h]
    exact ⟨hname, hcategory, hhard⟩
  · intro ⟨hname, hcategory, hhard⟩
    rw [Skill.modelValidate, hname, hcategory, hhard]
    exact dif_pos skill.name_ne

theorem Skill.modelValidate_modelDump (hown : pydantic.TakesOwn) {skill : Skill}
    (h : Skill.modelValidate pydantic raw = some skill) :
    Skill.modelValidate pydantic skill.modelDump = some skill := by
  obtain ⟨hname, hcategory, -⟩ := Skill.modelValidate_eq_some_iff.mp h
  apply Skill.modelValidate_eq_some_iff.mpr
  refine ⟨?_, ?_, ?_⟩
  · exact Pydantic.str_of_required hown hname
  · exact Pydantic.orNone_str_dumpStr hown hcategory
  · exact hown.bool skill.hard

theorem PastRole.modelValidate_eq_some_iff {role : PastRole} :
    PastRole.modelValidate pydantic raw = some role ↔
      (raw.get "title" >>= pydantic.str) = some role.title ∧
      (raw.get "company" >>= pydantic.str) = some role.company ∧
      pydantic.optionalStr raw "start_date" = some role.startDate ∧
      pydantic.optionalStr raw "end_date" = some role.endDate ∧
      pydantic.optionalStr raw "description" = some role.description := by
  constructor
  · intro h
    obtain ⟨title, htitle, h⟩ := Option.bind_eq_some_iff.mp h
    obtain ⟨company, hcompany, h⟩ := Option.bind_eq_some_iff.mp h
    obtain ⟨startDate, hstart, h⟩ := Option.bind_eq_some_iff.mp h
    obtain ⟨endDate, hend, h⟩ := Option.bind_eq_some_iff.mp h
    obtain ⟨description, hdescription, h⟩ := Option.bind_eq_some_iff.mp h
    obtain ⟨_, h⟩ := Option.dite_none_right_eq_some.mp h
    rw [← Option.some.inj h]
    exact ⟨htitle, hcompany, hstart, hend, hdescription⟩
  · intro ⟨htitle, hcompany, hstart, hend, hdescription⟩
    rw [PastRole.modelValidate, htitle, hcompany, hstart, hend, hdescription]
    exact dif_pos ⟨role.title_ne, role.company_ne⟩

theorem PastRole.modelValidate_modelDump (hown : pydantic.TakesOwn) {role : PastRole}
    (h : PastRole.modelValidate pydantic raw = some role) :
    PastRole.modelValidate pydantic role.modelDump = some role := by
  obtain ⟨htitle, hcompany, hstart, hend, hdescription⟩ := PastRole.modelValidate_eq_some_iff.mp h
  apply PastRole.modelValidate_eq_some_iff.mpr
  refine ⟨?_, ?_, ?_, ?_, ?_⟩
  · exact Pydantic.str_of_required hown htitle
  · exact Pydantic.str_of_required hown hcompany
  · exact Pydantic.orNone_str_dumpStr hown hstart
  · exact Pydantic.orNone_str_dumpStr hown hend
  · exact Pydantic.orNone_str_dumpStr hown hdescription

theorem Project.modelValidate_eq_some_iff {project : Project} :
    Project.modelValidate pydantic raw = some project ↔
      (raw.get "name" >>= pydantic.str) = some project.name ∧
      pydantic.optionalStr raw "description" = some project.description ∧
      pydantic.strs raw "tech_stack" = some project.techStack ∧
      pydantic.optionalStr raw "client" = some project.client ∧
      pydantic.optionalNonneg raw "team_size" = some project.teamSize := by
  constructor
  · intro h
    obtain ⟨name, hname, h⟩ := Option.bind_eq_some_iff.mp h
    obtain ⟨description, hdescription, h⟩ := Option.bind_eq_some_iff.mp h
    obtain ⟨techStack, hstack, h⟩ := Option.bind_eq_some_iff.mp h
    obtain ⟨client, hclient, h⟩ := Option.bind_eq_some_iff.mp h
    obtain ⟨teamSize, hsize, h⟩ := Option.bind_eq_some_iff.mp h
    obtain ⟨_, h⟩ := Option.dite_none_right_eq_some.mp h
    rw [← Option.some.inj h]
    exact ⟨hname, hdescription, hstack, hclient, hsize⟩
  · intro ⟨hname, hdescription, hstack, hclient, hsize⟩
    rw [Project.modelValidate, hname, hdescription, hstack, hclient, hsize]
    exact dif_pos project.name_ne

theorem Project.modelValidate_modelDump (hown : pydantic.TakesOwn) {project : Project}
    (h : Project.modelValidate pydantic raw = some project) :
    Project.modelValidate pydantic project.modelDump = some project := by
  obtain ⟨hname, hdescription, hstack, hclient, -⟩ := Project.modelValidate_eq_some_iff.mp h
  apply Project.modelValidate_eq_some_iff.mpr
  refine ⟨?_, ?_, ?_, ?_, ?_⟩
  · exact Pydantic.str_of_required hown hname
  · exact Pydantic.orNone_str_dumpStr hown hdescription
  · exact Pydantic.strList_dumpStrs hown hstack
  · exact Pydantic.orNone_str_dumpStr hown hclient
  · exact Pydantic.orNone_nonneg_dumpInt hown project.teamSize

theorem Education.modelValidate_eq_some_iff {entry : Education} :
    Education.modelValidate pydantic raw = some entry ↔
      (raw.get "institution" >>= pydantic.str) = some entry.institution ∧
      pydantic.optionalStr raw "degree" = some entry.degree ∧
      pydantic.optionalStr raw "field_of_study" = some entry.fieldOfStudy ∧
      pydantic.optionalStr raw "start_date" = some entry.startDate ∧
      pydantic.optionalStr raw "end_date" = some entry.endDate := by
  constructor
  · intro h
    obtain ⟨institution, hinstitution, h⟩ := Option.bind_eq_some_iff.mp h
    obtain ⟨degree, hdegree, h⟩ := Option.bind_eq_some_iff.mp h
    obtain ⟨fieldOfStudy, hfield, h⟩ := Option.bind_eq_some_iff.mp h
    obtain ⟨startDate, hstart, h⟩ := Option.bind_eq_some_iff.mp h
    obtain ⟨endDate, hend, h⟩ := Option.bind_eq_some_iff.mp h
    obtain ⟨_, h⟩ := Option.dite_none_right_eq_some.mp h
    rw [← Option.some.inj h]
    exact ⟨hinstitution, hdegree, hfield, hstart, hend⟩
  · intro ⟨hinstitution, hdegree, hfield, hstart, hend⟩
    rw [Education.modelValidate, hinstitution, hdegree, hfield, hstart, hend]
    exact dif_pos entry.institution_ne

theorem Education.modelValidate_modelDump (hown : pydantic.TakesOwn) {entry : Education}
    (h : Education.modelValidate pydantic raw = some entry) :
    Education.modelValidate pydantic entry.modelDump = some entry := by
  obtain ⟨hinstitution, hdegree, hfield, hstart, hend⟩ := Education.modelValidate_eq_some_iff.mp h
  apply Education.modelValidate_eq_some_iff.mpr
  refine ⟨?_, ?_, ?_, ?_, ?_⟩
  · exact Pydantic.str_of_required hown hinstitution
  · exact Pydantic.orNone_str_dumpStr hown hdegree
  · exact Pydantic.orNone_str_dumpStr hown hfield
  · exact Pydantic.orNone_str_dumpStr hown hstart
  · exact Pydantic.orNone_str_dumpStr hown hend

theorem Certification.modelValidate_eq_some_iff {entry : Certification} :
    Certification.modelValidate pydantic raw = some entry ↔
      (raw.get "name" >>= pydantic.str) = some entry.name ∧
      pydantic.optionalStr raw "issuer" = some entry.issuer ∧
      Pydantic.field raw "year" none (Pydantic.orNone pydantic.int) = some entry.year := by
  constructor
  · intro h
    obtain ⟨name, hname, h⟩ := Option.bind_eq_some_iff.mp h
    obtain ⟨issuer, hissuer, h⟩ := Option.bind_eq_some_iff.mp h
    obtain ⟨year, hyear, h⟩ := Option.bind_eq_some_iff.mp h
    obtain ⟨_, h⟩ := Option.dite_none_right_eq_some.mp h
    rw [← Option.some.inj h]
    exact ⟨hname, hissuer, hyear⟩
  · intro ⟨hname, hissuer, hyear⟩
    rw [Certification.modelValidate, hname, hissuer, hyear]
    exact dif_pos entry.name_ne

theorem Certification.modelValidate_modelDump (hown : pydantic.TakesOwn) {entry : Certification}
    (h : Certification.modelValidate pydantic raw = some entry) :
    Certification.modelValidate pydantic entry.modelDump = some entry := by
  obtain ⟨hname, hissuer, -⟩ := Certification.modelValidate_eq_some_iff.mp h
  apply Certification.modelValidate_eq_some_iff.mpr
  refine ⟨?_, ?_, ?_⟩
  · exact Pydantic.str_of_required hown hname
  · exact Pydantic.orNone_str_dumpStr hown hissuer
  · exact Pydantic.orNone_int_dumpInt hown entry.year

theorem Language.modelValidate_eq_some_iff {language : Language} :
    Language.modelValidate pydantic raw = some language ↔
      (raw.get "name" >>= pydantic.str) = some language.name := by
  constructor
  · intro h
    obtain ⟨name, hname, h⟩ := Option.bind_eq_some_iff.mp h
    obtain ⟨_, h⟩ := Option.dite_none_right_eq_some.mp h
    rw [← Option.some.inj h]
    exact hname
  · intro hname
    rw [Language.modelValidate, hname]
    exact dif_pos language.name_ne

theorem Language.modelValidate_modelDump (hown : pydantic.TakesOwn) {language : Language}
    (h : Language.modelValidate pydantic raw = some language) :
    Language.modelValidate pydantic language.modelDump = some language := by
  have hname := Language.modelValidate_eq_some_iff.mp h
  apply Language.modelValidate_eq_some_iff.mpr
  exact Pydantic.str_of_required hown hname

/-! ## Profiles -/

theorem Profile.modelValidate_eq_some_iff {profile : Profile} :
    Profile.modelValidate pydantic raw = some profile ↔
      Pydantic.models (Skill.modelValidate pydantic) raw "skills" = some profile.skills ∧
      Pydantic.models (PastRole.modelValidate pydantic) raw "past_roles" =
        some profile.pastRoles ∧
      Pydantic.models (Education.modelValidate pydantic) raw "education" =
        some profile.education ∧
      Pydantic.models (Certification.modelValidate pydantic) raw "certifications" =
        some profile.certifications ∧
      Pydantic.models (Language.modelValidate pydantic) raw "languages" =
        some profile.languages ∧
      Pydantic.models (Project.modelValidate pydantic) raw "projects" = some profile.projects ∧
      pydantic.strs raw "industry_tags" = some profile.industryTags ∧
      pydantic.optionalStr raw "headline" = some profile.headline ∧
      pydantic.optionalStr raw "summary" = some profile.summary ∧
      pydantic.optionalStr raw "email" = some profile.email ∧
      pydantic.optionalStr raw "phone" = some profile.phone ∧
      pydantic.optionalStr raw "location" = some profile.location ∧
      pydantic.strs raw "links" = some profile.links ∧
      pydantic.optionalStr raw "contract_type_preference" =
        some profile.contractTypePreference ∧
      pydantic.optionalNonneg raw "salary_min" = some profile.salaryMin ∧
      pydantic.optionalNonneg raw "salary_target" = some profile.salaryTarget ∧
      pydantic.optionalStr raw "location_preference" = some profile.locationPreference ∧
      Pydantic.field raw "remote_preference" none (Pydantic.orNone pydantic.bool) =
        some profile.remotePreference ∧
      pydantic.strs raw "deal_breakers" = some profile.dealBreakers := by
  constructor
  · intro h
    obtain ⟨skills, hskills, h⟩ := Option.bind_eq_some_iff.mp h
    obtain ⟨pastRoles, hroles, h⟩ := Option.bind_eq_some_iff.mp h
    obtain ⟨education, heducation, h⟩ := Option.bind_eq_some_iff.mp h
    obtain ⟨certifications, hcertifications, h⟩ := Option.bind_eq_some_iff.mp h
    obtain ⟨languages, hlanguages, h⟩ := Option.bind_eq_some_iff.mp h
    obtain ⟨projects, hprojects, h⟩ := Option.bind_eq_some_iff.mp h
    obtain ⟨industryTags, htags, h⟩ := Option.bind_eq_some_iff.mp h
    obtain ⟨headline, hheadline, h⟩ := Option.bind_eq_some_iff.mp h
    obtain ⟨summary, hsummary, h⟩ := Option.bind_eq_some_iff.mp h
    obtain ⟨email, hemail, h⟩ := Option.bind_eq_some_iff.mp h
    obtain ⟨phone, hphone, h⟩ := Option.bind_eq_some_iff.mp h
    obtain ⟨location, hlocation, h⟩ := Option.bind_eq_some_iff.mp h
    obtain ⟨links, hlinks, h⟩ := Option.bind_eq_some_iff.mp h
    obtain ⟨contractType, hcontract, h⟩ := Option.bind_eq_some_iff.mp h
    obtain ⟨salaryMin, hmin, h⟩ := Option.bind_eq_some_iff.mp h
    obtain ⟨salaryTarget, htarget, h⟩ := Option.bind_eq_some_iff.mp h
    obtain ⟨locationPreference, hpreference, h⟩ := Option.bind_eq_some_iff.mp h
    obtain ⟨remotePreference, hremote, h⟩ := Option.bind_eq_some_iff.mp h
    obtain ⟨dealBreakers, hbreakers, h⟩ := Option.bind_eq_some_iff.mp h
    obtain ⟨_, h⟩ := Option.dite_none_right_eq_some.mp h
    rw [← Option.some.inj h]
    exact ⟨hskills, hroles, heducation, hcertifications, hlanguages, hprojects, htags, hheadline,
      hsummary, hemail, hphone, hlocation, hlinks, hcontract, hmin, htarget, hpreference, hremote,
      hbreakers⟩
  · intro ⟨hskills, hroles, heducation, hcertifications, hlanguages, hprojects, htags, hheadline,
      hsummary, hemail, hphone, hlocation, hlinks, hcontract, hmin, htarget, hpreference, hremote,
      hbreakers⟩
    rw [Profile.modelValidate, hskills, hroles, heducation, hcertifications, hlanguages, hprojects,
      htags, hheadline, hsummary, hemail, hphone, hlocation, hlinks, hcontract, hmin, htarget,
      hpreference, hremote, hbreakers]
    exact dif_pos profile.salaryTarget_not_below_min

/-- A profile that was accepted is read back from its dump. -/
theorem Profile.modelValidate_modelDump (hown : pydantic.TakesOwn) {profile : Profile}
    (h : Profile.modelValidate pydantic raw = some profile) :
    Profile.modelValidate pydantic profile.modelDump = some profile := by
  obtain ⟨hskills, hroles, heducation, hcertifications, hlanguages, hprojects, htags, hheadline,
    hsummary, hemail, hphone, hlocation, hlinks, hcontract, -, -, hpreference, -, hbreakers⟩ :=
    Profile.modelValidate_eq_some_iff.mp h
  apply Profile.modelValidate_eq_some_iff.mpr
  refine ⟨?_, ?_, ?_, ?_, ?_, ?_, ?_, ?_, ?_, ?_, ?_, ?_, ?_, ?_, ?_, ?_, ?_, ?_, ?_⟩
  · exact Pydantic.modelList_dumpModels (fun _ _ => Skill.modelValidate_modelDump hown) hskills
  · exact Pydantic.modelList_dumpModels (fun _ _ => PastRole.modelValidate_modelDump hown) hroles
  · exact Pydantic.modelList_dumpModels (fun _ _ => Education.modelValidate_modelDump hown)
      heducation
  · exact Pydantic.modelList_dumpModels (fun _ _ => Certification.modelValidate_modelDump hown)
      hcertifications
  · exact Pydantic.modelList_dumpModels (fun _ _ => Language.modelValidate_modelDump hown)
      hlanguages
  · exact Pydantic.modelList_dumpModels (fun _ _ => Project.modelValidate_modelDump hown)
      hprojects
  · exact Pydantic.strList_dumpStrs hown htags
  · exact Pydantic.orNone_str_dumpStr hown hheadline
  · exact Pydantic.orNone_str_dumpStr hown hsummary
  · exact Pydantic.orNone_str_dumpStr hown hemail
  · exact Pydantic.orNone_str_dumpStr hown hphone
  · exact Pydantic.orNone_str_dumpStr hown hlocation
  · exact Pydantic.strList_dumpStrs hown hlinks
  · exact Pydantic.orNone_str_dumpStr hown hcontract
  · exact Pydantic.orNone_nonneg_dumpInt hown profile.salaryMin
  · exact Pydantic.orNone_nonneg_dumpInt hown profile.salaryTarget
  · exact Pydantic.orNone_str_dumpStr hown hpreference
  · exact Pydantic.orNone_bool_dump hown profile.remotePreference
  · exact Pydantic.strList_dumpStrs hown hbreakers

/-! ## Offers -/

theorem Offer.modelValidate_eq_some_iff {offer : Offer} :
    Offer.modelValidate pydantic raw = some offer ↔
      (raw.get "source_id" >>= pydantic.nonneg) = some offer.sourceId ∧
      pydantic.optionalStr raw "external_id" = some offer.externalId ∧
      (∃ url, pydantic.optionalStr raw "canonical_url" = some url ∧
        url.filter (· ≠ "") = offer.canonicalUrl) ∧
      (raw.get "title" >>= pydantic.str) = some offer.title ∧
      (raw.get "company" >>= pydantic.str) = some offer.company ∧
      pydantic.optionalStr raw "location" = some offer.location ∧
      Pydantic.field raw "remote" false pydantic.bool = some offer.remote ∧
      pydantic.optionalStr raw "seniority" = some offer.seniority ∧
      pydantic.optionalNonneg raw "salary_min" = some offer.salaryMin ∧
      pydantic.optionalNonneg raw "salary_max" = some offer.salaryMax ∧
      Pydantic.field raw "salary_currency" "PLN" pydantic.str = some offer.salaryCurrency ∧
      pydantic.optionalStr raw "contract_type" = some offer.contractType ∧
      Pydantic.field raw "posted_at" none (Pydantic.orNone pydantic.datetime) =
        some offer.postedAt ∧
      pydantic.optionalStr raw "description" = some offer.description ∧
      pydantic.strs raw "industry_tags" = some offer.industryTags := by
  constructor
  · intro h
    obtain ⟨sourceId, hsource, h⟩ := Option.bind_eq_some_iff.mp h
    obtain ⟨externalId, hexternal, h⟩ := Option.bind_eq_some_iff.mp h
    obtain ⟨url, hurl, h⟩ := Option.bind_eq_some_iff.mp h
    obtain ⟨title, htitle, h⟩ := Option.bind_eq_some_iff.mp h
    obtain ⟨company, hcompany, h⟩ := Option.bind_eq_some_iff.mp h
    obtain ⟨location, hlocation, h⟩ := Option.bind_eq_some_iff.mp h
    obtain ⟨remote, hremote, h⟩ := Option.bind_eq_some_iff.mp h
    obtain ⟨seniority, hseniority, h⟩ := Option.bind_eq_some_iff.mp h
    obtain ⟨salaryMin, hmin, h⟩ := Option.bind_eq_some_iff.mp h
    obtain ⟨salaryMax, hmax, h⟩ := Option.bind_eq_some_iff.mp h
    obtain ⟨currency, hcurrency, h⟩ := Option.bind_eq_some_iff.mp h
    obtain ⟨contractType, hcontract, h⟩ := Option.bind_eq_some_iff.mp h
    obtain ⟨postedAt, hposted, h⟩ := Option.bind_eq_some_iff.mp h
    obtain ⟨description, hdescription, h⟩ := Option.bind_eq_some_iff.mp h
    obtain ⟨industryTags, htags, h⟩ := Option.bind_eq_some_iff.mp h
    obtain ⟨_, h⟩ := Option.dite_none_right_eq_some.mp h
    rw [← Option.some.inj h]
    exact ⟨hsource, hexternal, ⟨url, hurl, rfl⟩, htitle, hcompany, hlocation, hremote, hseniority,
      hmin, hmax, hcurrency, hcontract, hposted, hdescription, htags⟩
  · intro ⟨hsource, hexternal, ⟨url, hurl, hfilter⟩, htitle, hcompany, hlocation, hremote,
      hseniority, hmin, hmax, hcurrency, hcontract, hposted, hdescription, htags⟩
    apply Option.bind_eq_some_iff.mpr ⟨_, hsource, ?_⟩
    apply Option.bind_eq_some_iff.mpr ⟨_, hexternal, ?_⟩
    apply Option.bind_eq_some_iff.mpr ⟨_, hurl, ?_⟩
    apply Option.bind_eq_some_iff.mpr ⟨_, htitle, ?_⟩
    apply Option.bind_eq_some_iff.mpr ⟨_, hcompany, ?_⟩
    apply Option.bind_eq_some_iff.mpr ⟨_, hlocation, ?_⟩
    apply Option.bind_eq_some_iff.mpr ⟨_, hremote, ?_⟩
    apply Option.bind_eq_some_iff.mpr ⟨_, hseniority, ?_⟩
    apply Option.bind_eq_some_iff.mpr ⟨_, hmin, ?_⟩
    apply Option.bind_eq_some_iff.mpr ⟨_, hmax, ?_⟩
    apply Option.bind_eq_some_iff.mpr ⟨_, hcurrency, ?_⟩
    apply Option.bind_eq_some_iff.mpr ⟨_, hcontract, ?_⟩
    apply Option.bind_eq_some_iff.mpr ⟨_, hposted, ?_⟩
    apply Option.bind_eq_some_iff.mpr ⟨_, hdescription, ?_⟩
    apply Option.bind_eq_some_iff.mpr ⟨_, htags, ?_⟩
    rw [hfilter]
    exact dif_pos offer.valid

/-- What a `timestamptz` column gives back. -/
def instant (d : DateTime) : DateTime :=
  ⟨d.micros, true⟩

theorem Pydantic.orNone_datetime_instant (hown : pydantic.TakesOwn) (d : Option DateTime) :
    Pydantic.orNone pydantic.datetime ((d.map fun d => .datetime (instant d)).getD .none) =
      some (d.map instant) := by
  cases d with
  | none => rfl
  | some d => exact congrArg (some <$> ·) (hown.datetime (instant d))

/-- The offer with the instants that its row has. -/
def Offer.stored (offer : Offer) : Offer :=
  { offer with
    postedAt := offer.postedAt.map instant
    valid :=
      { offer.valid with } }

/-- The columns of an offer's row, as they are read. -/
def Offer.columns (offer : Offer) : Dict :=
  ⟨[("source_id", .int offer.sourceId), ("external_id", dumpStr offer.externalId),
    ("canonical_url", dumpStr offer.canonicalUrl), ("title", .str offer.title),
    ("company", .str offer.company), ("location", dumpStr offer.location),
    ("remote", .bool offer.remote), ("seniority", dumpStr offer.seniority),
    ("salary_min", dumpInt (offer.salaryMin.map Int.ofNat)),
    ("salary_max", dumpInt (offer.salaryMax.map Int.ofNat)),
    ("salary_currency", .str offer.salaryCurrency), ("contract_type", dumpStr offer.contractType),
    ("posted_at", (offer.postedAt.map fun d => .datetime (instant d)).getD .none),
    ("description", dumpStr offer.description), ("industry_tags", dumpStrs offer.industryTags)]⟩

theorem Offer.canonicalUrl_filter (offer : Offer) :
    offer.canonicalUrl.filter (· ≠ "") = offer.canonicalUrl := by
  cases hurl : offer.canonicalUrl with
  | none => rfl
  | some url =>
      have hne : url ≠ "" := fun hempty => offer.valid.canonicalUrl_ne (hempty ▸ hurl)
      exact Option.filter_some_pos (decide_eq_true hne)

/-- An url is taken again, or was taken as none. -/
theorem orNone_str_dumpStr_filter (hown : pydantic.TakesOwn) {url : Option String}
    (h : pydantic.optionalStr raw name = some url) :
    Pydantic.orNone pydantic.str (dumpStr (url.filter (· ≠ ""))) =
      some (url.filter (· ≠ "")) := by
  cases hfilter : url.filter (· ≠ "") with
  | none => rfl
  | some s =>
      have hurl : url = some s := (Option.filter_eq_some_iff.mp hfilter).1
      rw [← hurl]
      exact Pydantic.orNone_str_dumpStr hown h

theorem trim_currency (hown : pydantic.TakesOwn) : pydantic.trim "PLN" = "PLN" := by
  rw [hown.trim]
  decide

/-- An offer that was accepted is read back from its row, up to the instant of its date. -/
theorem Offer.modelValidate_columns (hown : pydantic.TakesOwn) {offer : Offer}
    (h : Offer.modelValidate pydantic raw = some offer) :
    Offer.modelValidate pydantic offer.columns = some offer.stored := by
  obtain ⟨-, hexternal, ⟨url, hurl, hfilter⟩, htitle, hcompany, hlocation, -, hseniority, -, -,
    hcurrency, hcontract, -, hdescription, htags⟩ := Offer.modelValidate_eq_some_iff.mp h
  apply Offer.modelValidate_eq_some_iff.mpr
  refine ⟨?_, ?_, ⟨offer.canonicalUrl, ?_, ?_⟩, ?_, ?_, ?_, ?_, ?_, ?_, ?_, ?_, ?_, ?_, ?_, ?_⟩
  · exact Pydantic.nonneg_int hown offer.sourceId
  · exact Pydantic.orNone_str_dumpStr hown hexternal
  · show Pydantic.orNone pydantic.str (dumpStr offer.canonicalUrl) = some offer.canonicalUrl
    rw [← hfilter]
    exact orNone_str_dumpStr_filter hown hurl
  · exact offer.canonicalUrl_filter
  · exact Pydantic.str_of_required hown htitle
  · exact Pydantic.str_of_required hown hcompany
  · exact Pydantic.orNone_str_dumpStr hown hlocation
  · exact hown.bool offer.remote
  · exact Pydantic.orNone_str_dumpStr hown hseniority
  · exact Pydantic.orNone_nonneg_dumpInt hown offer.salaryMin
  · exact Pydantic.orNone_nonneg_dumpInt hown offer.salaryMax
  · exact Pydantic.str_of_field hown (trim_currency hown) hcurrency
  · exact Pydantic.orNone_str_dumpStr hown hcontract
  · exact Pydantic.orNone_datetime_instant hown offer.postedAt
  · exact Pydantic.orNone_str_dumpStr hown hdescription
  · exact Pydantic.strList_dumpStrs hown htags

theorem Offer.eq_of_fields {offer other : Offer}
    (h : offer.toOfferFields = other.toOfferFields) : offer = other := by
  cases offer
  cases other
  congr

/-- A date that is null or aware is stored as it is. -/
theorem Offer.stored_of_aware {offer : Offer} (h : ∀ d ∈ offer.postedAt, d.aware) :
    offer.stored = offer := by
  have hdate : offer.postedAt.map instant = offer.postedAt := by
    cases hposted : offer.postedAt with
    | none => rfl
    | some d =>
        have haware : d.aware = true := h d hposted
        rw [Option.map_some, instant, ← haware]
  apply Offer.eq_of_fields
  exact congrArg (fun postedAt => { offer.toOfferFields with postedAt }) hdate

end RecruFlow.Schemas
