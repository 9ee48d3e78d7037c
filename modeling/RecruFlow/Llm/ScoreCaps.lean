import RecruFlow.Llm.PhraseMatches
import Mathlib.Algebra.Order.BigOperators.Group.List
import Mathlib.Tactic.Linarith
import Mathlib.Tactic.NormNum

/-!
# What bounds a score

Whatever the language model answers, a score is the least of the rounded total of
its ratings and of the caps that apply, and the caps that apply do not depend on
the answer.
-/

namespace RecruFlow.Llm

open Schemas

variable {unicode : Unicode} {profile : Profile} {offer : Offer} {output output' : MatcherOutput}

/-! ## Rounding -/

theorem roundHalfEven_le {q : ℚ} {n : Int} (h : q ≤ n) : roundHalfEven q ≤ n := by
  have hfloor := Int.floor_le q
  have hle : ⌊q⌋ ≤ n := Int.floor_le_iff.mpr (lt_of_le_of_lt h (lt_add_one _))
  rw [roundHalfEven]
  split
  · next hup =>
    -- an integer has no rest to round up
    have hne : ⌊q⌋ ≠ n := by
      intro heq
      have hrest : q - ⌊q⌋ ≤ 0 := by
        rw [heq]
        linarith
      rcases hup with hup | ⟨hup, -⟩
      · linarith
      · linarith
    omega
  · exact hle

theorem le_roundHalfEven {q : ℚ} {n : Int} (h : (n : ℚ) ≤ q) : n ≤ roundHalfEven q := by
  have hle : n ≤ ⌊q⌋ := Int.le_floor.mpr h
  rw [roundHalfEven]
  split
  · omega
  · exact hle

theorem roundHalfEven_mono {p q : ℚ} (h : p ≤ q) : roundHalfEven p ≤ roundHalfEven q := by
  have hfloor : ⌊p⌋ ≤ ⌊q⌋ := Int.floor_mono h
  rcases eq_or_lt_of_le hfloor with heq | hlt
  · rw [roundHalfEven, roundHalfEven, heq]
    split
    · next hup =>
      rw [if_pos]
      rcases hup with hup | ⟨hhalf, hodd⟩
      · exact .inl (by linarith)
      · rcases eq_or_lt_of_le h with rfl | hlt
        · exact .inr ⟨hhalf, hodd⟩
        · exact .inl (by linarith)
    · split
      · omega
      · exact le_refl _
  · calc roundHalfEven p ≤ ⌊p⌋ + 1 := by
          rw [roundHalfEven]
          split <;> omega
      _ ≤ ⌊q⌋ := hlt
      _ ≤ roundHalfEven q := le_roundHalfEven (Int.floor_le q)

/-! ## The total -/

theorem weightedTotal_mono (h : ∀ dim, output.get dim ≤ output'.get dim) :
    weightedTotal output ≤ weightedTotal output' := by
  apply List.sum_le_sum
  intro entry hentry
  have hweight : 0 ≤ entry.2 := by
    have hall : ∀ entry ∈ dimensionWeights, 0 ≤ entry.2 := by decide +kernel
    exact hall entry hentry
  exact mul_le_mul_of_nonneg_right (h entry.1) hweight

theorem weightedTotal_mem : 0 ≤ weightedTotal output ∧ weightedTotal output ≤ 1 := by
  have hnonneg (dim : Dimension) : (0 : ℚ) ≤ output.get dim := (output.get dim).2.1
  have hle (dim : Dimension) : (output.get dim : ℚ) ≤ 1 := (output.get dim).2.2
  have htotal : weightedTotal output = output.get .skillMatch * (30 / 100) +
      (output.get .salaryFit * (25 / 100) + (output.get .seniorityFit * (15 / 100) +
        (output.get .workModeLocation * (15 / 100) + (output.get .contractType * (10 / 100) +
          output.get .redFlags * (5 / 100))))) := by
    simp [weightedTotal, dimensionWeights]
  rw [htotal]
  constructor
  · linarith [hnonneg .skillMatch, hnonneg .salaryFit, hnonneg .seniorityFit,
      hnonneg .workModeLocation, hnonneg .contractType, hnonneg .redFlags]
  · linarith [hle .skillMatch, hle .salaryFit, hle .seniorityFit, hle .workModeLocation,
      hle .contractType, hle .redFlags]

/-- No salary preference limits the rating of the salary. -/
def limitedRating (output : MatcherOutput) (profile : Profile) (dim : Dimension) : Rating :=
  if dim = .salaryFit ∧ profile.salaryMin = none ∧ profile.salaryTarget = none then
    conservative (output.get dim)
  else output.get dim

theorem get_applyMissingSalaryConservatism {dim : Dimension} :
    (applyMissingSalaryConservatism unicode output profile).get dim =
      limitedRating output profile dim := by
  rw [applyMissingSalaryConservatism, limitedRating]
  split
  · next hnone =>
    dsimp only
    split <;> cases dim <;> simp [MatcherOutput.get, hnone]
  · next hsome =>
    rw [if_neg fun h => hsome h.2]

theorem limitedRating_mono {dim : Dimension} (h : output.get dim ≤ output'.get dim) :
    limitedRating output profile dim ≤ limitedRating output' profile dim := by
  rw [limitedRating, limitedRating]
  split
  · exact Subtype.mk_le_mk.mpr (min_le_min_right _ h)
  · exact h

/-! ## The caps -/

/-- The caps that apply to the scores of an offer for a profile. -/
def capsFor (unicode : Unicode) (profile : Profile) (offer : Offer) : List Cap :=
  (if (dealBreakerHit unicode profile offer).isSome then [.dealBreaker] else []) ++
    if missingHardSkills unicode profile offer then [.missingHardSkill] else []

/-- What the caps that apply add to a rationale. -/
def capReasons (unicode : Unicode) (profile : Profile) (offer : Offer) : String :=
  (capMissingHardSkills unicode profile offer
    (capDealBreaker unicode profile offer ⟨0, "", []⟩)).rationale

/-- The rounded total of the limited ratings. -/
def roundedTotal (output : MatcherOutput) (profile : Profile) : Int :=
  roundHalfEven
    ((dimensionWeights.map fun (dim, weight) => (limitedRating output profile dim : ℚ) * weight).sum *
      100)

/-- The least of a total and of caps. -/
def capped (caps : List Cap) (total : Int) : Int :=
  (caps.map Cap.value).foldl min total

theorem capped_scoring {scoring : Scoring} :
    capMissingHardSkills unicode profile offer (capDealBreaker unicode profile offer scoring) =
      { scorePercent := capped (capsFor unicode profile offer) scoring.scorePercent
        rationale := scoring.rationale ++ capReasons unicode profile offer
        caps := scoring.caps ++ capsFor unicode profile offer } := by
  cases hdealBreaker : dealBreakerHit unicode profile offer <;>
    cases hmissing : missingHardSkills unicode profile offer <;>
      simp [capMissingHardSkills, capDealBreaker, capsFor, capReasons, capped, Scoring.apply,
        hdealBreaker, hmissing, String.append_assoc]

theorem capped_cons {caps : List Cap} {cap : Cap} {total : Int} :
    capped (cap :: caps) total = capped caps (min total cap.value) :=
  rfl

theorem capped_le {caps : List Cap} {total : Int} : capped caps total ≤ total := by
  induction caps generalizing total with
  | nil => exact le_refl total
  | cons cap caps ih =>
      rw [capped_cons]
      exact le_trans ih (min_le_left _ _)

theorem capped_le_of_mem {caps : List Cap} {total : Int} {cap : Cap} (h : cap ∈ caps) :
    capped caps total ≤ cap.value := by
  induction caps generalizing total with
  | nil => cases h
  | cons other caps ih =>
      rw [capped_cons]
      rcases List.mem_cons.mp h with rfl | h
      · exact le_trans capped_le (min_le_right _ _)
      · exact ih h

theorem capped_nonneg {caps : List Cap} {total : Int} (h : 0 ≤ total) : 0 ≤ capped caps total := by
  induction caps generalizing total with
  | nil => exact h
  | cons cap caps ih =>
      have hcap : 0 ≤ cap.value := by cases cap <;> decide
      rw [capped_cons]
      exact ih (le_min h hcap)

theorem capped_mono {caps : List Cap} {total total' : Int} (h : total ≤ total') :
    capped caps total ≤ capped caps total' := by
  induction caps generalizing total total' with
  | nil => exact h
  | cons cap caps ih =>
      rw [capped_cons, capped_cons]
      exact ih (min_le_min_right _ h)

/-! ## The score -/

theorem roundedTotal_eq : roundedTotal output profile =
    roundHalfEven (weightedTotal (applyMissingSalaryConservatism unicode output profile) * 100) := by
  rw [roundedTotal, weightedTotal]
  simp only [get_applyMissingSalaryConservatism]

theorem roundedTotal_mem : 0 ≤ roundedTotal output profile ∧ roundedTotal output profile ≤ 100 := by
  let unicode : Unicode := ⟨id, fun _ => false⟩
  obtain ⟨hnonneg, hle⟩ := @weightedTotal_mem (applyMissingSalaryConservatism unicode output profile)
  rw [@roundedTotal_eq unicode]
  constructor
  · apply le_roundHalfEven
    push_cast
    linarith
  · apply roundHalfEven_le
    push_cast
    linarith

theorem roundedTotal_mono (h : ∀ dim, output.get dim ≤ output'.get dim) :
    roundedTotal output profile ≤ roundedTotal output' profile := by
  let unicode : Unicode := ⟨id, fun _ => false⟩
  rw [@roundedTotal_eq unicode, @roundedTotal_eq unicode]
  apply roundHalfEven_mono
  apply mul_le_mul_of_nonneg_right _ (by norm_num)
  apply weightedTotal_mono
  intro dim
  rw [get_applyMissingSalaryConservatism, get_applyMissingSalaryConservatism]
  exact limitedRating_mono (h dim)

/-- The schema accepts every score. -/
theorem scoreOffer_eq (output : MatcherOutput) (offerId profileId : ℕ+) :
    ∃ score, scoreOffer unicode (.ok output) offerId profileId profile offer = .ok score ∧
      score.scorePercent = capped (capsFor unicode profile offer) (roundedTotal output profile) ∧
      score.caps = capsFor unicode profile offer ∧
      score.rationale = (applyMissingSalaryConservatism unicode output profile).rationale ++
        capReasons unicode profile offer := by
  obtain ⟨hnonneg, hle⟩ := @roundedTotal_mem profile output
  have hmem : 0 ≤ capped (capsFor unicode profile offer) (roundedTotal output profile) ∧
      capped (capsFor unicode profile offer) (roundedTotal output profile) ≤ 100 :=
    ⟨capped_nonneg hnonneg, le_trans capped_le hle⟩
  have htotal := @roundedTotal_eq unicode profile output
  rw [htotal] at hmem ⊢
  simp only [scoreOffer, capped_scoring]
  rw [dif_pos hmem]
  exact ⟨_, rfl, rfl, List.nil_append _, rfl⟩

/-- A score is between 0 and 100, the least of its rounded total and of the caps
that apply, and monotone in the ratings; the caps and what they add to the rationale
are the same for every answer of the language model. -/
theorem score_bounds_and_caps (unicode : Unicode) (profile : Profile) (offer : Offer)
    (output : MatcherOutput) (offerId profileId : ℕ+) :
    ∃ score, scoreOffer unicode (.ok output) offerId profileId profile offer = .ok score ∧
      (0 ≤ score.scorePercent ∧ score.scorePercent ≤ 100) ∧
      ((dealBreakerHit unicode profile offer).isSome = true → score.scorePercent ≤ 40) ∧
      (hardSkillNames profile ≠ [] ∧
          (∀ name ∈ hardSkillNames profile, ¬ IsHit unicode offer name) →
        score.scorePercent ≤ 25) ∧
      score.scorePercent = capped (capsFor unicode profile offer) (roundedTotal output profile) ∧
      score.caps = capsFor unicode profile offer ∧
      score.rationale = (applyMissingSalaryConservatism unicode output profile).rationale ++
        capReasons unicode profile offer ∧
      ∀ output' score',
        scoreOffer unicode (.ok output') offerId profileId profile offer = .ok score' →
          score'.caps = score.caps ∧
            ((∀ dim, output.get dim ≤ output'.get dim) →
              score.scorePercent ≤ score'.scorePercent) := by
  obtain ⟨score, hscore, hpercent, hcaps, hrationale⟩ :=
    @scoreOffer_eq unicode profile offer output offerId profileId
  refine ⟨score, hscore, score.scorePercent_le, ?_, ?_, hpercent, hcaps, hrationale, ?_⟩
  · intro hdealBreaker
    rw [hpercent]
    exact @capped_le_of_mem _ _ .dealBreaker (by simp [capsFor, hdealBreaker])
  · intro hmissing
    rw [hpercent]
    exact @capped_le_of_mem _ _ .missingHardSkill
      (by simp [capsFor, missingHardSkills_iff.mpr hmissing])
  · intro output' score' hscore'
    obtain ⟨other, hother, hpercent', hcaps', -⟩ :=
      @scoreOffer_eq unicode profile offer output' offerId profileId
    obtain rfl := Except.ok.inj (hother.symm.trans hscore')
    refine ⟨hcaps'.trans hcaps.symm, fun hle => ?_⟩
    rw [hpercent, hpercent']
    exact capped_mono (roundedTotal_mono hle)

end RecruFlow.Llm
