import Mathlib.Algebra.Order.Field.Basic
import Mathlib.Analysis.SpecialFunctions.Log.Base
import Mathlib.Data.Rat.Cast.OfScientific
import Mathlib.Tactic.LinearCombination

/-!
The body composition (`body_composition/body_composition.c`) over an ordered field, where a
logarithm of a number that is not positive and a quotient by zero have no value.

`percentage` is the formula both genders share. `calculateBodyComposition` stores what it gives,
defined or not: of the inputs outside `InDomain`, only a female's without hips is rejected
(`bodyComposition_sound_iff`).
-/

namespace SmartScale.BodyComposition

/-- `log10`, which has a value at positive numbers only. -/
structure Log10 (𝕜 : Type*) [Zero 𝕜] [LT 𝕜] where
  toFun : 𝕜 → Option 𝕜
  isSome_iff : ∀ x, (toFun x).isSome ↔ 0 < x

/-- `gender_t` -/
inductive Gender where
  | male
  | female
deriving DecidableEq, Repr

/-- `body_input_t` -/
structure BodyInput (𝕜 : Type*) where
  gender : Gender
  age : Int
  heightCm : 𝕜
  neckCm : 𝕜
  waistCm : 𝕜
  hipCm : 𝕜

/-- `body_composition_t`; a member computed from an undefined value is `none`. -/
structure BodyCompositionT (𝕜 : Type*) where
  bodyFatPercentage : Option 𝕜
  fatMassKg : Option 𝕜
  leanMassKg : Option 𝕜
deriving DecidableEq

/-- A member of the stored document. -/
inductive Item (𝕜 : Type*) where
  | string (s : String)
  | number (v : Option 𝕜)

/-- The document of `/spiffs/body_comp.json`. -/
abbrev Document (𝕜 : Type*) := List (String × Item 𝕜)

/-- Whether `cJSON_Print` and `fopen` succeed. -/
structure Saving where
  print : Bool
  openForWriting : Bool

/-- What a call leaves in `*output` and in the file, and what it returns. -/
structure Outcome (𝕜 : Type*) where
  output : Option (BodyCompositionT 𝕜)
  file : Option (Document 𝕜)
  returned : Bool

/-- The coefficients of a formula. -/
structure Coefficients (𝕜 : Type*) where
  constant : 𝕜
  girth : 𝕜
  height : 𝕜

section Model

variable {𝕜 : Type*} [Field 𝕜] [LinearOrder 𝕜]

def maleCoefficients : Coefficients 𝕜 := ⟨1.0324, 0.19077, 0.15456⟩

def femaleCoefficients : Coefficients 𝕜 := ⟨1.29579, 0.35004, 0.22100⟩

def coefficients : Gender → Coefficients 𝕜
  | .male => maleCoefficients
  | .female => femaleCoefficients

/-- The argument of the first logarithm. -/
def BodyInput.girth (input : BodyInput 𝕜) : 𝕜 :=
  match input.gender with
  | .male => input.waistCm - input.neckCm
  | .female => input.waistCm + input.hipCm - input.neckCm

/-- `weight_kg` -/
def weightKg : 𝕜 := 70

def denominator (log10 : Log10 𝕜) (c : Coefficients 𝕜) (girth height : 𝕜) : Option 𝕜 := do
  let girthLog ← log10.toFun girth
  let heightLog ← log10.toFun height
  return c.constant - c.girth * girthLog + c.height * heightLog

/-- `body_fat` -/
def percentage (log10 : Log10 𝕜) (c : Coefficients 𝕜) (girth height : 𝕜) : Option 𝕜 := do
  let d ← denominator log10 c girth height
  if d = 0 then none else return 495 / d - 450

/-- The object `save_body_composition_json` prints. -/
def document (input : BodyInput 𝕜) (output : BodyCompositionT 𝕜) : Document 𝕜 :=
  [("gender", .string (if input.gender = .male then "male" else "female")),
    ("age", .number (some (input.age : 𝕜))),
    ("height_cm", .number (some input.heightCm)),
    ("neck_cm", .number (some input.neckCm)),
    ("waist_cm", .number (some input.waistCm))] ++
  (if input.gender = .female then [("hip_cm", .number (some input.hipCm))] else []) ++
  [("body_fat_percentage", .number output.bodyFatPercentage),
    ("fat_mass_kg", .number output.fatMassKg),
    ("lean_mass_kg", .number output.leanMassKg)]

/-- `save_body_composition_json`: the file it leaves. -/
def saveBodyCompositionJson (file : Option (Document 𝕜)) (input : BodyInput 𝕜)
    (output : BodyCompositionT 𝕜) (saving : Saving) : Option (Document 𝕜) :=
  if saving.print && saving.openForWriting then some (document input output) else file

/-- The end of `calculate_body_composition`, for either gender. -/
def storeBodyComposition (bodyFat : Option 𝕜) (input : BodyInput 𝕜) (file : Option (Document 𝕜))
    (saving : Saving) : Outcome 𝕜 :=
  let fatMass := bodyFat.map fun bodyFat => bodyFat / 100 * weightKg
  let leanMass := fatMass.map fun fatMass => weightKg - fatMass
  let output := ⟨bodyFat, fatMass, leanMass⟩
  ⟨some output, saveBodyCompositionJson file input output saving, true⟩

/-- `calculate_body_composition`. A NULL pointer is `none`. -/
def calculateBodyComposition (log10 : Log10 𝕜) (input : Option (BodyInput 𝕜))
    (output : Option (BodyCompositionT 𝕜)) (file : Option (Document 𝕜)) (saving : Saving) :
    Outcome 𝕜 :=
  match input, output with
  | some input, some _ =>
      match input.gender with
      | .male =>
          storeBodyComposition
            (percentage log10 maleCoefficients (input.waistCm - input.neckCm) input.heightCm)
            input file saving
      | .female =>
          if input.hipCm ≤ 0 then ⟨output, file, false⟩
          else
            storeBodyComposition
              (percentage log10 femaleCoefficients
                (input.waistCm + input.hipCm - input.neckCm) input.heightCm)
              input file saving
  | _, _ => ⟨output, file, false⟩

/-! ### The domain of the formula -/

/-- Both logarithms are defined, and so is the quotient; females have hips. -/
structure InDomain (log10 : Log10 𝕜) (input : BodyInput 𝕜) : Prop where
  girth : 0 < input.girth
  height : 0 < input.heightCm
  quotient : denominator log10 (coefficients input.gender) input.girth input.heightCm ≠ some 0
  hips : input.gender = .female → 0 < input.hipCm

/-- `v` is the percentage of the formula. -/
def IsPercentage (log10 : Log10 𝕜) (input : BodyInput 𝕜) (v : 𝕜) : Prop :=
  ∃ girthLog heightLog, log10.toFun input.girth = some girthLog ∧
    log10.toFun input.heightCm = some heightLog ∧
    (v + 450) * ((coefficients input.gender).constant -
      (coefficients input.gender).girth * girthLog +
      (coefficients input.gender).height * heightLog) = 495

/-- The contract: inputs in the domain, and no others, are accepted and give the percentage, with
masses that add up to the weight; for the others nothing changes. -/
structure Sound (log10 : Log10 𝕜) (input : BodyInput 𝕜) (output : BodyCompositionT 𝕜)
    (file : Option (Document 𝕜)) (result : Outcome 𝕜) : Prop where
  accepts : result.returned = true ↔ InDomain log10 input
  computes : result.returned = true → ∃ bodyFat fatMass leanMass,
    result.output = some ⟨some bodyFat, some fatMass, some leanMass⟩ ∧
    IsPercentage log10 input bodyFat ∧ fatMass + leanMass = weightKg
  rejects : result.returned = false → result.output = some output ∧ result.file = file

section Formula

variable {log10 : Log10 𝕜} {c : Coefficients 𝕜} {girth height v : 𝕜}

theorem denominator_isSome_iff (log10 : Log10 𝕜) (c : Coefficients 𝕜) :
    (denominator log10 c girth height).isSome ↔ 0 < girth ∧ 0 < height := by
  rw [← log10.isSome_iff girth, ← log10.isSome_iff height, denominator]
  cases log10.toFun girth with
  | none => simp
  | some girthLog =>
      cases log10.toFun height with
      | none => simp
      | some heightLog => simp

theorem denominator_eq_some {d : 𝕜} (h : denominator log10 c girth height = some d) :
    ∃ girthLog heightLog, log10.toFun girth = some girthLog ∧
      log10.toFun height = some heightLog ∧
      c.constant - c.girth * girthLog + c.height * heightLog = d := by
  obtain ⟨girthLog, hg, rest⟩ := Option.bind_eq_some_iff.mp h
  obtain ⟨heightLog, hh, value⟩ := Option.bind_eq_some_iff.mp rest
  exact ⟨girthLog, heightLog, hg, hh, Option.some.inj value⟩

/-- The formula has a value exactly where its three partial operations have one. -/
theorem percentage_isSome_iff :
    (percentage log10 c girth height).isSome ↔
      0 < girth ∧ 0 < height ∧ denominator log10 c girth height ≠ some 0 := by
  rw [← and_assoc, ← denominator_isSome_iff log10 c, percentage]
  cases denominator log10 c girth height with
  | none => simp
  | some d => by_cases zero : d = 0 <;> simp [zero]

theorem percentage_eq_some (h : percentage log10 c girth height = some v) :
    ∃ girthLog heightLog, log10.toFun girth = some girthLog ∧
      log10.toFun height = some heightLog ∧
      (v + 450) * (c.constant - c.girth * girthLog + c.height * heightLog) = 495 := by
  obtain ⟨d, hd, rest⟩ := Option.bind_eq_some_iff.mp h
  obtain ⟨girthLog, heightLog, hg, hh, value⟩ := denominator_eq_some hd
  refine ⟨girthLog, heightLog, hg, hh, ?_⟩
  split at rest
  · exact absurd rest.symm (Option.some_ne_none v)
  · rename_i nonzero
    obtain rfl := Option.some.inj rest
    rw [value, sub_add_cancel, div_mul_cancel₀ _ nonzero]

end Formula

section Calls

variable {log10 : Log10 𝕜} {input : BodyInput 𝕜} {output : BodyCompositionT 𝕜}
  {file : Option (Document 𝕜)} {saving : Saving}

/-- The percentage of an input. -/
def BodyInput.bodyFat (input : BodyInput 𝕜) (log10 : Log10 𝕜) : Option 𝕜 :=
  percentage log10 (coefficients input.gender) input.girth input.heightCm

/-- A female without hips is rejected. -/
theorem calculateBodyComposition_rejected (female : input.gender = .female)
    (hips : input.hipCm ≤ 0) :
    calculateBodyComposition log10 (some input) (some output) file saving =
      ⟨some output, file, false⟩ := by
  simp only [calculateBodyComposition, female, if_pos hips]

/-- Everybody else is not. -/
theorem calculateBodyComposition_stored (others : ¬ (input.gender = .female ∧ input.hipCm ≤ 0)) :
    calculateBodyComposition log10 (some input) (some output) file saving =
      storeBodyComposition (input.bodyFat log10) input file saving := by
  unfold calculateBodyComposition BodyInput.bodyFat BodyInput.girth
  cases gender : input.gender with
  | male => simp only [gender, coefficients]
  | female =>
      have hips : ¬ input.hipCm ≤ 0 := fun none => others ⟨gender, none⟩
      simp only [gender, coefficients, if_neg hips]

theorem inDomain_iff (others : ¬ (input.gender = .female ∧ input.hipCm ≤ 0)) :
    InDomain log10 input ↔ (input.bodyFat log10).isSome := by
  rw [BodyInput.bodyFat, percentage_isSome_iff]
  constructor
  · intro domain
    exact ⟨domain.girth, domain.height, domain.quotient⟩
  · rintro ⟨girth, height, quotient⟩
    exact ⟨girth, height, quotient, fun female => not_le.mp fun none => others ⟨female, none⟩⟩

theorem sound_of_rejected (female : input.gender = .female) (hips : input.hipCm ≤ 0) :
    Sound log10 input output file
      (calculateBodyComposition log10 (some input) (some output) file saving) := by
  rw [calculateBodyComposition_rejected female hips]
  refine ⟨?_, fun accepted => absurd accepted Bool.false_ne_true, fun _ => ⟨rfl, rfl⟩⟩
  exact iff_of_false Bool.false_ne_true fun domain => (domain.hips female).not_ge hips

theorem sound_of_inDomain (domain : InDomain log10 input) :
    Sound log10 input output file
      (calculateBodyComposition log10 (some input) (some output) file saving) := by
  have others : ¬ (input.gender = .female ∧ input.hipCm ≤ 0) :=
    fun ⟨female, hips⟩ => (domain.hips female).not_ge hips
  obtain ⟨bodyFat, value⟩ := Option.isSome_iff_exists.mp ((inDomain_iff others).mp domain)
  rw [calculateBodyComposition_stored others, value]
  refine ⟨iff_of_true rfl domain, fun _ => ?_, fun rejected => nomatch rejected⟩
  refine ⟨bodyFat, bodyFat / 100 * weightKg, weightKg - bodyFat / 100 * weightKg, rfl, ?_, ?_⟩
  · exact percentage_eq_some value
  · exact add_sub_cancel _ _

/-- **The contract is kept exactly in the domain of the formula and by the one check that is
made.** -/
theorem bodyComposition_sound_iff (log10 : Log10 𝕜) (input : BodyInput 𝕜)
    (output : BodyCompositionT 𝕜) (file : Option (Document 𝕜)) (saving : Saving) :
    Sound log10 input output file
        (calculateBodyComposition log10 (some input) (some output) file saving) ↔
      InDomain log10 input ∨ (input.gender = .female ∧ input.hipCm ≤ 0) := by
  constructor
  · intro sound
    by_cases rejected : input.gender = .female ∧ input.hipCm ≤ 0
    · exact .inr rejected
    · refine .inl (sound.accepts.mp ?_)
      rw [calculateBodyComposition_stored rejected]
      rfl
  · rintro (domain | ⟨female, hips⟩)
    · exact sound_of_inDomain domain
    · exact sound_of_rejected female hips

end Calls

end Model

/-! ### The real logarithm -/

noncomputable section

open Classical in
/-- The logarithm of the reals to base 10. -/
def realLog10 : Log10 ℝ where
  toFun x := if 0 < x then some (Real.logb 10 x) else none
  isSome_iff x := by
    split
    · rename_i positive
      exact iff_of_true rfl positive
    · rename_i negative
      exact iff_of_false Bool.false_ne_true negative

/-- A man whose waist is no wider than his neck. -/
def narrowWaist : BodyInput ℝ := ⟨.male, 30, 180, 40, 40, 0⟩

theorem bodyFat_narrowWaist : narrowWaist.bodyFat realLog10 = none := by
  rw [BodyInput.bodyFat, Option.eq_none_iff_forall_ne_some]
  intro v value
  have domain := percentage_isSome_iff.mp (Option.isSome_iff_exists.mpr ⟨v, value⟩)
  have positive : (0 : ℝ) < 40 - 40 := domain.1
  norm_num at positive

/-- He is accepted, though the formula gives him no percentage: `log10f(0)` is an infinity, from
which the code stores -450, -315 and 385. -/
theorem bodyComposition_narrow_waist :
    let result := calculateBodyComposition realLog10 (some narrowWaist)
      (some ⟨some 20, some 14, some 56⟩) none ⟨true, true⟩
    result.returned = true ∧ result.output = some ⟨none, none, none⟩ ∧
      ¬ Sound realLog10 narrowWaist ⟨some 20, some 14, some 56⟩ none result := by
  intro result
  have stored : result = storeBodyComposition none narrowWaist none ⟨true, true⟩ := by
    rw [← bodyFat_narrowWaist]
    exact calculateBodyComposition_stored fun rejected => nomatch rejected.1
  refine ⟨by rw [stored]; rfl, by rw [stored]; rfl, fun sound => ?_⟩
  have positive : (0 : ℝ) < 40 - 40 := (sound.accepts.mp (by rw [stored]; rfl)).girth
  norm_num at positive

end

end SmartScale.BodyComposition
