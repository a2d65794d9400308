import Mathlib.Algebra.Order.Field.Basic
import Mathlib.Tactic.Linarith
import Mathlib.Tactic.Ring

namespace ChuwiMinibook.MovingAverage
variable {K : Type*} [Field K] [LinearOrder K] [IsStrictOrderedRing K]

-- One step of an exponential average: the weight is that of the new value.
def blend (w old new : K) : K := (1-w)*old+w*new

section Weights
variable {w : K} (low : 0 ≤ w) (high : w ≤ 1)
include low high

theorem blend_mono {old new old' new' : K} (first : old ≤ old') (second : new ≤ new') :
    blend w old new ≤ blend w old' new' := by
  unfold blend
  apply add_le_add
  · exact mul_le_mul_of_nonneg_left first (sub_nonneg.mpr high)
  · exact mul_le_mul_of_nonneg_left second low

omit [LinearOrder K] [IsStrictOrderedRing K] low high in
theorem blend_self (c : K) : blend w c c = c := by
  unfold blend
  ring

-- A blend lies between the two values.
theorem blend_between (old new : K) : min old new ≤ blend w old new ∧ blend w old new ≤ max old new := by
  constructor
  · calc min old new = blend w (min old new) (min old new) := (blend_self _).symm
      _ ≤ blend w old new := blend_mono low high (min_le_left old new) (min_le_right old new)
  · calc blend w old new ≤ blend w (max old new) (max old new) :=
        blend_mono low high (le_max_left old new) (le_max_right old new)
      _ = max old new := blend_self _

theorem blend_within {a b old new : K} (first : a ≤ old ∧ old ≤ b) (second : a ≤ new ∧ new ≤ b) :
    a ≤ blend w old new ∧ blend w old new ≤ b := by
  obtain ⟨above,below⟩ := blend_between low high old new
  exact ⟨(le_min first.1 second.1).trans above,below.trans (max_le first.2 second.2)⟩

-- An average of values stays below the average of bounds on them.
theorem blend_abs {d a : K} (bound : |d| ≤ a) (x : K) : |blend w d x| ≤ blend w a |x| := by
  rw [abs_le]
  have negative : blend w (-a) (-|x|) = -blend w a |x| := by
    unfold blend
    ring
  rw [← negative]
  obtain ⟨above,below⟩ := abs_le.mp bound
  exact ⟨blend_mono low high above (neg_abs_le x),blend_mono low high below (le_abs_self x)⟩

end Weights

-- The quotient of an average by the average of bounds is a weight.
theorem quotient_weight {d a : K} (bound : |d| ≤ a) : 0 ≤ |d/a| ∧ |d/a| ≤ 1 := by
  have nonneg : 0 ≤ a := (abs_nonneg d).trans bound
  refine ⟨abs_nonneg _,?_⟩
  rw [abs_div,abs_of_nonneg nonneg]
  exact div_le_one_of_le₀ bound nonneg

end ChuwiMinibook.MovingAverage
