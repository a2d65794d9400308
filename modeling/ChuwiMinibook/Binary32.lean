import Mathlib.Data.Int.Log
import Mathlib.Data.Rat.Floor
import Mathlib.Tactic.NormNum
import Mathlib.Tactic.Ring

namespace ChuwiMinibook.Binary32

-- The integer next to a number, a tie to the even one.
def nearest (q : ℚ) : Int :=
  let fraction := q-⌊q⌋
  if fraction < 1/2 ∨ (fraction = 1/2 ∧ ⌊q⌋%2 = 0) then ⌊q⌋ else ⌊q⌋+1

-- The place value of the last of 24 bits, which stops at the subnormal numbers.
def unit (q : ℚ) : ℚ := 2^(max (Int.log 2 |q|-23) (-149))

-- A number in single precision, below the range where it overflows.
def float (q : ℚ) : ℚ := nearest (q/unit q)*unit q

-- The conversion back to an integer cuts the fraction off.
def truncate (q : ℚ) : Int := if 0 ≤ q then ⌊q⌋ else ⌈q⌉

theorem nearest_int (z : Int) : nearest (z : ℚ) = z := by
  rw [nearest,Int.floor_intCast,sub_self]
  exact if_pos (.inl (by norm_num))

theorem truncate_int (z : Int) : truncate (z : ℚ) = z := by simp [truncate]

theorem unit_ne_zero (q : ℚ) : unit q ≠ 0 := zpow_ne_zero _ (by norm_num)

theorem float_multiple {q : ℚ} {z : Int} (multiple : q = z*unit q) : float q = q := by
  have quotient : q/unit q = z := (div_eq_iff (unit_ne_zero q)).mpr multiple
  rw [float,quotient,nearest_int,← multiple]

-- What has 24 bits from a place that singles reach is kept.
theorem float_exact {m k : Int} (short : |m| < 2^24) (low : -149 ≤ k) : float ((m : ℚ)*2^k) = m*2^k := by
  rcases eq_or_ne m 0 with zero | nonzero
  · subst zero
    rw [Int.cast_zero,zero_mul]
    exact float_multiple (z := 0) (by simp)
  · have positive : (0 : ℚ) < 2^k := zpow_pos (by norm_num) k
    have size : |(m : ℚ)*2^k| < 2^(k+24) := by
      rw [abs_mul,abs_of_pos positive,zpow_add₀ (by norm_num),mul_comm]
      have bound : |(m : ℚ)| < 2^24 := by exact_mod_cast short
      exact mul_lt_mul_of_pos_left (by exact_mod_cast bound) positive
    have log : Int.log 2 |(m : ℚ)*2^k| < k+24 := by
      refine (Int.lt_zpow_iff_log_lt (by decide) ?_).mp (by exact_mod_cast size)
      exact abs_pos.mpr (mul_ne_zero (by exact_mod_cast nonzero) positive.ne')
    -- The unit stands at or below the place of the last bit.
    obtain ⟨n,places⟩ : ∃ n : Nat,k = max (Int.log 2 |(m : ℚ)*2^k|-23) (-149)+n :=
      ⟨(k-max (Int.log 2 |(m : ℚ)*2^k|-23) (-149)).toNat,by omega⟩
    refine float_multiple (z := m*2^n) ?_
    rw [unit]
    generalize max (Int.log 2 |(m : ℚ)*2^k|-23) (-149) = e at places
    rw [places,zpow_add₀ (by norm_num),zpow_natCast]
    push_cast
    ring

theorem float_int {n : Int} (small : |n| < 2^24) : float n = n := by
  have exact := float_exact (k := 0) small (by decide)
  rwa [zpow_zero,mul_one] at exact

end ChuwiMinibook.Binary32
