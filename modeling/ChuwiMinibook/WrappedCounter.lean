import Mathlib.Algebra.Order.Group.Nat
import Mathlib.Algebra.Order.Floor.Ring
import Mathlib.Tactic.Ring

namespace ChuwiMinibook.WrappedCounter

-- A quantity that grows, shown by a counter that starts over at M, and read in
-- units of u: the counter in units, the laps it has made, and the quantity that
-- is made up again from both, the units of one lap rounded down.
variable (u M : Nat)

def shown (e : Nat) : Nat := e % M/u

def span : Nat := M/u

def total (e : Nat) : Nat := shown u M e+e/M*span u M

section Bounds
variable {u M}

theorem shown_le (positive : 0 < M) (e : Nat) : shown u M e ≤ span u M :=
  Nat.div_le_div_right (Nat.le_of_lt (Nat.mod_lt e positive))

theorem same_lap {e e' : Nat} (grows : e ≤ e') (lap : e'/M = e/M) : e % M ≤ e' % M := by
  have first := Nat.div_add_mod e M
  have second := Nat.div_add_mod e' M
  rw [lap] at second
  omega

-- The quantity made up again never falls.
theorem total_mono {e e' : Nat} (grows : e ≤ e') : total u M e ≤ total u M e' := by
  rcases Nat.eq_or_lt_of_le (Nat.div_le_div_right (c := M) grows) with same | later
  · have ahead := Nat.div_le_div_right (c := u) (same_lap grows same.symm)
    unfold total shown
    rw [same]
    omega
  · have positive : 0 < M := by
      refine Nat.pos_of_ne_zero ?_
      rintro rfl
      rw [Nat.div_zero,Nat.div_zero] at later
      exact Nat.not_lt_zero _ later
    have whole := shown_le (u := u) positive e
    have next : (e/M+1)*span u M ≤ e'/M*span u M := Nat.mul_le_mul_right _ later
    unfold total
    rw [Nat.add_one_mul] at next
    omega

-- It falls behind by less than one unit for each lap and one for the present one.
theorem total_le (e : Nat) : u*total u M e ≤ e := by
  have lap := Nat.div_add_mod e M
  have units := Nat.mul_div_le (e % M) u
  have each := Nat.mul_le_mul_right (e/M) (Nat.mul_div_le M u)
  unfold total shown span
  calc u*(e % M/u+e/M*(M/u)) = u*(e % M/u)+u*(M/u)*(e/M) := by ring
    _ ≤ e % M+M*(e/M) := by omega
    _ = e := by omega

theorem lt_total (unit : 0 < u) (e : Nat) : e < u*(total u M e+e/M+1) := by
  have lap := Nat.div_add_mod e M
  have units := Nat.lt_mul_div_succ (e % M) unit
  have each := Nat.mul_le_mul_right (e/M) (Nat.le_of_lt (Nat.lt_mul_div_succ M unit))
  unfold total shown span
  calc e = M*(e/M)+e % M := lap.symm
    _ < u*(M/u+1)*(e/M)+u*(e % M/u+1) := by omega
    _ = u*(e % M/u+e/M*(M/u)+e/M+1) := by ring

end Bounds

-- A latch that is set in the upper half tells a new lap, when the quantity grows
-- by less than half a lap from one reading to the next.
section Latch
variable {u M} {e e' : Nat} (grows : e ≤ e') (near : e'+u < e+u*(span u M/2))
include grows near

theorem next_lap : e'/M = e/M ∨ e'/M = e/M+1 := by
  have half : u*(span u M/2) ≤ M := by
    have once := Nat.mul_le_mul_left u (Nat.div_le_self (span u M) 2)
    exact Nat.le_trans once (Nat.mul_div_le M u)
  rcases Nat.eq_zero_or_pos M with zero | positive
  · left
    rw [zero,Nat.div_zero,Nat.div_zero]
  · have up := Nat.div_le_div_right (c := M) grows
    have bound : e'/M ≤ (e+M)/M := Nat.div_le_div_right (by omega)
    rw [Nat.add_div_right e positive] at bound
    omega

theorem lap_crossed (lap : e'/M = e/M+1) : span u M/2 < shown u M e ∧ shown u M e' < span u M/2 := by
  rcases Nat.eq_zero_or_pos M with zero | positive
  · rw [zero,Nat.div_zero,Nat.div_zero] at lap
    omega
  rcases Nat.eq_zero_or_pos u with none | unit
  · rw [none] at near
    omega
  have first := Nat.div_add_mod e M
  have second := Nat.div_add_mod e' M
  rw [lap,Nat.mul_add,Nat.mul_one] at second
  have low := Nat.mod_lt e positive
  have twice : u*(span u M/2)+u*(span u M/2) ≤ M := by
    have parts : span u M/2+span u M/2 ≤ span u M := by omega
    have scaled := Nat.mul_le_mul_left u parts
    rw [Nat.mul_add] at scaled
    exact Nat.le_trans scaled (Nat.mul_div_le M u)
  constructor
  · refine (Nat.le_div_iff_mul_le unit).mpr ?_
    rw [Nat.succ_mul,Nat.mul_comm]
    omega
  · refine (Nat.div_lt_iff_lt_mul unit).mpr ?_
    rw [Nat.mul_comm]
    omega

end Latch
end ChuwiMinibook.WrappedCounter
