import Mathlib.Algebra.Order.Field.Basic
import Mathlib.Algebra.BigOperators.Group.List.Basic
import Mathlib.Algebra.BigOperators.Ring.List
import Mathlib.Tactic.FieldSimp
import Mathlib.Tactic.Ring

namespace ChuwiMinibook.Variance
variable {K : Type*} [Field K]

def mean (xs : List K) : K := xs.sum/xs.length

def squares (xs : List K) : K := (xs.map (fun x => x*x)).sum

-- The variance of a sample, from the distances to its mean.
def variance (xs : List K) : K := (xs.map (fun x => (x-mean xs)^2)).sum/(xs.length-1 : Nat)

theorem deviations (xs : List K) (c : K) :
    (xs.map (fun x => (x-c)^2)).sum = squares xs-2*c*xs.sum+xs.length*c^2 := by
  induction xs with
  | nil => simp [squares]
  | cons x xs ih =>
    rw [List.map_cons,List.sum_cons,ih,List.sum_cons,List.length_cons,squares,squares,List.map_cons,List.sum_cons]
    push_cast
    ring

-- The same value from the sum and the sum of squares.
theorem variance_sums [CharZero K] {xs : List K} (several : 1 < xs.length) :
    variance xs = (squares xs*xs.length-xs.sum*xs.sum)/(xs.length*(xs.length-1 : Nat)) := by
  have whole : (xs.length : K) ≠ 0 := Nat.cast_ne_zero.mpr (by omega)
  have less : ((xs.length-1 : Nat) : K) ≠ 0 := Nat.cast_ne_zero.mpr (by omega)
  rw [variance,deviations,mean]
  field_simp
  ring

end ChuwiMinibook.Variance
