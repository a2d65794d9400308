import Mathlib.Data.List.Basic
import Mathlib.Algebra.Order.Ring.Int
import Mathlib.Order.Lattice

namespace ChuwiMinibook.Lz77
variable {α : Type}

-- A copy from a distance behind the end, one element at a time, so that it may
-- repeat what it writes itself.
def extend (distance : Nat) : Nat → List α → List α
  | 0,out => out
  | n+1,out => extend distance n (out ++ (out[out.length-distance]?).toList)

@[simp] theorem extend_zero (distance : Nat) (out : List α) : extend distance 0 out = out := rfl

theorem extend_add (distance m n : Nat) (out : List α) :
    extend distance (m+n) out = extend distance n (extend distance m out) := by
  induction m generalizing out with
  | zero => rw [Nat.zero_add,extend_zero]
  | succ m ih => rw [Nat.succ_add,extend,extend,ih]

theorem snoc_length {distance : Nat} {out : List α} (pos : 0 < distance) (behind : distance ≤ out.length) :
    (out ++ (out[out.length-distance]?).toList).length = out.length+1 := by
  have inside : out.length-distance < out.length := by omega
  rw [List.getElem?_eq_getElem inside,Option.toList_some,List.length_append,List.length_singleton]

theorem extend_length {distance n : Nat} {out : List α} (pos : 0 < distance) (behind : distance ≤ out.length) :
    (extend distance n out).length = out.length+n := by
  induction n generalizing out with
  | zero => rfl
  | succ n ih =>
    have longer := snoc_length pos behind
    rw [extend,ih (by omega),longer]
    omega

theorem extend_shorter (distance n : Nat) (out : List α) : out <+: extend distance n out := by
  induction n generalizing out with
  | zero => exact List.prefix_refl out
  | succ n ih => exact (List.prefix_append out _).trans (ih _)

theorem extend_take {distance n : Nat} {out : List α} : (extend distance n out).take out.length = out :=
  (List.prefix_iff_eq_take.mp (extend_shorter distance n out)).symm

end ChuwiMinibook.Lz77
