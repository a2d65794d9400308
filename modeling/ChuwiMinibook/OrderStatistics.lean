import Mathlib.Algebra.Order.BigOperators.Group.List
import Mathlib.Algebra.Order.Field.Basic
import Mathlib.Order.Bounds.Basic
import Mathlib.Tactic.Linarith
import Mathlib.Tactic.Ring

namespace ChuwiMinibook.OrderStatistics

-- An operation that keeps one of its operands, folded over a list.
theorem foldl_chosen {α : Type} {le : α → α → Prop} {op : α → α → α} (refl : ∀ a,le a a) (trans : ∀ a b c,le a b → le b c → le a c)
    (left : ∀ a b,le a (op a b)) (right : ∀ a b,le b (op a b)) (choice : ∀ a b,op a b = a ∨ op a b = b) (x : α) (xs : List α) :
    xs.foldl op x ∈ x::xs ∧ ∀ y ∈ x::xs,le y (xs.foldl op x) := by
  induction xs generalizing x with
  | nil =>
    refine ⟨List.mem_singleton_self x,fun y member => ?_⟩
    rw [List.mem_singleton.mp member]
    exact refl x
  | cons z rest ih =>
    obtain ⟨member,beyond⟩ := ih (op x z)
    have front : le (op x z) (rest.foldl op (op x z)) := beyond _ List.mem_cons_self
    rw [List.foldl_cons]
    refine ⟨?_,fun y listed => ?_⟩
    · rcases List.mem_cons.mp member with same | later
      · rw [same]
        rcases choice x z with first | second
        · rw [first]
          exact List.mem_cons_self
        · rw [second]
          exact List.mem_cons_of_mem _ List.mem_cons_self
      · exact List.mem_cons_of_mem _ (List.mem_cons_of_mem _ later)
    · rcases List.mem_cons.mp listed with rfl | others
      · exact trans _ _ _ (left y z) front
      · rcases List.mem_cons.mp others with rfl | later
        · exact trans _ _ _ (right x y) front
        · exact beyond y (List.mem_cons_of_mem _ later)

section
variable {α : Type} [LinearOrder α]

-- A value of the list with half of the list on either side of it.
structure IsMedian (v : α) (xs : List α) : Prop where
  member : v ∈ xs
  low : xs.length ≤ 2*xs.countP (· ≤ v)
  high : xs.length ≤ 2*xs.countP (v ≤ ·)

theorem IsMedian.of_perm {v : α} {xs ys : List α} (median : IsMedian v xs) (perm : xs.Perm ys) : IsMedian v ys := by
  obtain ⟨member,low,high⟩ := median
  refine ⟨perm.mem_iff.mp member,?_,?_⟩
  · rwa [← perm.length_eq,← perm.countP_eq]
  · rwa [← perm.length_eq,← perm.countP_eq]

theorem median_between {x v y : α} (below : x ≤ v) (above : v ≤ y) : IsMedian v [x,v,y] := by
  refine ⟨by simp,?_,?_⟩
  · simp only [List.countP_cons,List.length_cons,List.length_nil,decide_eq_true below,decide_eq_true (le_refl v),if_true]
    omega
  · simp only [List.countP_cons,List.length_cons,List.length_nil,decide_eq_true above,decide_eq_true (le_refl v),if_true]
    omega

theorem foldl_max (x : α) (xs : List α) : IsGreatest {y | y ∈ x::xs} (xs.foldl max x) :=
  foldl_chosen le_refl (fun _ _ _ => le_trans) le_max_left le_max_right max_choice x xs

theorem foldl_min (x : α) (xs : List α) : IsLeast {y | y ∈ x::xs} (xs.foldl min x) := by
  have below : ∀ a b c : α,b ≤ a → c ≤ b → c ≤ a := fun _ _ _ first second => second.trans first
  exact @foldl_chosen α (fun a b => b ≤ a) min le_refl below min_le_left min_le_right min_choice x xs

end

theorem sum_erased {K : Type} [AddCommMonoid K] [DecidableEq K] {xs : List K} {x : K} (member : x ∈ xs) :
    xs.sum = x+(xs.erase x).sum ∧ (xs.erase x).length = xs.length-1 := by
  rw [← List.sum_cons]
  exact ⟨(List.perm_cons_erase member).sum_eq,List.length_erase_of_mem member⟩

section
variable {K : Type} [Field K] [LinearOrder K] [IsStrictOrderedRing K] {xs : List K} {lo hi : K}

-- What is left of a sum without its largest and its smallest part, per part.
theorem trimmed_between (least : IsLeast {x | x ∈ xs} lo) (greatest : IsGreatest {x | x ∈ xs} hi) (several : 2 < xs.length) :
    lo ≤ (xs.sum-lo-hi)/(xs.length-2 : Nat) ∧ (xs.sum-lo-hi)/(xs.length-2 : Nat) ≤ hi := by
  have parts : (0 : K) < (xs.length-2 : Nat) := Nat.cast_pos.mpr (by omega)
  have count : ((xs.length-1 : Nat) : K) = (xs.length-2 : Nat)+1 := by
    rw [show xs.length-1 = (xs.length-2)+1 by omega,Nat.cast_add,Nat.cast_one]
  constructor
  · obtain ⟨whole,size⟩ := sum_erased greatest.1
    have others : (xs.erase hi).length • lo ≤ (xs.erase hi).sum :=
      List.card_nsmul_le_sum _ _ fun x member => least.2 (List.mem_of_mem_erase member)
    rw [size,nsmul_eq_mul,count] at others
    rw [le_div_iff₀ parts,whole]
    linarith
  · obtain ⟨whole,size⟩ := sum_erased least.1
    have others : (xs.erase lo).sum ≤ (xs.erase lo).length • hi :=
      List.sum_le_card_nsmul _ _ fun x member => greatest.2 (List.mem_of_mem_erase member)
    rw [size,nsmul_eq_mul,count] at others
    rw [div_le_iff₀ parts,whole]
    linarith

end
end ChuwiMinibook.OrderStatistics
