import Mathlib.Data.List.Induction

namespace ChuwiMinibook.Streak

-- How often a value stands at the end of a sequence without another in between.
variable {α : Type} [DecidableEq α]

def streak (a : α) (xs : List α) : Nat := (xs.reverse.takeWhile (· = a)).length

@[simp] theorem streak_nil (a : α) : streak a [] = 0 := rfl

theorem streak_snoc (a b : α) (xs : List α) : streak a (xs++[b]) = if b = a then streak a xs+1 else 0 := by
  rw [streak,List.reverse_append,List.reverse_singleton,List.singleton_append,List.takeWhile_cons]
  by_cases same : b = a
  · simp [same,streak]
  · simp [same]

theorem streak_snoc_same (a : α) (xs : List α) : streak a (xs++[a]) = streak a xs+1 := by
  rw [streak_snoc,if_pos rfl]

theorem streak_snoc_other {a b : α} (other : b ≠ a) (xs : List α) : streak a (xs++[b]) = 0 := by
  rw [streak_snoc,if_neg other]

theorem replicate_suffix_iff (n : Nat) (a : α) (xs : List α) : List.replicate n a <:+ xs ↔ n ≤ streak a xs := by
  induction xs using List.reverseRecOn generalizing n with
  | nil => simp
  | append_singleton xs b ih =>
    cases n with
    | zero => simp
    | succ n =>
      rw [List.replicate_succ',List.suffix_concat_iff]
      by_cases same : b = a
      · subst b
        rw [streak_snoc_same,Nat.succ_le_succ_iff,← ih]
        constructor
        · intro given
          rcases given with empty | ⟨front,equal,suffix⟩
          · exact absurd empty (List.concat_ne_nil _ _)
          · rw [(List.append_inj' equal rfl).1]
            exact suffix
        · intro suffix
          exact .inr ⟨_,rfl,suffix⟩
      · rw [streak_snoc_other same]
        refine ⟨fun given => ?_,fun bound => absurd bound (by omega)⟩
        rcases given with empty | ⟨front,equal,_⟩
        · exact absurd empty (List.concat_ne_nil _ _)
        · exact absurd (List.singleton_inj.mp (List.append_inj' equal rfl).2).symm same

end ChuwiMinibook.Streak
