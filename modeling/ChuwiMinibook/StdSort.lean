import Mathlib.Data.List.Sort

namespace ChuwiMinibook

-- What std::sort promises for a strict weak order: a permutation in which no
-- later element is smaller than an earlier one. The order of equivalent
-- elements is left open, so results hold for every library that keeps this.
structure StdSort where
  sort : {α : Type} → (α → α → Bool) → List α → List α
  perm : ∀ {α : Type} (lt : α → α → Bool) (l : List α), (sort lt l).Perm l
  sorted : ∀ {α : Type} (lt : α → α → Bool) (l : List α),
    (∀ a b, lt a b = true → lt b a = false) →
    (∀ a b c, lt b a = false → lt c b = false → lt c a = false) →
    (sort lt l).Pairwise (fun a b => lt b a = false)

namespace StdSort

theorem mem_sort (srt : StdSort) {α : Type} (lt : α → α → Bool) (l : List α) (a : α) :
    a ∈ srt.sort lt l ↔ a ∈ l := (srt.perm lt l).mem_iff

-- Insertion sort, which is what the implementations run on short vectors.
def insertion : StdSort where
  sort lt l := l.insertionSort (fun a b => lt b a = false)
  perm lt l := List.perm_insertionSort _ l
  sorted lt l asymm trans := by
    have total : Std.Total (fun a b => lt b a = false) := by
      refine ⟨fun a b => ?_⟩
      cases forward : lt b a with
      | false => exact .inl rfl
      | true => exact .inr (asymm b a forward)
    have transitive : IsTrans _ (fun a b => lt b a = false) := ⟨fun a b c => trans a b c⟩
    exact List.pairwise_insertionSort _ l

end StdSort
end ChuwiMinibook
