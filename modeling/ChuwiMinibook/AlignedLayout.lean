import Mathlib.Data.Nat.Basic
import Mathlib.Data.List.Basic

namespace ChuwiMinibook.AlignedLayout

-- Items placed one behind the other, each at a multiple of its own size.
def roundUp (n size : Nat) : Nat := if n%size = 0 then n else n-n%size+size

section
variable {α : Type}

def slots (size : α → Nat) : Nat → List α → List (α×Nat)
  | _,[] => []
  | n,a::rest => (a,roundUp n (size a))::slots size (roundUp n (size a)+size a) rest

-- Where the last of them ends.
def extent (size : α → Nat) : Nat → List α → Nat
  | n,[] => n
  | n,a::rest => extent size (roundUp n (size a)+size a) rest

variable {size : α → Nat} {n : Nat} {items : List α}

theorem roundUp_dvd (n size : Nat) : size ∣ roundUp n size := by
  have whole : size ∣ n-n%size := Nat.dvd_sub_mod n
  unfold roundUp
  split
  · exact Nat.dvd_of_mod_eq_zero ‹_›
  · exact Nat.dvd_add whole (Nat.dvd_refl size)

theorem le_roundUp {size : Nat} (positive : 0 < size) : n ≤ roundUp n size := by
  have rest := Nat.mod_lt n positive
  unfold roundUp
  split <;> omega

theorem le_extent (positive : ∀ a ∈ items,0 < size a) : n ≤ extent size n items := by
  induction items generalizing n with
  | nil => exact Nat.le_refl n
  | cons a items ih =>
    rw [List.forall_mem_cons] at positive
    have first : n ≤ roundUp n (size a) := le_roundUp positive.1
    have rest : roundUp n (size a)+size a ≤ extent size n (a::items) := ih positive.2
    omega

-- One slot: a multiple of the size, behind the start, and before the end.
theorem slots_within (positive : ∀ a ∈ items,0 < size a) :
    ∀ s ∈ slots size n items,size s.1 ∣ s.2 ∧ n ≤ s.2 ∧ s.2+size s.1 ≤ extent size n items := by
  induction items generalizing n with
  | nil => simp [slots]
  | cons a items ih =>
    rw [List.forall_mem_cons] at positive
    have first : n ≤ roundUp n (size a) := le_roundUp positive.1
    intro s present
    rcases List.mem_cons.mp present with here | later
    · subst here
      exact ⟨roundUp_dvd n (size a),first,le_extent positive.2⟩
    · obtain ⟨aligned,behind,before⟩ := ih positive.2 s later
      exact ⟨aligned,by omega,before⟩

theorem slots_apart (positive : ∀ a ∈ items,0 < size a) :
    (slots size n items).Pairwise (fun s t => s.2+size s.1 ≤ t.2) := by
  induction items generalizing n with
  | nil => exact .nil
  | cons a items ih =>
    rw [List.forall_mem_cons] at positive
    exact .cons (fun t later => (slots_within positive.2 t later).2.1) (ih positive.2)

theorem slots_items : (slots size n items).map Prod.fst = items := by
  induction items generalizing n with
  | nil => rfl
  | cons a items ih => exact congrArg (a::·) ih

theorem mem_items {s : α×Nat} (present : s ∈ slots size n items) : s.1 ∈ items := by
  have among := List.mem_map_of_mem (f := Prod.fst) present
  rwa [slots_items] at among

end

end ChuwiMinibook.AlignedLayout
