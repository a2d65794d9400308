import Mathlib.Data.List.Induction
import Mathlib.Data.List.Perm.Basic
import Mathlib.Order.Lattice

namespace ChuwiMinibook.EndInsertion

-- A list that grows at its ends only: a new element goes behind a larger first one
-- and in front of any other.
section
variable {ι α : Type} [LinearOrder α]

def add (xs : List α) (f : α) : List α :=
  match xs with
  | [] => [f]
  | first::_ => if f < first then xs++[f] else f::xs

def collect (fs : List α) : List α := fs.foldl add []

-- Each element is above all earlier ones or below all earlier ones.
def Extreme (key : ι → α) (fs : List ι) : Prop :=
  ∀ before f after,fs = before++f::after → (∀ g ∈ before,key g < key f) ∨ (∀ g ∈ before,key f < key g)

-- The first element is the largest.
def Headed (xs : List α) : Prop := ∀ first ∈ xs.head?,∀ x ∈ xs,x ≤ first

variable {xs fs : List α} {f : α}

theorem add_perm : (add xs f).Perm (f::xs) := by
  unfold add
  split
  · exact .refl _
  · split
    · exact List.perm_append_singleton _ _
    · exact .refl _

theorem collect_snoc (fs : List α) (f : α) : collect (fs++[f]) = add (collect fs) f := List.foldl_append

theorem collect_perm : (collect fs).Perm fs := by
  induction fs using List.reverseRecOn with
  | nil => exact .refl _
  | append_singleton fs f ih =>
    rw [collect_snoc]
    exact (add_perm.trans (ih.cons f)).trans (List.perm_append_singleton f fs).symm

theorem add_headed (headed : Headed xs) : Headed (add xs f) := by
  cases xs with
  | nil =>
    intro first isFirst x member
    cases Option.some.inj isFirst
    exact (List.mem_singleton.mp member).le
  | cons head rest =>
    have largest := headed head rfl
    intro first isFirst x member
    by_cases below : f < head
    · have appended : add (head::rest) f = head::(rest++[f]) := if_pos below
      rw [appended] at isFirst member
      cases Option.some.inj isFirst
      rcases List.mem_append.mp (show x ∈ (head::rest)++[f] from member) with old | new
      · exact largest x old
      · rw [List.mem_singleton.mp new]
        exact below.le
    · have inserted : add (head::rest) f = f::head::rest := if_neg below
      rw [inserted] at isFirst member
      cases Option.some.inj isFirst
      rcases List.mem_cons.mp member with rfl | old
      · exact le_refl _
      · exact (largest x old).trans (not_lt.mp below)

theorem collect_headed : Headed (collect fs) := by
  induction fs using List.reverseRecOn with
  | nil =>
    intro first isFirst
    cases isFirst
  | append_singleton fs f ih =>
    rw [collect_snoc]
    exact add_headed ih

-- Whichever end takes the element, the rest keeps its order, so the list is in order
-- afterwards exactly when it was and the element belongs there.
theorem add_descending (headed : Headed xs) (new : f ∉ xs) :
    (add xs f).Pairwise (· > ·) ↔ xs.Pairwise (· > ·) ∧ ((∀ g ∈ xs,g < f) ∨ (∀ g ∈ xs,f < g)) := by
  cases xs with
  | nil => simp [add]
  | cons head rest =>
    have largest := headed head rfl
    by_cases below : f < head
    · have appended : add (head::rest) f = (head::rest)++[f] := if_pos below
      rw [appended,List.pairwise_append]
      constructor
      · rintro ⟨old,_,last⟩
        exact ⟨old,.inr fun g member => last g member f (List.mem_singleton_self f)⟩
      · rintro ⟨old,above | under⟩
        · exact absurd (above head List.mem_cons_self) below.asymm
        · refine ⟨old,List.pairwise_singleton _ _,fun g member x isNew => ?_⟩
          rw [List.mem_singleton.mp isNew]
          exact under g member
    · have inserted : add (head::rest) f = f::head::rest := if_neg below
      have above : ∀ g ∈ head::rest,g < f := fun g member =>
        lt_of_le_of_ne ((largest g member).trans (not_lt.mp below)) (fun same => new (same ▸ member))
      rw [inserted,List.pairwise_cons]
      constructor
      · exact fun both => ⟨both.2,.inl both.1⟩
      · exact fun both => ⟨above,both.1⟩

theorem extreme_snoc {key : ι → α} {fs : List ι} {f : ι} : Extreme key (fs++[f]) ↔
    Extreme key fs ∧ ((∀ g ∈ fs,key g < key f) ∨ (∀ g ∈ fs,key f < key g)) := by
  constructor
  · intro extreme
    refine ⟨fun before g after split => extreme before g (after++[f]) ?_,extreme fs f [] rfl⟩
    rw [split,List.append_assoc,List.cons_append]
  · rintro ⟨extreme,last⟩ before g after split
    rcases List.eq_nil_or_concat after with rfl | ⟨initial,final,rfl⟩
    · obtain ⟨rfl,same⟩ := List.append_inj' split rfl
      cases same
      exact last
    · have regroup : fs++[f] = (before++g::initial)++[final] := by
        rw [split,List.concat_eq_append,List.append_assoc,List.cons_append]
      exact extreme before g initial (List.append_inj' regroup rfl).1

theorem extreme_iff {key : ι → α} {fs : List ι} : Extreme key fs ↔ ∀ i (inside : i < fs.length),
    (∀ g ∈ fs.take i,key g < key fs[i]) ∨ (∀ g ∈ fs.take i,key fs[i] < key g) := by
  constructor
  · intro extreme i inside
    have split : fs.take i++fs[i]::fs.drop (i+1) = fs := by
      rw [← List.drop_eq_getElem_cons inside,List.take_append_drop]
    exact extreme _ _ _ split.symm
  · rintro each before f after rfl
    have here := each before.length (by simp)
    simpa using here

instance (key : ι → α) (fs : List ι) : Decidable (Extreme key fs) := decidable_of_iff' _ extreme_iff

theorem extreme_congr {β : Type} [LinearOrder β] {key : ι → α} {key' : ι → β} {fs : List ι}
    (same : ∀ f ∈ fs,∀ g ∈ fs,key f < key g ↔ key' f < key' g) : Extreme key fs ↔ Extreme key' fs := by
  unfold Extreme
  refine forall_congr' fun before => forall_congr' fun f => forall_congr' fun after => imp_congr_right fun split => ?_
  have here : f ∈ fs := by simp [split]
  have earlier : ∀ g ∈ before,g ∈ fs := fun g member => by simp [split,member]
  exact or_congr (forall₂_congr fun g member => same g (earlier g member) f here)
    (forall₂_congr fun g member => same f here g (earlier g member))

theorem collect_descending {key : ι → α} {fs : List ι} (distinct : (fs.map key).Nodup) :
    (collect (fs.map key)).Pairwise (· > ·) ↔ Extreme key fs := by
  induction fs using List.reverseRecOn with
  | nil =>
    refine iff_of_true List.Pairwise.nil fun before f after split => ?_
    simp at split
  | append_singleton fs f ih =>
    rw [List.map_append,List.map_singleton] at distinct ⊢
    obtain ⟨earlier,_,apart⟩ := List.nodup_append.mp distinct
    have new : key f ∉ collect (fs.map key) := fun member =>
      apart (key f) (collect_perm.mem_iff.mp member) (key f) (List.mem_singleton_self _) rfl
    rw [collect_snoc,add_descending collect_headed new,ih earlier,extreme_snoc]
    simp only [collect_perm.mem_iff,List.forall_mem_map]

end
end ChuwiMinibook.EndInsertion
