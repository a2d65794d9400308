import Mathlib.Data.List.Basic
import Mathlib.Data.List.Nodup
import Mathlib.Data.List.Infix

namespace ChuwiMinibook.ReleaseStack

-- A list of holders of which only the last one can be given back: a release
-- of any other holder, present or not, leaves the list as it is.
variable {α : Type} [DecidableEq α]

def release (held : List α) (a : α) : List α :=
  if held.getLast? = some a then held.dropLast else held

def releaseAll (held : List α) (calls : List α) : List α := calls.foldl release held

@[simp] theorem release_nil (a : α) : release [] a = [] := rfl

theorem release_snoc (held : List α) (top a : α) :
    release (held++[top]) a = if top = a then held else held++[top] := by
  simp [release]

theorem release_within (held : List α) (a : α) : release held a <+: held := by
  unfold release
  split
  · exact List.dropLast_prefix held
  · exact List.prefix_rfl

theorem releaseAll_within (held calls : List α) : releaseAll held calls <+: held := by
  induction calls generalizing held with
  | nil => exact List.prefix_rfl
  | cons a rest ih => exact (ih (release held a)).trans (release_within held a)

theorem release_nodup {held : List α} (nodup : held.Nodup) (a : α) : (release held a).Nodup :=
  nodup.sublist (release_within held a).sublist

-- On a list without repetition the release removes the holder exactly when it
-- is absent or stands last.
theorem mem_release_self {held : List α} (nodup : held.Nodup) {a : α} :
    a ∉ release held a ↔ (a ∈ held → held.getLast? = some a) := by
  induction held using List.reverseRecOn with
  | nil => simp
  | append_singleton rest top _ =>
    rw [release_snoc]
    by_cases same : top = a
    · subst top
      have absent : a ∉ rest := fun inside => (List.nodup_append.mp nodup).2.2 a inside a (by simp) rfl
      simpa using absent
    · have other : ¬ a = top := fun h => same h.symm
      simp [same,other]

theorem mem_release_other {held : List α} {a b : α} (different : b ≠ a) :
    b ∈ release held a ↔ b ∈ held := by
  induction held using List.reverseRecOn with
  | nil => simp
  | append_singleton rest top _ =>
    rw [release_snoc]
    by_cases same : top = a
    · subst top; simp [different]
    · simp [same]

theorem releaseAll_snoc (held : List α) (top : α) (calls : List α) :
    releaseAll (held++[top]) calls =
      match calls.dropWhile (· ≠ top) with
      | [] => held++[top]
      | _::later => releaseAll held later := by
  induction calls with
  | nil => rfl
  | cons a rest ih =>
    by_cases same : a = top
    · subst a; simp [releaseAll,release_snoc]
    · have kept : release (held++[top]) a = held++[top] := by
        rw [release_snoc,if_neg (Ne.symm same)]
      have step : releaseAll (held++[top]) (a::rest) = releaseAll (held++[top]) rest := by
        simp [releaseAll,kept]
      rw [step,ih]
      simp [same]

-- The exact law: what stands above a kept part is released precisely when the
-- calls name it from the top down, in this order.
theorem releaseAll_within_iff (kept top calls : List α) :
    releaseAll (kept++top) calls <+: kept ↔ top.reverse.Sublist calls := by
  induction top using List.reverseRecOn generalizing calls with
  | nil => simpa using releaseAll_within kept calls
  | append_singleton rest last ih =>
    rw [← List.append_assoc,releaseAll_snoc]
    simp only [List.reverse_append,List.reverse_cons,List.reverse_nil,List.nil_append,
      List.singleton_append]
    induction calls with
    | nil =>
      simp only [List.dropWhile_nil,List.sublist_nil,reduceCtorEq,iff_false]
      intro shorter
      have := shorter.length_le
      simp only [List.length_append,List.length_cons,List.length_nil] at this
      omega
    | cons a later ih' =>
      by_cases same : a = last
      · subst a
        simp [ih]
      · have skip : (last::rest.reverse).Sublist (a::later) ↔ (last::rest.reverse).Sublist later := by
          constructor
          · intro sub
            cases sub with
            | cons _ sub => exact sub
            | cons_cons => exact absurd rfl same
          · exact fun sub => sub.cons a
        simpa [same,skip] using ih'

theorem releaseAll_eq_nil_iff (held calls : List α) :
    releaseAll held calls = [] ↔ held.reverse.Sublist calls := by
  simpa using releaseAll_within_iff [] held calls

end ChuwiMinibook.ReleaseStack
