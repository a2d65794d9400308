import Mathlib.Data.List.Perm.Basic
import Mathlib.Data.List.Nodup

namespace ChuwiMinibook.Replacement

-- Rules that replace the items of their key, applied one after the other, each to
-- what the ones before it left, against a single look-up of the rule for an item.
section
variable {κ ρ α : Type} [DecidableEq κ] (key : ρ → κ) (name : α → κ) (replace : ρ → α → α)

def rewrite (x : α) (r : ρ) : α := if key r = name x then replace r x else x

def inTurn (rules : List ρ) (x : α) : α := rules.foldl (rewrite key name replace) x

def atOnce (rules : List ρ) (x : α) : α :=
  match rules.find? (fun r => key r = name x) with
  | some r => replace r x
  | none => x

variable {key name replace}

theorem inTurn_append (front back : List ρ) (x : α) :
    inTurn key name replace (front++back) x = inTurn key name replace back (inTurn key name replace front x) :=
  List.foldl_append

theorem inTurn_stays {rules : List ρ} {x : α} (stays : ∀ r ∈ rules,key r = name x → replace r x = x) :
    inTurn key name replace rules x = x := by
  induction rules with
  | nil => rfl
  | cons r rest ih =>
    have first : rewrite key name replace x r = x := by
      unfold rewrite
      split
      · rename_i same
        exact stays r List.mem_cons_self same
      · rfl
    rw [inTurn,List.foldl_cons,first]
    exact ih (fun r' listed => stays r' (List.mem_cons_of_mem _ listed))

theorem inTurn_foreign {rules : List ρ} {x : α} (foreign : ∀ r ∈ rules,key r ≠ name x) :
    inTurn key name replace rules x = x :=
  inTurn_stays fun r listed same => absurd same (foreign r listed)

theorem atOnce_foreign {rules : List ρ} {x : α} (foreign : ∀ r ∈ rules,key r ≠ name x) :
    atOnce key name replace rules x = x := by
  have missing : rules.find? (fun r => key r = name x) = none := by simpa using foreign
  rw [atOnce,missing]

section Distinct
variable {rules : List ρ} (distinct : (rules.map key).Nodup)
include distinct

omit [DecidableEq κ] in
theorem same_rule {a b : ρ} (first : a ∈ rules) (second : b ∈ rules) (same : key a = key b) : a = b :=
  List.inj_on_of_nodup_map distinct first second same

theorem atOnce_listed {a : ρ} (listed : a ∈ rules) {x : α} (names : key a = name x) :
    atOnce key name replace rules x = replace a x := by
  cases found : rules.find? (fun r => key r = name x) with
  | none =>
    have missing := List.find?_eq_none.mp found a listed
    simp [names] at missing
  | some r =>
    have inside := List.mem_of_find?_eq_some found
    have chosen : key r = name x := by simpa using List.find?_some found
    have one := same_rule distinct inside listed (chosen.trans names.symm)
    rw [atOnce,found,one]

-- The order in which the rules of distinct keys stand does not matter to a look-up.
theorem atOnce_perm {order : List ρ} (perm : order.Perm rules) (x : α) :
    atOnce key name replace order x = atOnce key name replace rules x := by
  by_cases named : ∃ a ∈ rules,key a = name x
  · obtain ⟨a,listed,names⟩ := named
    have distinct' : (order.map key).Nodup := (perm.map key).nodup_iff.mpr distinct
    rw [atOnce_listed distinct' (perm.mem_iff.mpr listed) names,atOnce_listed distinct listed names]
  · have foreign : ∀ r ∈ rules,key r ≠ name x := fun r listed same => named ⟨r,listed,same⟩
    rw [atOnce_foreign foreign,atOnce_foreign fun r listed => foreign r (perm.mem_iff.mp listed)]

-- What the rule for an item makes of it is not changed by another rule.
def Unchained (key : ρ → κ) (name : α → κ) (replace : ρ → α → α) (rules : List ρ) (x : α) : Prop :=
  ∀ a ∈ rules,key a = name x → ∀ b ∈ rules,key b ≠ key a → key b = name (replace a x) →
    replace b (replace a x) = replace a x

theorem inTurn_unchained {x : α} (unchained : Unchained key name replace rules x) :
    inTurn key name replace rules x = atOnce key name replace rules x := by
  by_cases named : ∃ a ∈ rules,key a = name x
  · obtain ⟨a,listed,names⟩ := named
    rw [atOnce_listed distinct listed names]
    obtain ⟨front,back,rfl⟩ := List.append_of_mem listed
    rw [List.map_append,List.map_cons] at distinct
    obtain ⟨-,tail,apart⟩ := List.nodup_append.mp distinct
    have before : inTurn key name replace front x = x :=
      inTurn_foreign fun r inside same =>
        apart _ (List.mem_map_of_mem inside) _ List.mem_cons_self (same.trans names.symm)
    have after : inTurn key name replace back (replace a x) = replace a x := by
      refine inTurn_stays fun r inside same => ?_
      have other : key r ≠ key a := fun equal =>
        (List.nodup_cons.mp tail).1 (equal ▸ List.mem_map_of_mem inside)
      exact unchained a listed names r (List.mem_append_right _ (List.mem_cons_of_mem _ inside)) other same
    have here : rewrite key name replace x a = replace a x := if_pos names
    rw [inTurn_append,before,inTurn,List.foldl_cons,here]
    exact after
  · have foreign : ∀ r ∈ rules,key r ≠ name x := fun r listed same => named ⟨r,listed,same⟩
    rw [inTurn_foreign foreign,atOnce_foreign foreign]

-- With the first rule in front and the second one at the end the chain is run
-- through.
theorem inTurn_chained {x : α} {a b : ρ} (first : a ∈ rules) (names : key a = name x) (second : b ∈ rules)
    (other : key b ≠ key a) (chained : key b = name (replace a x)) :
    ∃ order : List ρ,order.Perm rules ∧ inTurn key name replace order x = replace b (replace a x) := by
  obtain ⟨front,rest,rfl⟩ := List.append_of_mem first
  have inside : b ∈ front++rest := by
    rcases List.mem_append.mp second with left | right
    · exact List.mem_append_left _ left
    · rcases List.mem_cons.mp right with rfl | later
      · exact absurd rfl other
      · exact List.mem_append_right _ later
  obtain ⟨left,right,split⟩ := List.append_of_mem inside
  have turned : (a::(left++right++[b])).Perm (front++a::rest) := by
    refine List.Perm.trans (List.Perm.cons a ?_) List.perm_middle.symm
    rw [split]
    exact (List.perm_append_singleton b (left++right)).trans List.perm_middle.symm
  refine ⟨_,turned,?_⟩
  have distinct' := (turned.map key).nodup_iff.mpr distinct
  have apart : ∀ r ∈ left++right,key r ≠ key b := by
    intro r listed same
    rw [List.map_cons,List.map_append] at distinct'
    have parts := List.nodup_append.mp (List.nodup_cons.mp distinct').2
    exact parts.2.2 _ (List.mem_map_of_mem listed) _ (by simp) same
  have here : rewrite key name replace x a = replace a x := if_pos names
  have kept : inTurn key name replace (left++right) (replace a x) = replace a x :=
    inTurn_foreign fun r listed same => apart r listed (same.trans chained.symm)
  have last : rewrite key name replace (replace a x) b = replace b (replace a x) := if_pos chained
  rw [inTurn,List.foldl_cons,here,List.foldl_append]
  unfold inTurn at kept
  rw [kept,List.foldl_cons,List.foldl_nil,last]

-- The rules replace at once, in every order, exactly when no chain changes what a
-- rule made.
theorem inTurn_any_order_iff (x : α) :
    (∀ order : List ρ,order.Perm rules → inTurn key name replace order x = atOnce key name replace rules x) ↔
      Unchained key name replace rules x := by
  constructor
  · intro any a first names b second other chained
    obtain ⟨order,perm,result⟩ : ∃ order : List ρ,order.Perm rules ∧ inTurn key name replace order x = replace b (replace a x) :=
      inTurn_chained distinct first names second other chained
    rw [← result,any order perm,atOnce_listed distinct first names]
  · intro unchained order perm
    have distinct' := (perm.map key).nodup_iff.mpr distinct
    have unchained' : Unchained key name replace order x := fun a first names b second =>
      unchained a (perm.mem_iff.mp first) names b (perm.mem_iff.mp second)
    rw [inTurn_unchained distinct' unchained',atOnce_perm distinct perm]

end Distinct
end
end ChuwiMinibook.Replacement
