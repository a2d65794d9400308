import ChuwiMinibook.GddvTables
import ChuwiMinibook.Replacement

namespace ChuwiMinibook.CustomConditions
open Replacement

-- (enum adaptive_condition) custom->type
def adaptiveCondition (custom : CustomCondition) : Nat := (custom.type % 4294967296).toNat

def mergeCustom (custom : CustomCondition) (c : Condition) : Condition :=
  {c with device := custom.participant,condition := adaptiveCondition custom}

-- merge_appc: one custom condition after the other, each over all sets.
def mergeOne (sets : List (List Condition)) (custom : CustomCondition) : List (List Condition) :=
  sets.map (·.map (fun c => if custom.condition = c.condition then mergeCustom custom c else c))

def mergeAppc (g : Vault) : Vault := {g with conditions := g.customConditions.foldl mergeOne g.conditions}

-- A condition with what the custom condition of its type says, each condition
-- looked up once.
def substitute (customs : List CustomCondition) : Condition → Condition :=
  atOnce CustomCondition.condition Condition.condition mergeCustom customs

theorem mergeOne_rewrite (sets : List (List Condition)) (custom : CustomCondition) :
    mergeOne sets custom =
      sets.map (·.map (fun c => rewrite CustomCondition.condition Condition.condition mergeCustom c custom)) := rfl

theorem mergeAppc_inTurn (g : Vault) : (mergeAppc g).conditions =
    g.conditions.map (·.map (inTurn CustomCondition.condition Condition.condition mergeCustom g.customConditions)) := by
  unfold mergeAppc
  dsimp only
  generalize g.conditions = sets
  induction g.customConditions generalizing sets with
  | nil =>
    have kept : ∀ set : List Condition,
        set.map (inTurn CustomCondition.condition Condition.condition mergeCustom []) = set := fun set => List.map_id set
    simp [kept]
  | cons custom rest ih =>
    rw [List.foldl_cons,ih,mergeOne_rewrite,List.map_map]
    refine List.map_congr_left fun set _ => ?_
    rw [Function.comp_apply,List.map_map]
    rfl

-- In every order of the custom conditions each condition gets what the one of its
-- own type says.
def Simultaneous (g : Vault) : Prop := ∀ order : List CustomCondition,order.Perm g.customConditions →
  (mergeAppc {g with customConditions := order}).conditions = g.conditions.map (·.map (substitute g.customConditions))

-- No custom condition that is used leads on to another one with a different type
-- or participant.
def ChainFree (g : Vault) : Prop := ∀ set ∈ g.conditions,∀ c ∈ set,∀ a ∈ g.customConditions,a.condition = c.condition →
  ∀ b ∈ g.customConditions,b.condition ≠ a.condition → b.condition = adaptiveCondition a →
    adaptiveCondition b = adaptiveCondition a ∧ b.participant = a.participant

theorem merged_again_iff (a b : CustomCondition) (c : Condition) : mergeCustom b (mergeCustom a c) = mergeCustom a c ↔
    adaptiveCondition b = adaptiveCondition a ∧ b.participant = a.participant := by
  simp only [mergeCustom,Condition.mk.injEq,and_true]

theorem chainFree_iff (g : Vault) : ChainFree g ↔ ∀ set ∈ g.conditions,∀ c ∈ set,
    Unchained CustomCondition.condition Condition.condition mergeCustom g.customConditions c := by
  unfold ChainFree Unchained
  simp only [merged_again_iff]
  rfl

theorem simultaneous_iff (g : Vault) : Simultaneous g ↔ ∀ set ∈ g.conditions,∀ c ∈ set,∀ order : List CustomCondition,
    order.Perm g.customConditions → inTurn CustomCondition.condition Condition.condition mergeCustom order c =
      substitute g.customConditions c := by
  unfold Simultaneous
  simp only [mergeAppc_inTurn,List.map_inj_left]
  constructor
  · intro given set inside c member order perm
    exact given order perm set inside c member
  · intro given order perm set inside c member
    exact given set inside c member order perm

-- merge_appc substitutes at once exactly on chain-free vaults.
theorem merging_simultaneous_iff (g : Vault) (distinct : (g.customConditions.map CustomCondition.condition).Nodup) :
    Simultaneous g ↔ ChainFree g := by
  rw [simultaneous_iff,chainFree_iff]
  constructor
  · intro given set inside c member
    exact (inTurn_any_order_iff distinct c).mp (given set inside c member)
  · intro given set inside c member
    exact (inTurn_any_order_iff distinct c).mpr (given set inside c member)

-- The types that a condition and a custom condition of a firmware carry: an
-- identifier of the custom range, led on to another one.
def custom (condition : Nat) (type : Int) (participant : String) : CustomCondition :=
  ⟨condition,"",participant,0,type⟩

def conditionOf (condition : Nat) : Condition := ⟨condition,"",3,50,0,0,0,1,0⟩

def chained : Vault := {Vault.new with
  conditions := [[conditionOf 4096]]
  customConditions := [custom 4096 4097 "GEN1",custom 4097 17 "TCPU"]}

-- The second one takes the type that the first one has just written.
theorem chain_rewritten_twice : ¬Simultaneous chained ∧
    (mergeAppc chained).conditions = [[{conditionOf 17 with device := "TCPU"}]] ∧
    chained.conditions.map (·.map (substitute chained.customConditions)) =
      [[{conditionOf 4097 with device := "GEN1"}]] := by
  have merged : (mergeAppc chained).conditions = [[{conditionOf 17 with device := "TCPU"}]] := by decide
  have once : chained.conditions.map (·.map (substitute chained.customConditions)) =
      [[{conditionOf 4097 with device := "GEN1"}]] := by decide
  refine ⟨fun given => ?_,merged,once⟩
  have same := given chained.customConditions (List.Perm.refl _)
  rw [once] at same
  exact absurd (merged.symm.trans same) (by decide)

def unchained : Vault := {Vault.new with
  conditions := [[conditionOf 4096,conditionOf 10],[conditionOf 4097]]
  customConditions := [custom 4096 17 "TCPU",custom 4097 17 "SEN1"]}

theorem merging_simultaneous_two : (unchained.customConditions.map CustomCondition.condition).Nodup ∧
    Simultaneous unchained := by
  have free : ChainFree unchained := by
    unfold ChainFree
    decide
  exact ⟨by decide,(merging_simultaneous_iff unchained (by decide)).mpr free⟩

end ChuwiMinibook.CustomConditions
