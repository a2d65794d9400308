import ChuwiMinibook.Gddv
import ChuwiMinibook.Machine

namespace ChuwiMinibook.ConditionWalk
open Gddv

-- One pass over the condition sets of a vault, seen from a single condition: it is
-- named by its place, since nothing but its entry time ever changes.
def condAt (sets : List (List Condition)) (i j : Nat) : Option Condition := (sets[i]?).bind (·[j]?)

theorem condAt_bounds {sets : List (List Condition)} {i j : Nat} {c : Condition} (place : condAt sets i j = some c) :
    i < sets.length ∧ j < (sets[i]?.getD []).length := by
  obtain ⟨set,present,inside⟩ := Option.bind_eq_some_iff.mp place
  refine ⟨(List.getElem?_eq_some_iff.mp present).1,?_⟩
  rw [present,Option.getD_some]
  exact (List.getElem?_eq_some_iff.mp inside).1

-- A property of every condition of the sets is checked place by place.
instance decidablePlaces (sets : List (List Condition)) (p : Nat → Nat → Condition → Prop)
    [∀ i j c,Decidable (p i j c)] : Decidable (∀ i j c,condAt sets i j = some c → p i j c) :=
  decidable_of_iff (∀ i < sets.length,∀ j < (sets[i]?.getD []).length,∀ c ∈ condAt sets i j,p i j c) (by
    constructor
    · intro all i j c place
      obtain ⟨row,column⟩ := condAt_bounds place
      exact all i row j column c place
    · intro all i _ j _ c place
      exact all i j c place)

-- The conditions in front of a place hold, so that its own is evaluated.
def Open (env : Surroundings) (matched : Int) (set : List Condition) (j : Nat) : Prop :=
  ∀ c ∈ set.take j,(evaluateCondition env matched c).2 = true

instance (env : Surroundings) (matched : Int) (set : List Condition) (j : Nat) : Decidable (Open env matched set j) :=
  inferInstanceAs (Decidable (∀ c ∈ set.take j,_ = _))

-- evaluate_condition is called for the condition in this place.
def Reached (env : Surroundings) (matched : Int) (sets : List (List Condition)) (i j : Nat) : Prop :=
  (∀ set ∈ sets.take i,(evaluateConditionSet env matched set).2 = false) ∧ Open env matched (sets[i]?.getD []) j

instance (env : Surroundings) (matched : Int) (sets : List (List Condition)) (i j : Nat) :
    Decidable (Reached env matched sets i j) :=
  inferInstanceAs (Decidable ((∀ set ∈ sets.take i,_ = _) ∧ _))

-- The predicate of a condition, without its time.
def base (env : Surroundings) (c : Condition) : Bool := c.condition == condDefault || conditionHolds env c

variable {env : Surroundings} {matched : Int}

theorem open_cons {c : Condition} {rest : List Condition} {j : Nat} :
    Open env matched (c::rest) (j+1) ↔ (evaluateCondition env matched c).2 = true ∧ Open env matched rest j := by
  rw [Open,List.take_succ_cons,List.forall_mem_cons]
  rfl

theorem evaluateConditionSet_at (set : List Condition) (j : Nat) :
    (evaluateConditionSet env matched set).1[j]? =
      (set[j]?).map (fun c => if Open env matched set j then (evaluateCondition env matched c).1 else c) := by
  induction set generalizing j with
  | nil => rfl
  | cons c rest ih =>
    cases held : (evaluateCondition env matched c).2 with
    | false =>
      have stopped : evaluateConditionSet env matched (c::rest) = ((evaluateCondition env matched c).1::rest,false) := by
        rw [evaluateConditionSet,← Prod.eta (evaluateCondition env matched c),held]
      rw [stopped]
      cases j with
      | zero => simp [Open]
      | succ j => simp [open_cons,held]
    | true =>
      have went_on : (evaluateConditionSet env matched (c::rest)).1 =
          (evaluateCondition env matched c).1::(evaluateConditionSet env matched rest).1 := by
        rw [evaluateConditionSet,← Prod.eta (evaluateCondition env matched c),held]
      rw [went_on]
      cases j with
      | zero => simp [Open]
      | succ j => simp [open_cons,held,ih]

theorem reached_cons {set : List Condition} {rest : List (List Condition)} {i j : Nat} :
    Reached env matched (set::rest) (i+1) j ↔
      (evaluateConditionSet env matched set).2 = false ∧ Reached env matched rest i j := by
  rw [Reached,List.take_succ_cons,List.forall_mem_cons,and_assoc]
  rfl

theorem reached_head {set : List Condition} {rest : List (List Condition)} {j : Nat} :
    Reached env matched (set::rest) 0 j ↔ Open env matched set j := by
  simp [Reached]

theorem evaluateSets_at (sets : List (List Condition)) (i j : Nat) :
    condAt (evaluateSets env matched sets).1 i j =
      (condAt sets i j).map (fun c => if Reached env matched sets i j then (evaluateCondition env matched c).1 else c) := by
  induction sets generalizing i with
  | nil => rfl
  | cons set rest ih =>
    cases held : (evaluateConditionSet env matched set).2 with
    | true =>
      have stopped : (evaluateSets env matched (set::rest)).1 = (evaluateConditionSet env matched set).1::rest := by
        rw [evaluateSets,← Prod.eta (evaluateConditionSet env matched set),held]
      rw [stopped]
      cases i with
      | zero => simp [condAt,evaluateConditionSet_at,reached_head]
      | succ i => simp [condAt,reached_cons,held]
    | false =>
      have went_on : (evaluateSets env matched (set::rest)).1 =
          (evaluateConditionSet env matched set).1::(evaluateSets env matched rest).1 := by
        rw [evaluateSets,← Prod.eta (evaluateConditionSet env matched set),held]
      rw [went_on]
      cases i with
      | zero => simp [condAt,evaluateConditionSet_at,reached_head]
      | succ i => simpa [condAt,reached_cons,held] using ih i

-- What evaluate_condition leaves: the entry time dropped, set or kept, and kept only
-- while the predicate holds.
theorem evaluateCondition_entry (env : Surroundings) (matched : Int) (c : Condition) :
    (evaluateCondition env matched c).1 = {c with stateEntryTime := 0} ∨
      (evaluateCondition env matched c).1 = {c with stateEntryTime := env.now} ∨
      ((evaluateCondition env matched c).1 = c ∧ base env c = true) := by
  unfold evaluateCondition base
  by_cases always : c.condition = condDefault
  · simp [always]
  · by_cases holds : conditionHolds env c = true
    · rw [if_neg always,if_pos holds,holds]
      split
      · exact .inr (.inr ⟨rfl,Bool.or_true _⟩)
      · split
        · exact .inr (.inr ⟨rfl,Bool.or_true _⟩)
        · split
          · exact .inr (.inl rfl)
          · split
            · exact .inl rfl
            · exact .inr (.inr ⟨rfl,Bool.or_true _⟩)
    · rw [if_neg always,if_neg holds]
      exact .inl rfl

theorem evaluateCondition_holds {c : Condition} (success : (evaluateCondition env matched c).2 = true) :
    base env c = true := by
  unfold evaluateCondition at success
  unfold base
  by_cases always : c.condition = condDefault
  · simp [always]
  · by_cases holds : conditionHolds env c = true
    · rw [holds,Bool.or_true]
    · rw [if_neg always,if_neg holds] at success
      cases success

-- A success of a timed condition of another target rests on the time since its entry.
theorem evaluateCondition_timed {c : Condition} (success : (evaluateCondition env matched c).2 = true)
    (conditional : c.condition ≠ condDefault) (other : c.target ≠ matched) (timed : c.time ≠ 0) :
    c.stateEntryTime ≠ 0 ∧ compareTime env.now c = true := by
  unfold evaluateCondition at success
  rw [if_neg conditional] at success
  by_cases holds : conditionHolds env c = true
  · rw [if_pos holds,if_neg other,if_neg timed] at success
    split at success
    · cases success
    · rename_i entered
      split at success
      · rename_i elapsed
        exact ⟨entered,elapsed⟩
      · cases success
  · rw [if_neg holds] at success
    cases success

end ChuwiMinibook.ConditionWalk
