import ChuwiMinibook.ConditionWalk
import ChuwiMinibook.Machine
import Mathlib.Data.List.Induction

namespace ChuwiMinibook.TimedConditions
open Gddv ConditionWalk Machine

-- A vault on which no evaluation has been made.
def Fresh (g : Gddv) : Prop := ∀ i j c,condAt g.conditions i j = some c → c.stateEntryTime = 0

def round (g : Gddv) (env : Surroundings) : Gddv := (evaluateConditions env g).1

-- The clock of the rounds never goes back.
def Ordered (rounds : List Surroundings) : Prop := rounds.Pairwise (fun early late => early.now ≤ late.now)

instance (rounds : List Surroundings) : Decidable (Ordered rounds) :=
  inferInstanceAs (Decidable (rounds.Pairwise _))

-- A condition that must have held for some time: GREATER_OR_EQUAL and a positive time.
def Lasting (c : Condition) : Prop := c.timeComparison = 3 ∧ 0 < c.time

instance (c : Condition) : Decidable (Lasting c) := inferInstanceAs (Decidable (_ ∧ _))

-- Whenever such a condition of a target that is not in force succeeds, its predicate
-- was true in every round of the last c.time seconds.
def HeldBefore (g : Gddv) (before : List Surroundings) (env : Surroundings) : Prop :=
  ∀ i j c,condAt (run round g before).conditions i j = some c → Lasting c →
    c.target ≠ (run round g before).currentTargetMatched →
    Reached env (run round g before).currentTargetMatched (run round g before).conditions i j →
    (evaluateCondition env (run round g before).currentTargetMatched c).2 = true →
    ∀ earlier ∈ before++[env],env.now-c.time < earlier.now → base earlier c = true

-- A condition that waits for its time and is passed over has a true predicate.
def Watched (g : Gddv) (env : Surroundings) : Prop :=
  ∀ i j c,condAt g.conditions i j = some c → Lasting c → c.stateEntryTime ≠ 0 →
    ¬Reached env g.currentTargetMatched g.conditions i j → base env c = true

instance (g : Gddv) (env : Surroundings) : Decidable (Watched g env) :=
  decidablePlaces g.conditions (fun i j c => Lasting c → c.stateEntryTime ≠ 0 →
    ¬Reached env g.currentTargetMatched g.conditions i j → base env c = true)

instance (g : Gddv) : Decidable (Fresh g) := decidablePlaces g.conditions (fun _ _ c => c.stateEntryTime = 0)

-- The entry time of a waiting condition is that of a round since which it has held.
def Waiting (history : List Surroundings) (g : Gddv) : Prop :=
  ∀ i j c,condAt g.conditions i j = some c → Lasting c → c.stateEntryTime ≠ 0 →
    (∃ start ∈ history,start.now = c.stateEntryTime) ∧
    ∀ earlier ∈ history,c.stateEntryTime < earlier.now → base earlier c = true

theorem round_conditions (g : Gddv) (env : Surroundings) :
    (round g env).conditions = (evaluateSets env g.currentTargetMatched g.conditions).1 := by
  unfold TimedConditions.round evaluateConditions
  split <;> rename_i walked <;> rw [walked]

theorem ordered_snoc {history : List Surroundings} {env : Surroundings} (ordered : Ordered (history++[env])) :
    Ordered history ∧ ∀ earlier ∈ history,earlier.now ≤ env.now := by
  obtain ⟨early,-,late⟩ := List.pairwise_append.mp ordered
  exact ⟨early,fun earlier present => late earlier present env List.mem_cons_self⟩

theorem waiting_round {history : List Surroundings} {g : Gddv} {env : Surroundings}
    (waiting : Waiting history g) (times : ∀ earlier ∈ history,earlier.now ≤ env.now) (watched : Watched g env) :
    Waiting (history++[env]) (round g env) := by
  intro i j c place lasting entered
  rw [round_conditions,evaluateSets_at,Option.map_eq_some_iff] at place
  obtain ⟨old,place,rfl⟩ := place
  -- A condition left as it was, with a true predicate in this round.
  have kept : Lasting old → old.stateEntryTime ≠ 0 → base env old = true →
      (∃ start ∈ history++[env],start.now = old.stateEntryTime) ∧
      ∀ earlier ∈ history++[env],old.stateEntryTime < earlier.now → base earlier old = true := by
    intro lasting entered true_now
    obtain ⟨⟨start,present,same⟩,held⟩ := waiting i j old place lasting entered
    refine ⟨⟨start,List.mem_append_left _ present,same⟩,?_⟩
    intro earlier listed later
    rcases List.mem_append.mp listed with prior | last
    · exact held earlier prior later
    · rw [List.mem_singleton.mp last]
      exact true_now
  by_cases reached : Reached env g.currentTargetMatched g.conditions i j
  · rw [if_pos reached] at lasting entered ⊢
    rcases evaluateCondition_entry env g.currentTargetMatched old with dropped | set | ⟨same,true_now⟩
    · rw [dropped] at entered
      exact absurd rfl entered
    · rw [set]
      refine ⟨⟨env,List.mem_append_right _ List.mem_cons_self,rfl⟩,?_⟩
      intro earlier listed later
      change env.now < earlier.now at later
      rcases List.mem_append.mp listed with prior | last
      · exact absurd (times earlier prior) (Int.not_le.mpr later)
      · rw [List.mem_singleton.mp last] at later
        exact absurd later (Int.lt_irrefl _)
    · rw [same] at lasting entered ⊢
      exact kept lasting entered true_now
  · rw [if_neg reached] at lasting entered ⊢
    exact kept lasting entered (watched i j old place lasting entered reached)

theorem waiting_run {g : Gddv} (fresh : Fresh g) {rounds : List Surroundings} (ordered : Ordered rounds)
    (meets : Meets round Watched g rounds) : Waiting rounds (run round g rounds) := by
  induction rounds using List.reverseRecOn with
  | nil =>
    intro i j c place lasting entered
    exact absurd (fresh i j c place) entered
  | append_singleton history env ih =>
    obtain ⟨early,times⟩ := ordered_snoc ordered
    obtain ⟨met,last⟩ := meets_append.mp meets
    rw [run_snoc]
    exact waiting_round (ih early met) times last.1

theorem toInt_le {x : Int} (positive : 0 ≤ x) : toInt x ≤ x := by
  unfold toInt Int.bmod
  dsimp only
  split <;> omega

theorem held_before {history : List Surroundings} {g : Gddv} {env : Surroundings} (waiting : Waiting history g)
    (times : ∀ earlier ∈ history,earlier.now ≤ env.now) {i j : Nat} {c : Condition}
    (place : condAt g.conditions i j = some c) (lasting : Lasting c) (other : c.target ≠ g.currentTargetMatched)
    (success : (evaluateCondition env g.currentTargetMatched c).2 = true) :
    ∀ earlier ∈ history++[env],env.now-c.time < earlier.now → base earlier c = true := by
  intro earlier listed recent
  rcases List.mem_append.mp listed with prior | last
  · by_cases always : c.condition = condDefault
    · simp [base,always]
    · have timed : c.time ≠ 0 := Int.ne_of_gt lasting.2
      obtain ⟨entered,compared⟩ := evaluateCondition_timed success always other timed
      obtain ⟨⟨start,present,same⟩,held⟩ := waiting i j c place lasting entered
      apply held earlier prior
      -- elapsed is an int; a longer wait only makes it smaller.
      have elapsed : toInt (env.now-c.stateEntryTime) ≥ c.time := by
        simpa [compareTime,lasting.1] using compared
      have before := times start present
      have bound := toInt_le (x := env.now-c.stateEntryTime) (by omega)
      omega
  · rw [List.mem_singleton.mp last]
    exact evaluateCondition_holds success

theorem lasting_conditions_held {g : Gddv} (fresh : Fresh g) {rounds : List Surroundings} (ordered : Ordered rounds)
    (meets : Meets round Watched g rounds) : Stepwise (HeldBefore g) rounds := by
  intro before env after split
  subst split
  rw [List.append_cons] at ordered meets
  have front : Ordered (before++[env]) := (List.pairwise_append.mp ordered).1
  obtain ⟨early,times⟩ := ordered_snoc front
  have met := (meets_append.mp (meets_append.mp meets).1).1
  have waiting := waiting_run fresh early met
  intro i j c place lasting other _ success
  exact held_before waiting times place lasting other success

-- Two OEM variables decide: the first for target 1 at once, the second for target 2
-- once it has been set for 20 seconds.
def twoSets : Gddv where
  targets := []
  conditions := [[⟨19,"",1,1,0,0,0,1,0⟩],[⟨20,"",1,1,2,3,20,2,0⟩]]
  psvts := []
  itmts := []
  idsps := []
  pbats := []
  pbcts := []
  currentTargetMatched := -1

def oemRound (now first second : Int) : Surroundings :=
  ⟨now,fun oem => some (if oem = 0 then first else second),fun _ => none,none,none,none,none,0⟩

-- The second variable is set at 100 and 120 only; in between the first set matches
-- and the waiting condition is not looked at.
theorem lasting_condition_not_held : ∃ rounds,Fresh twoSets ∧ Ordered rounds ∧ ¬Stepwise (HeldBefore twoSets) rounds := by
  refine ⟨[oemRound 100 0 1,oemRound 110 1 0,oemRound 120 0 1],by decide,by decide,?_⟩
  intro held
  have last := held [oemRound 100 0 1,oemRound 110 1 0] (oemRound 120 0 1) [] rfl 1 0 ⟨20,"",1,1,2,3,20,2,100⟩
    (by decide) (by decide) (by decide) (by decide) (by decide) (oemRound 110 1 0) (by simp) (by decide)
  exact absurd last (by decide)

-- The same two sets while the second variable stays set: the condition succeeds at 120.
theorem lasting_condition_held_twenty_seconds :
    Meets round Watched twoSets [oemRound 100 0 1,oemRound 110 0 1,oemRound 120 0 1] ∧
    (run round twoSets [oemRound 100 0 1,oemRound 110 0 1,oemRound 120 0 1]).currentTargetMatched = 2 ∧
    Stepwise (HeldBefore twoSets) [oemRound 100 0 1,oemRound 110 0 1,oemRound 120 0 1] := by
  have watched : Meets round Watched twoSets [oemRound 100 0 1,oemRound 110 0 1,oemRound 120 0 1] := by decide
  exact ⟨watched,by decide,lasting_conditions_held (by decide) (by decide) watched⟩

end ChuwiMinibook.TimedConditions
