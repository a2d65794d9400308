import ChuwiMinibook.TimedConditions

namespace ChuwiMinibook.TargetInForce
open Gddv ConditionWalk TimedConditions Machine

-- The predicate of a condition holds, and it has a time to wait for.
def Due (env : Surroundings) (c : Condition) : Prop :=
  c.condition ≠ condDefault ∧ conditionHolds env c = true ∧ c.time ≠ 0

instance (env : Surroundings) (c : Condition) : Decidable (Due env c) := inferInstanceAs (Decidable (_ ∧ _ ∧ _))

-- parse_apct rejects the target -1, which evaluate_conditions returns for no match.
def Named (g : Gddv) : Prop := ∀ i j c,condAt g.conditions i j = some c → c.target ≠ -1

instance (g : Gddv) : Decidable (Named g) := decidablePlaces g.conditions (fun _ _ c => c.target ≠ -1)

-- What the call of evaluate_conditions before the next one returned.
def returned (g : Gddv) (before : List Surroundings) : Option Int :=
  before.getLast?.map (fun env => (evaluateConditions env (run round g before.dropLast)).2)

-- The time part of a condition is not looked at: it succeeds whatever its time and
-- since when it has held.
def Skipped (env : Surroundings) (matched : Int) (c : Condition) : Prop :=
  ∀ timeComparison time entry,(evaluateCondition env matched
    {c with timeComparison := timeComparison,time := time,stateEntryTime := entry}).2 = true

-- The time of a condition is passed over only while its target is in force.
def OnlyInForce (g : Gddv) (before : List Surroundings) (env : Surroundings) : Prop :=
  ∀ i j c,condAt (run round g before).conditions i j = some c →
    Reached env (run round g before).currentTargetMatched (run round g before).conditions i j → Due env c →
    Skipped env (run round g before).currentTargetMatched c → returned g before = some c.target

-- A condition that is false, or whose time is not up while another target is matched.
def Fails (env : Surroundings) (matched : Int) (c : Condition) : Prop :=
  c.condition ≠ condDefault ∧ (conditionHolds env c = false ∨
    c.target ≠ matched ∧ c.time ≠ 0 ∧ (c.stateEntryTime = 0 ∨ compareTime env.now c = false))

instance (env : Surroundings) (matched : Int) (c : Condition) : Decidable (Fails env matched c) :=
  inferInstanceAs (Decidable (_ ∧ (_ ∨ _ ∧ _ ∧ (_ ∨ _))))

-- A round for which each set has a condition that fails.
def Idle (g : Gddv) (env : Surroundings) : Prop := ∀ set ∈ g.conditions,∃ c ∈ set,Fails env g.currentTargetMatched c

instance (g : Gddv) (env : Surroundings) : Decidable (Idle g env) := inferInstanceAs (Decidable (∀ set ∈ _,∃ c ∈ set,_))

-- The first round, and those behind an idle one, come to no condition that is due and
-- has the last target matched.
def Renewed (g : Gddv) (before : List Surroundings) (env : Surroundings) : Prop :=
  (∀ last ∈ before.getLast?,Idle (run round g before.dropLast) last) →
    ∀ i j c,condAt (run round g before).conditions i j = some c →
      Reached env (run round g before).currentTargetMatched (run round g before).conditions i j →
      Due env c → c.target ≠ (run round g before).currentTargetMatched

instance (g : Gddv) (before : List Surroundings) (env : Surroundings) : Decidable (Renewed g before env) := by
  unfold Renewed
  infer_instance

section Walk
variable {env : Surroundings} {matched : Int}

theorem evaluateCondition_fails (c : Condition) : (evaluateCondition env matched c).2 = false ↔ Fails env matched c := by
  unfold evaluateCondition Fails
  by_cases always : c.condition = condDefault
  · simp [always]
  by_cases holds : conditionHolds env c = true
  swap
  · simp [always,holds]
  rw [if_neg always,if_pos holds]
  by_cases same : c.target = matched
  · simp [same,holds]
  by_cases untimed : c.time = 0
  · simp [same,untimed,holds]
  by_cases fresh : c.stateEntryTime = 0
  · simp [always,same,untimed,fresh]
  · cases compared : compareTime env.now c <;> simp [always,same,untimed,fresh,holds]

theorem evaluateConditionSet_fails (set : List Condition) :
    (evaluateConditionSet env matched set).2 = false ↔ ∃ c ∈ set,Fails env matched c := by
  induction set with
  | nil => simp [evaluateConditionSet]
  | cons c rest ih =>
    have first : (evaluateCondition env matched c).2 = false ↔ Fails env matched c := evaluateCondition_fails c
    rw [List.exists_mem_cons_iff,← first,← ih]
    cases held : evaluateCondition env matched c with
    | mk left ok => cases ok <;> simp [evaluateConditionSet,held]

theorem evaluateSets_none (sets : List (List Condition)) :
    (evaluateSets env matched sets).2 = none ↔ ∀ set ∈ sets,∃ c ∈ set,Fails env matched c := by
  induction sets with
  | nil => simp [evaluateSets]
  | cons set rest ih =>
    rw [List.forall_mem_cons,← evaluateConditionSet_fails,← ih]
    cases held : evaluateConditionSet env matched set with
    | mk left ok => cases ok <;> simp [evaluateSets,held]

-- The exit in front of the time check is taken for the last target matched only.
theorem skipped_iff {c : Condition} (due : Due env c) : Skipped env matched c ↔ c.target = matched := by
  obtain ⟨conditional,holds,_⟩ := due
  constructor
  · intro skipped
    by_contra other
    have waits := skipped 3 1 0
    have fails : Fails env matched {c with timeComparison := 3,time := 1,stateEntryTime := 0} :=
      ⟨conditional,.inr ⟨other,Int.one_ne_zero,.inl rfl⟩⟩
    rw [← evaluateCondition_fails,waits] at fails
    cases fails
  · intro same timeComparison time entry
    have holds' : conditionHolds env {c with timeComparison := timeComparison,time := time,stateEntryTime := entry} = true :=
      holds
    unfold evaluateCondition
    rw [if_neg conditional,if_pos holds',if_pos same]

end Walk

theorem condAt_round {g : Gddv} {env : Surroundings} {i j : Nat} {c : Condition}
    (place : condAt (round g env).conditions i j = some c) :
    ∃ old,condAt g.conditions i j = some old ∧ c.target = old.target := by
  rw [round_conditions,evaluateSets_at,Option.map_eq_some_iff] at place
  obtain ⟨old,place,rfl⟩ := place
  refine ⟨old,place,?_⟩
  split
  · rcases evaluateCondition_entry env g.currentTargetMatched old with left | left | ⟨left,-⟩ <;>
      rw [left]
  · rfl

theorem named_run {g : Gddv} (named : Named g) (before : List Surroundings) : Named (run round g before) := by
  induction before using List.reverseRecOn with
  | nil => exact named
  | append_singleton before env ih =>
    rw [run_snoc]
    intro i j c place
    obtain ⟨old,place,same⟩ := condAt_round place
    rw [same]
    exact ih i j old place

-- evaluate_conditions returns -1 for an idle round and else the target that it matched.
theorem evaluateConditions_idle {g : Gddv} {env : Surroundings} (idle : Idle g env) : (evaluateConditions env g).2 = -1 := by
  have none := (evaluateSets_none g.conditions).mpr idle
  unfold evaluateConditions
  rw [← Prod.eta (evaluateSets env g.currentTargetMatched g.conditions),none]

theorem evaluateConditions_matched {g : Gddv} {env : Surroundings} (busy : ¬Idle g env) :
    (round g env).currentTargetMatched = (evaluateConditions env g).2 := by
  unfold TimedConditions.round evaluateConditions
  split
  · rename_i walked
    have none : (evaluateSets env g.currentTargetMatched g.conditions).2 = none := by rw [walked]
    exact absurd ((evaluateSets_none g.conditions).mp none) busy
  · rfl

theorem onlyInForce_iff {g : Gddv} (named : Named g) (before : List Surroundings) (env : Surroundings) :
    OnlyInForce g before env ↔ Renewed g before env := by
  constructor
  · intro only idle i j c place reached due same
    have last := only i j c place reached due ((skipped_iff due).mpr same)
    obtain ⟨env',ended,nothing⟩ := Option.map_eq_some_iff.mp last
    rw [evaluateConditions_idle (idle env' ended)] at nothing
    exact named_run named before i j c place nothing.symm
  · intro renewed i j c place reached due skipped
    have same := (skipped_iff due).mp skipped
    rcases before.eq_nil_or_concat' with rfl | ⟨front,last,rfl⟩
    · exact absurd same (renewed (fun last ended => by cases ended) i j c place reached due)
    · by_cases idle : Idle (run round g front) last
      · refine absurd same (renewed ?_ i j c place reached due)
        intro other ended
        rw [List.getLast?_concat,Option.mem_some_iff] at ended
        subst ended
        rw [List.dropLast_concat]
        exact idle
      · rw [same,run_snoc,evaluateConditions_matched idle,returned,List.getLast?_concat,List.dropLast_concat]
        rfl

theorem time_skipped_only_in_force_iff {g : Gddv} (named : Named g) (rounds : List Surroundings) :
    Stepwise (OnlyInForce g) rounds ↔ Stepwise (Renewed g) rounds :=
  stepwise_congr fun before env _ _ => onlyInForce_iff named before env

-- One set: an OEM variable, set for 20 seconds, selects target 2.
def oneSet : Gddv where
  targets := []
  conditions := [[⟨19,"",1,1,2,3,20,2,0⟩]]
  psvts := []
  itmts := []
  idsps := []
  pbats := []
  pbcts := []
  currentTargetMatched := -1

-- The target matches at 120, nothing does at 130, and at 131 it is back without a wait.
theorem time_skipped_after_no_match : ∃ rounds,Named oneSet ∧ ¬Stepwise (OnlyInForce oneSet) rounds := by
  refine ⟨[oemRound 100 1 0,oemRound 120 1 0,oemRound 130 0 0,oemRound 131 1 0],by decide,?_⟩
  intro all
  have due : Due (oemRound 131 1 0) ⟨19,"",1,1,2,3,20,2,0⟩ := by decide
  have last := all [oemRound 100 1 0,oemRound 120 1 0,oemRound 130 0 0] (oemRound 131 1 0) [] rfl 0 0
    ⟨19,"",1,1,2,3,20,2,0⟩ (by decide) (by decide) due ((skipped_iff due).mpr (by decide))
  exact absurd last (by decide)

-- Two OEM variables, each set for 20 seconds, select targets 2 and 1.
def twoTargets : Gddv := {oneSet with conditions := [[⟨19,"",1,1,2,3,20,2,0⟩],[⟨20,"",1,1,2,3,20,1,0⟩]]}

-- The second target matches at 120 and is passed over at 131. Nothing matches at 140;
-- from then on the other target waits, and after it the second one does again.
def changing : List Surroundings := [oemRound 100 1 0,oemRound 120 1 0,oemRound 131 1 0,oemRound 140 0 0,
  oemRound 150 0 1,oemRound 171 0 1,oemRound 180 1 0]

theorem time_skipped_while_matched : Named twoTargets ∧ (run round twoTargets changing).currentTargetMatched = 1 ∧
    Stepwise (OnlyInForce twoTargets) changing := by
  have named : Named twoTargets := by decide
  have renewed : ∀ k < changing.length,∀ env ∈ changing[k]?,Renewed twoTargets (changing.take k) env := by decide
  refine ⟨named,by decide,(time_skipped_only_in_force_iff named _).mpr ?_⟩
  intro before env after split
  have place : changing[before.length]? = some env := by rw [split]; simp
  have front : changing.take before.length = before := by rw [split]; simp
  have inside : before.length < changing.length := by rw [split]; simp
  have here := renewed before.length inside env place
  rwa [front] at here

def pbctRound (g : Gddv) (env : Surroundings) : Gddv := (evaluatePbctConditions env g).1

def pbctSets (g : Gddv) : List (List Condition) := g.pbcts.map PbctEntry.conditions

-- No condition that is due in this round has a target that is one of the two and not the other.
def Indifferent (other : Int) (g : Gddv) (env : Surroundings) : Prop :=
  ∀ i j c,condAt (pbctSets g) i j = some c → Reached env g.currentTargetMatched (pbctSets g) i j →
    Due env c → (c.target = g.currentTargetMatched ↔ c.target = other)

instance (other : Int) (g : Gddv) (env : Surroundings) : Decidable (Indifferent other g env) :=
  decidablePlaces (pbctSets g) (fun i j c => Reached env g.currentTargetMatched (pbctSets g) i j →
    Due env c → (c.target = g.currentTargetMatched ↔ c.target = other))

section Pairs
variable {env : Surroundings} {matched other : Int}

theorem evaluateCondition_pair {c : Condition} (same : Due env c → (c.target = matched ↔ c.target = other)) :
    evaluateCondition env matched c = evaluateCondition env other c := by
  unfold evaluateCondition
  by_cases always : c.condition = condDefault
  · rw [if_pos always,if_pos always]
  · rw [if_neg always,if_neg always]
    by_cases holds : conditionHolds env c = true
    · rw [if_pos holds,if_pos holds]
      by_cases untimed : c.time = 0
      · rw [if_pos untimed,ite_self,ite_self]
      · have both := same ⟨always,holds,untimed⟩
        by_cases first : c.target = matched
        · rw [if_pos first,if_pos (both.mp first)]
        · rw [if_neg first,if_neg (fun second => first (both.mpr second))]
    · rw [if_neg holds,if_neg holds]

theorem evaluateConditionSet_pair {set : List Condition}
    (same : ∀ (j : Nat) c,set[j]? = some c → Open env matched set j → Due env c → (c.target = matched ↔ c.target = other)) :
    evaluateConditionSet env matched set = evaluateConditionSet env other set := by
  induction set with
  | nil => rfl
  | cons c rest ih =>
    have first := evaluateCondition_pair (same 0 c rfl (by simp [Open]))
    simp only [evaluateConditionSet,← first]
    cases held : (evaluateCondition env matched c).2 with
    | false => rw [← Prod.eta (evaluateCondition env matched c),held]
    | true =>
      have later := ih (fun j d place opened due => same (j+1) d place (open_cons.mpr ⟨held,opened⟩) due)
      rw [later]

theorem evaluatePbcts_pair {pbcts : List PbctEntry}
    (same : ∀ i j c,condAt (pbcts.map PbctEntry.conditions) i j = some c →
      Reached env matched (pbcts.map PbctEntry.conditions) i j → Due env c → (c.target = matched ↔ c.target = other)) :
    evaluatePbcts env matched pbcts = evaluatePbcts env other pbcts := by
  induction pbcts with
  | nil => rfl
  | cons entry rest ih =>
    have first : evaluateConditionSet env matched entry.conditions = evaluateConditionSet env other entry.conditions :=
      evaluateConditionSet_pair (fun j c place opened due => same 0 j c place (reached_head.mpr opened) due)
    simp only [evaluatePbcts,← first]
    cases held : (evaluateConditionSet env matched entry.conditions).2 with
    | true => rw [← Prod.eta (evaluateConditionSet env matched entry.conditions),held]
    | false =>
      have later := ih (fun i j c place reached due => same (i+1) j c place (reached_cons.mpr ⟨held,reached⟩) due)
      rw [later]

end Pairs

def withMatched (other : Int) (g : Gddv) : Gddv := {g with currentTargetMatched := other}

theorem evaluatePbctConditions_pair {g : Gddv} {other : Int} {env : Surroundings} (same : Indifferent other g env) :
    evaluatePbctConditions env (withMatched other g) =
      (withMatched other (pbctRound g env),(evaluatePbctConditions env g).2) := by
  have walked := evaluatePbcts_pair same
  simp only [evaluatePbctConditions,withMatched,pbctRound,← walked]

theorem pbct_results_independent {g : Gddv} {other : Int} {rounds : List Surroundings}
    (meets : Meets pbctRound (Indifferent other) g rounds) :
    Stepwise (fun before env => (evaluatePbctConditions env (run pbctRound (withMatched other g) before)).2 =
      (evaluatePbctConditions env (run pbctRound g before)).2) rounds := by
  have along : ∀ before,Meets pbctRound (Indifferent other) g before →
      run pbctRound (withMatched other g) before = withMatched other (run pbctRound g before) := by
    intro before met
    induction before using List.reverseRecOn with
    | nil => rfl
    | append_singleton front env ih =>
      obtain ⟨early,last⟩ := meets_append.mp met
      rw [run_snoc,run_snoc,ih early,pbctRound,evaluatePbctConditions_pair last.1]
  intro before env after split
  subst split
  obtain ⟨early,last⟩ := meets_append.mp meets
  rw [along before early,evaluatePbctConditions_pair last.1]

-- A power-boss table whose target 5 waits 20 seconds for an OEM variable.
def onePbct : Gddv where
  targets := []
  conditions := []
  psvts := []
  itmts := []
  idsps := []
  pbats := []
  pbcts := [⟨5,[⟨19,"",1,1,2,3,20,5,0⟩]⟩]
  currentTargetMatched := -1

-- The adaptive policy's last target happens to be 5 as well: no wait.
theorem pbct_results_differ : ∃ env,
    (evaluatePbctConditions env (withMatched 5 onePbct)).2 ≠ (evaluatePbctConditions env onePbct).2 :=
  ⟨oemRound 100 1 0,by decide⟩

theorem pbct_results_independent_of_target_three :
    Meets pbctRound (Indifferent 3) onePbct [oemRound 100 1 0,oemRound 120 1 0] ∧
    Stepwise (fun before env => (evaluatePbctConditions env (run pbctRound (withMatched 3 onePbct) before)).2 =
      (evaluatePbctConditions env (run pbctRound onePbct before)).2) [oemRound 100 1 0,oemRound 120 1 0] := by
  have indifferent : Meets pbctRound (Indifferent 3) onePbct [oemRound 100 1 0,oemRound 120 1 0] := by decide
  exact ⟨indifferent,pbct_results_independent indifferent⟩

end ChuwiMinibook.TargetInForce
