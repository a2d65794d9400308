import ChuwiMinibook.EmptySets
import ChuwiMinibook.MatchedTargets

namespace ChuwiMinibook.PolicyReturns
open StdString Gddv PolicyExceptions
open AdaptiveEngine (targetsOf computedTarget installPassiveDefault)
open EmptySets (evaluateConditionsChecked checked_inside Guarded guarded_iff matchedSet)
open MatchedTargets (Leaves executeTargets_returns)

section Updates
variable {σ : Type} (host : Host σ)

-- update_engine_state with the access of evaluate_conditions to the first condition
-- of the matched set. A fallback is followed without an evaluation.
def updateEngineStateChecked (env : Surroundings) (a : Adaptive σ) : Except Leave (Adaptive σ) :=
  if a.passiveDefOnly = false ∧ a.fallbackId < 0 ∧ evaluateConditionsChecked env a.gddv = none then .error .fault
  else updateEngineState host env a

-- No empty set is the first one to match, and a fallback that has not been installed
-- yet is an entry of the table.
def Selects (env : Surroundings) (a : Adaptive σ) : Prop := a.passiveDefOnly = true ∨
  (a.fallbackId < 0 → Guarded env a.gddv a.gddv.conditions) ∧
  (0 ≤ a.fallbackId → a.currentMatchedTarget ≠ -1 → a.policyActive = false → a.fallbackId.toNat < a.gddv.targets.length)

end Updates

theorem map_returns {α β : Type} {r : Except Leave α} {f : α → β} : (∃ b,r.map f = .ok b) ↔ ∃ a,r = .ok a := by
  cases r with
  | error leave => simp [Except.map]
  | ok a => simp [Except.map]

section Engine
variable {σ : Type} {host : Host σ} {env : Surroundings} {a : Adaptive σ}

theorem computed_fallback (following : 0 ≤ a.fallbackId) : computedTarget env a = (a.gddv,-1) := by
  unfold computedTarget
  rw [if_neg (by omega)]

-- The fallback that an update would execute.
theorem fallback_listed (following : 0 ≤ a.fallbackId) (changed : a.currentMatchedTarget ≠ (computedTarget env a).2)
    (inactive : a.policyActive = false) (conditional : a.passiveDefOnly = false) (selects : Selects env a) :
    ∃ t,(computedTarget env a).1.targets[a.fallbackId.toNat]? = some t := by
  rw [computed_fallback following] at changed ⊢
  rcases selects with passive | ⟨-,listed⟩
  · rw [conditional] at passive
    cases passive
  · exact ⟨_,List.getElem?_eq_getElem (listed following changed inactive)⟩

theorem switch_returns (target : Int) (b : Adaptive σ) : (∃ next,switchTarget host env b target = .ok next) ↔
    ∃ last,executeTargets host env.now {b with int3400Installed := false}
      (if target > 0 then targetsOf b.gddv target else []) = .ok last := by
  unfold switchTarget
  dsimp only
  rw [map_returns]
  by_cases positive : target > 0
  · rw [if_pos positive,if_pos positive,map_returns]
  · rw [if_neg positive,if_neg positive]
    exact iff_of_true ⟨_,rfl⟩ ⟨_,rfl⟩

-- An update returns when the entries it executes do, once it has selected them.
theorem engine_returns (conditional : a.passiveDefOnly = false) (listed : 0 ≤ a.fallbackId →
      a.currentMatchedTarget ≠ -1 → a.policyActive = false → a.fallbackId.toNat < a.gddv.targets.length) :
    (∃ next,updateEngineState host env a = .ok next) ↔
      ∃ last,executeTargets host env.now (entered env a) (executions env a) = .ok last := by
  unfold updateEngineState executions
  dsimp only
  rw [if_neg (by rw [conditional]; decide)]
  by_cases same : a.currentMatchedTarget = (computedTarget env a).2
  · rw [if_pos same,if_pos (.inr same)]
    exact iff_of_true ⟨_,rfl⟩ ⟨_,rfl⟩
  have busy : ¬(a.passiveDefOnly = true ∨ a.currentMatchedTarget = (computedTarget env a).2) := by
    rw [conditional]
    simp [same]
  rw [if_neg same,if_neg busy]
  by_cases fallback : (computedTarget env a).2 = -1 ∧ a.fallbackId ≥ 0 ∧ a.policyActive = false
  · obtain ⟨t,present⟩ := fallback_listed fallback.2.1 same fallback.2.2 conditional
      (.inr ⟨fun negative => absurd fallback.2.1 (by omega),listed⟩)
    rw [if_pos fallback,if_pos fallback,present]
    exact map_returns
  · rw [if_neg fallback,if_neg fallback,switch_returns]
    exact Iff.rfl

-- A fallback outside the table is read all the same.
theorem unlisted_faults (conditional : a.passiveDefOnly = false) (following : 0 ≤ a.fallbackId)
    (changed : a.currentMatchedTarget ≠ -1) (inactive : a.policyActive = false)
    (outside : a.gddv.targets.length ≤ a.fallbackId.toNat) : updateEngineState host env a = .error .fault := by
  have computed : computedTarget env a = (a.gddv,-1) := computed_fallback following
  unfold updateEngineState
  dsimp only
  rw [if_neg (by rw [conditional]; decide),computed,if_neg changed,if_pos ⟨rfl,following,inactive⟩,
    List.getElem?_eq_none outside]

theorem checked_returns : (∃ next,updateEngineStateChecked host env a = .ok next) ↔ Selects env a ∧
    ∃ last,executeTargets host env.now (entered env a) (executions env a) = .ok last := by
  unfold updateEngineStateChecked Selects
  by_cases passive : a.passiveDefOnly = true
  · rw [if_neg (by simp [passive])]
    refine iff_of_true ⟨a,?_⟩ ⟨.inl passive,entered env a,?_⟩
    · unfold updateEngineState
      rw [if_pos passive]
    · unfold executions
      dsimp only
      rw [if_pos (.inl passive)]
      rfl
  have conditional : a.passiveDefOnly = false := Bool.eq_false_iff.mpr passive
  rw [or_iff_right passive]
  have checked : evaluateConditionsChecked env a.gddv = none ↔ ¬Guarded env a.gddv a.gddv.conditions := by
    have inside := checked_inside env a.gddv
    rw [matchedSet,← guarded_iff] at inside
    rw [← inside,Option.not_isSome_iff_eq_none]
  by_cases following : a.fallbackId < 0
  · by_cases guarded : Guarded env a.gddv a.gddv.conditions
    · have selected : evaluateConditionsChecked env a.gddv ≠ none := fun none => checked.mp none guarded
      rw [if_neg (fun given => selected given.2.2),engine_returns conditional (fun given => absurd given (by omega))]
      exact (and_iff_right ⟨fun _ => guarded,fun given => absurd given (by omega)⟩).symm
    · rw [if_pos ⟨conditional,following,checked.mpr guarded⟩]
      exact iff_of_false (fun returned => by obtain ⟨_,done⟩ := returned; cases done)
        (fun given => guarded (given.1.1 following))
  · rw [if_neg (fun given => following given.2.1)]
    by_cases listed : 0 ≤ a.fallbackId → a.currentMatchedTarget ≠ -1 → a.policyActive = false →
        a.fallbackId.toNat < a.gddv.targets.length
    · rw [engine_returns conditional listed]
      exact (and_iff_right ⟨fun given => absurd given following,listed⟩).symm
    · have missing := listed
      simp only [not_forall,Nat.not_lt] at missing
      obtain ⟨positive,changed,inactive,outside⟩ := missing
      rw [unlisted_faults conditional positive changed inactive outside]
      exact iff_of_false (fun returned => by obtain ⟨_,done⟩ := returned; cases done) (fun given => listed given.1.2)

end Engine

section Policies
variable {κ : Type} (host : Host (Rapl ⊕ κ)) (env : Surroundings) (a : Adaptive (Rapl ⊕ κ))

theorem updatePowerPolicies_leaves {leave : Leave} (left : updatePowerPolicies (linked host) env a = .error leave) :
    leave = .exception := by
  unfold updatePowerPolicies at left
  split at left
  · cases left
  · rw [map_error] at left
    obtain ⟨_,_,_,_,_,_,ended⟩ := foldlM_error.mp left
    exact applyPbat_leaves host ended

theorem powerPolicies_return : (∃ next,updatePowerPolicies (linked host) env a = .ok next) ↔
    ¬∃ p ∈ a.gddv.pbats,(evaluatePbctConditions env a.gddv).2 = some p.targetId ∧ Drives a.engine p ∧
      stoi p.argument = none := by
  rw [← updatePowerPolicies_throws]
  cases done : updatePowerPolicies (linked host) env a with
  | ok next => simp
  | error leave =>
    obtain rfl := updatePowerPolicies_leaves host env a done
    simp

end Policies

def plainLibrary : Host (Rapl ⊕ Unit) :=
  ⟨Cdev.base,StdSort.insertion,fun d _ => some d,fun s => (decimal s).map (·*1000),false⟩

-- A RAPL device and an active zone. Target 1, which always matches, sets a PSV
-- temperature and a power limit, both with MAX for their argument.
def maxArguments : Adaptive (Rapl ⊕ Unit) where
  engine := {
    zones := [⟨0,"TCPU",[],true,false,[],.independent⟩]
    cdevs := [⟨0,"rapl_controller_mmio","",⟨0,0,0,0,0,0,false,0,0,false,false,Pid.new,false,0,0,
      .inl ⟨0,true,0,0,0,0,0,false,false,0,0,0,0,false,false,0,0,0⟩⟩,[]⟩]
    sensors := []
    preference := 0
    ignoreCritical := false }
  gddv := {
    targets := [⟨1,"passive","\\_SB_.IETM",0,"PSV","MAX"⟩]
    conditions := [[⟨1,"",0,0,0,0,0,1,0⟩]]
    psvts := []
    itmts := []
    idsps := []
    pbats := [⟨1,"power","TCPU",0,"PL1MAX","MAX"⟩]
    pbcts := [⟨1,[⟨1,"",0,0,0,0,0,1,0⟩]⟩]
    currentTargetMatched := -1 }
  policyActive := false
  fallbackId := -1
  int3400Path := "\\_SB_.IETM"
  passiveDefOnly := false
  int3400Installed := false
  currentMatchedTarget := -1
  executed := []
  ecInstalled := false

end ChuwiMinibook.PolicyReturns
