import ChuwiMinibook.AdaptiveEngine
import ChuwiMinibook.Machine

namespace ChuwiMinibook.FallbackPolicy
open AdaptiveEngine Gddv Machine
variable {σ : Type} (host : Host σ)

-- The constructor's values.
def Fresh (a : Adaptive σ) : Prop :=
  a.policyActive = false ∧ a.fallbackId = -1 ∧ a.currentMatchedTarget = -1 ∧ a.executed = []

-- What start-up and the default tables leave alone.
def Idle (a a' : Adaptive σ) : Prop :=
  a'.currentMatchedTarget = a.currentMatchedTarget ∧ a'.policyActive = a.policyActive ∧ a'.executed = a.executed

theorem installPassiveDefault_idle (now : Int) (a : Adaptive σ) : Idle a (installPassiveDefault host now a) := by
  unfold installPassiveDefault
  dsimp only
  split <;> exact ⟨rfl,rfl,rfl⟩

theorem finishStart_idle {env : Surroundings} {a b : Adaptive σ} (idle : Idle a b) :
    Idle a (finishStart host env b) := by
  obtain ⟨matched,active,log⟩ := idle
  unfold finishStart
  dsimp only
  split
  · obtain ⟨one,two,three⟩ := installPassiveDefault_idle host env.now
      {b with gddv := (evaluateConditions env b.gddv).1}
    exact ⟨one.trans matched,two.trans active,three.trans log⟩
  · exact ⟨matched,active,log⟩

theorem start_idle {env : Surroundings} {a a' : Adaptive σ} (started : thdEngineStart host env a = some a') :
    Idle a a' := by
  unfold thdEngineStart at started
  split at started
  · cases started
    exact installPassiveDefault_idle host env.now a
  split at started
  · cases started
    exact finishStart_idle host ⟨rfl,rfl,rfl⟩
  dsimp only at started
  split at started
  · cases started
    exact finishStart_idle host ⟨rfl,rfl,rfl⟩
  split at started
  · cases started
    exact finishStart_idle host ⟨rfl,rfl,rfl⟩
  split at started
  · cases started
    exact finishStart_idle host (installPassiveDefault_idle host env.now
      {a with gddv := (evaluateConditions env a.gddv).1})
  · cases started

-- With a fallback chosen the computed target is always -1, which the initial
-- value of current_matched_target already equals.
theorem update_ignores_fallback {a : Adaptive σ} (chosen : 0 ≤ a.fallbackId) (unmatched : a.currentMatchedTarget = -1)
    (env : Surroundings) : updateEngineState host env a = some a := by
  unfold updateEngineState
  split
  · rfl
  · have target : computedTarget env a = (a.gddv,-1) := if_neg (by omega)
    simp only [target]
    rw [if_pos unmatched]

def update (a : Option (Adaptive σ)) (env : Surroundings) : Option (Adaptive σ) := a.bind (updateEngineState host env)

theorem updates_ignore_fallback {a : Adaptive σ} (chosen : 0 ≤ a.fallbackId) (unmatched : a.currentMatchedTarget = -1)
    (envs : List Surroundings) : run (update host) (some a) envs = some a := by
  induction envs with
  | nil => rfl
  | cons env rest ih =>
    have first : update host (some a) env = some a := update_ignores_fallback host chosen unmatched env
    rw [run_cons,first,ih]

-- The first update executes the entries that share the fallback's identifier,
-- once each and in table order, and marks the policy active; later ones execute
-- nothing more.
def FallbackExecuted (a : Adaptive σ) (env : Surroundings) : Prop :=
  ∃ t after,a.gddv.targets[a.fallbackId.toNat]? = some t ∧ updateEngineState host env a = some after ∧
    after.executed = a.executed ++ a.gddv.targets.filter (fun u => u.targetId = t.targetId) ∧
    after.policyActive = true ∧
    ∀ envs last,run (update host) (some after) envs = some last → last.executed = after.executed

theorem fallback_never_executed {env : Surroundings} {a started : Adaptive σ} (fresh : Fresh a)
    (start : thdEngineStart host env a = some started) (chosen : 0 ≤ started.fallbackId) :
    (∀ later,¬ FallbackExecuted host started later) ∧
      ∀ envs,run (update host) (some started) envs = some started ∧ started.executed = [] ∧
        started.policyActive = false := by
  obtain ⟨inactive,_,unmatched,log⟩ := fresh
  obtain ⟨matched,active,executed⟩ := start_idle host start
  refine ⟨?_,fun envs => ⟨updates_ignore_fallback host chosen (matched.trans unmatched) envs,
    executed.trans log,active.trans inactive⟩⟩
  intro later given
  obtain ⟨t,after,_,updated,_,activated,_⟩ := given
  rw [update_ignores_fallback host chosen (matched.trans unmatched) later] at updated
  cases updated
  rw [active,inactive] at activated
  cases activated

-- A vault whose only condition is on the display's orientation.
def orientationVault : Adaptive Int :=
  ⟨⟨[],[],[],0,false⟩,⟨[⟨3,"balanced","TCPU",0,"PL1MAX","15000"⟩],[[⟨2,"",1,1,0,0,0,3,0⟩]],[],[],[],[],[],-1⟩,
    false,-1,"\\_SB_.IETM",false,false,-1,[],false⟩

def plainHost : Host Int := ⟨Cdev.genSysfs,StdSort.insertion,fun d _ => some d,fun _ => none,false⟩

def noSurroundings : Surroundings := ⟨1000,fun _ => none,fun _ => none,none,none,none,none,75⟩

def orientationStarted : Adaptive Int := {orientationVault with fallbackId := 0}

theorem orientation_fallback_ignored :
    thdEngineStart plainHost noSurroundings orientationVault = some orientationStarted ∧
      orientationStarted.fallbackId = 0 ∧
      orientationStarted.gddv.targets.filter (fun u => u.targetId = 3) ≠ [] ∧
      updateEngineState plainHost noSurroundings orientationStarted = some orientationStarted ∧
      orientationStarted.executed = [] ∧ ¬ FallbackExecuted plainHost orientationStarted noSurroundings := by
  refine ⟨by decide,rfl,by decide,by decide,rfl,?_⟩
  intro given
  obtain ⟨t,after,_,updated,_,activated,_⟩ := given
  have kept : updateEngineState plainHost noSurroundings orientationStarted = some orientationStarted := by decide
  rw [kept] at updated
  cases updated
  cases activated

theorem fallback_never_executed_orientation : thdEngineStart plainHost noSurroundings orientationVault =
    some orientationStarted ∧ ∀ later,¬ FallbackExecuted plainHost orientationStarted later :=
  have start : thdEngineStart plainHost noSurroundings orientationVault = some orientationStarted := by decide
  ⟨start,(fallback_never_executed plainHost ⟨rfl,rfl,rfl,rfl⟩ start (by decide)).1⟩

end ChuwiMinibook.FallbackPolicy
