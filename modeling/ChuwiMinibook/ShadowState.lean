import ChuwiMinibook.CdevActions

namespace ChuwiMinibook.ShadowState
open Cdev CdevActions
variable {σ : Type}

-- set_curr_state of a class, with a record of the states it is passed.
def logged (set : Dev σ → Int → Bool → Int × σ) (d : Dev (σ × List Int)) (state : Int) (arg : Bool) :
    Int × (σ × List Int) :=
  let written := set {d with ext := d.ext.1} state arg
  (written.1,written.2,d.ext.2++[state])

-- A class with its own set_curr_state and everything else from cthd_cdev.
abbrev watched (set : Dev σ → Int → Bool → Int × σ) : Methods (σ × List Int) := inherited (logged set)

def InRange (d : Dev σ) (state : Int) : Prop :=
  min d.minState d.maxState ≤ state ∧ state ≤ max d.minState d.maxState

-- One state was passed since, and curr_state is that state, inside the range.
def Matches (before after : Dev (σ × List Int)) : Prop :=
  InRange after after.currState ∧ after.ext.2 = before.ext.2++[after.currState]

def PassesOn (set : Dev σ → Int → Bool → Int × σ) (d : Dev (σ × List Int)) : Prop :=
  ∀ state arg,InRange d state → ((watched set).setCurrStateRaw d state arg).2.2 = d.ext.2++[state]

def rawState (d : Dev σ) (state : Int) : Int :=
  let state := if state > d.maxState then d.maxState else state
  if state < d.minState then d.minState else state

-- The device when set_curr_state is called, and the state it is passed.
def passing (m : Methods σ) (d : Dev σ) (now : Int) (q : Request) (o : Order) (pid : Pid) : Dev σ × Int :=
  let d := beginAction m d now q
  if o.targetStateValid then (d,rawState d o.targetValue)
  else if q.hardTarget then (d,rawState d (m.getMaxState d))
  else if (q.pidParam.map (·.valid)).getD false then
    let (_,output) := (pid.setTargetTemp q.targetTemp).pidOutput now q.temperature
      (toInt (m.getCurrStateAgain d - d.minState))
    (d,rawState d (clampPid d.minState (m.getMaxState d) (toInt (output + d.minState))))
  else if d.pidEnable then
    let (ctrl,output) := (d.pidCtrl.setTargetTemp q.targetTemp).pidOutput now q.temperature 0
    ({d with pidCtrl := ctrl},rawState d (clampPid d.minState (m.getMaxState d) (toInt (output + d.minState))))
  else if q.state then raised m d o.minState o.maxState
  else lowered m d 0 0

theorem actuate_passing (set : Dev σ → Int → Bool → Int × σ) (d : Dev σ) (now : Int) (q : Request) (o : Order) (pid : Pid) :
    (actuate (inherited set) d now q o pid).1 =
      let p := passing (inherited set) d now q o pid
      let written := put p.1 (set p.1 p.2 q.state)
      if o.targetStateValid then {written with currState := o.targetValue} else written := by
  unfold actuate passing
  dsimp only
  split
  · rfl
  split
  · rfl
  split
  · rfl
  split
  · rfl
  split
  · rename_i on
    rw [controller_eq,on]
    rfl
  · rename_i off
    rw [controller_eq,Bool.eq_false_iff.mpr off]
    rfl

theorem passing_range (m : Methods σ) (d : Dev σ) (now : Int) (q : Request) (o : Order) (pid : Pid) :
    SameRange d (passing m d now q o pid).1 := by
  have begun := beginAction_range m d now q
  unfold passing
  dsimp only
  split
  · exact begun
  split
  · exact begun
  split
  · exact begun
  split
  · exact ⟨begun.low,begun.high,begun.ext⟩
  split
  · exact begun.trans (controllerNext_range m (beginAction m d now q) true o.minState o.maxState)
  · exact begun.trans (controllerNext_range m (beginAction m d now q) false 0 0)

theorem rawState_within {d : Dev σ} (up : d.minState ≤ d.maxState) (state : Int) :
    d.minState ≤ rawState d state ∧ rawState d state ≤ d.maxState := by
  unfold rawState
  dsimp only
  split <;> split <;> omega

theorem rawState_same {d : Dev σ} (up : d.minState ≤ d.maxState) {state : Int} :
    rawState d state = state ↔ d.minState ≤ state ∧ state ≤ d.maxState := by
  constructor
  · intro same
    rw [← same]
    exact rawState_within up state
  · intro inside
    unfold rawState
    rw [if_neg (Int.not_lt.mpr inside.2),if_neg (Int.not_lt.mpr inside.1)]

theorem inRange_up {d : Dev σ} (up : d.minState ≤ d.maxState) (state : Int) :
    InRange d state ↔ d.minState ≤ state ∧ state ≤ d.maxState := by
  rw [InRange,min_eq_left up,max_eq_right up]

-- set_curr_state_raw is right for one direction of the range only.
theorem passesOn_iff (set : Dev σ → Int → Bool → Int × σ) (d : Dev (σ × List Int)) :
    PassesOn set d ↔ d.minState ≤ d.maxState := by
  have passed (state : Int) (arg : Bool) :
      ((watched set).setCurrStateRaw d state arg).2.2 = d.ext.2++[rawState d state] := rfl
  constructor
  · intro all
    by_contra down
    have inside : InRange d d.maxState := by
      unfold InRange
      omega
    have last := all d.maxState false inside
    rw [passed,List.append_cancel_left_eq,List.singleton_inj] at last
    have low : rawState d d.maxState = d.minState := by
      unfold rawState
      rw [if_neg (lt_irrefl _),if_pos (Int.not_le.mp down)]
    omega
  · intro up state arg inside
    rw [passed,(rawState_same up).mpr ((inRange_up up state).mp inside)]

-- The exponential controller is asked for a state that its clamps leave above min_state.
def Climbs (m : Methods σ) (d : Dev σ) (now : Int) (q : Request) (o : Order) : Prop :=
  let d := beginAction m d now q
  q.state = true → d.minState ≤ effectiveMax d o.maxState ∧ d.minState ≤ asked m d o.minState

-- A range from min_state up to max_state, and in the branch that acts a target inside
-- it, or a set_curr_state that stores the state it is passed.
def Suits (set : Dev σ → Int → Bool → Int × σ) (d : Dev (σ × List Int)) (now : Int) (q : Request) (o : Order) (pid : Pid) :
    Prop :=
  d.minState ≤ d.maxState ∧
  if o.targetStateValid then d.minState ≤ o.targetValue ∧ o.targetValue ≤ d.maxState
  else
    let p := passing (watched set) d now q o pid
    (logged set p.1 p.2 q.state).1 = p.2 ∧
      (q.hardTarget = false → (q.pidParam.map (·.valid)).getD false = false → d.pidEnable = false →
        Climbs (watched set) d now q o)

theorem raised_within (m : Methods σ) {d : Dev σ} (up : d.minState ≤ d.maxState) (low high : Int) :
    (d.minState ≤ (raised m d low high).2 ∧ (raised m d low high).2 ≤ d.maxState) ↔
      d.minState ≤ effectiveMax d high ∧ d.minState ≤ asked m d low := by
  have top := cooling_effectiveMax d high
  rw [cooling,cooling,if_pos up,if_pos up] at top
  rw [raised_value,clampMax_up up]
  omega

theorem lowered_within (m : Methods σ) {d : Dev σ} (up : d.minState ≤ d.maxState) :
    d.minState ≤ (lowered m d 0 0).2 ∧ (lowered m d 0 0).2 ≤ d.maxState := by
  unfold lowered
  dsimp only
  rw [clampMax_up up,clampMin_up up,effectiveMin_zero,effectiveMax_zero]
  omega

-- The state passed lies in the range unless the controller leads out of it.
theorem passing_within (set : Dev σ → Int → Bool → Int × σ) {d : Dev (σ × List Int)} (up : d.minState ≤ d.maxState)
    (now : Int) (q : Request) {o : Order} (plain : o.targetStateValid = false) (pid : Pid) :
    (d.minState ≤ (passing (watched set) d now q o pid).2 ∧ (passing (watched set) d now q o pid).2 ≤ d.maxState) ↔
      (q.hardTarget = false → (q.pidParam.map (·.valid)).getD false = false → d.pidEnable = false →
        Climbs (watched set) d now q o) := by
  have begun := beginAction_range (watched set) d now q
  have enabled : (beginAction (watched set) d now q).pidEnable = d.pidEnable := by
    unfold beginAction
    dsimp only
    split <;> rfl
  have upward : (beginAction (watched set) d now q).minState ≤ (beginAction (watched set) d now q).maxState := by
    rw [begun.low,begun.high]
    exact up
  have raw (state : Int) : d.minState ≤ rawState (beginAction (watched set) d now q) state ∧
      rawState (beginAction (watched set) d now q) state ≤ d.maxState := by
    have within := rawState_within upward state
    rwa [begun.low,begun.high] at within
  unfold passing
  dsimp only
  rw [if_neg (by simp [plain])]
  split
  · rename_i hard
    exact ⟨fun _ soft => absurd soft (by simp [hard]),fun _ => raw _⟩
  split
  · rename_i own
    exact ⟨fun _ _ none => absurd none (by simp [own]),fun _ => raw _⟩
  rw [enabled]
  split
  · rename_i on
    exact ⟨fun _ _ _ off => absurd off (by simp [on]),fun _ => raw _⟩
  split
  · rename_i soft foreign off on
    have within := raised_within (watched set) upward o.minState o.maxState
    rw [begun.low,begun.high] at within
    rw [within]
    constructor
    · intro above _ _ _ _
      rwa [begun.low]
    · intro climbs
      have above := climbs (Bool.eq_false_iff.mpr soft) (Bool.eq_false_iff.mpr foreign) (Bool.eq_false_iff.mpr off) on
      rwa [begun.low] at above
  · rename_i off
    have within := lowered_within (watched set) upward
    rw [begun.low,begun.high] at within
    exact ⟨fun _ _ _ _ on => absurd on off,fun _ => within⟩

theorem matches_target (set : Dev σ → Int → Bool → Int × σ) {d : Dev (σ × List Int)} (up : d.minState ≤ d.maxState)
    (now : Int) (q : Request) {o : Order} (valid : o.targetStateValid = true) (pid : Pid) :
    Matches d (actuate (watched set) d now q o pid).1 ↔ d.minState ≤ o.targetValue ∧ o.targetValue ≤ d.maxState := by
  have begun := beginAction_range (watched set) d now q
  have upward : (beginAction (watched set) d now q).minState ≤ (beginAction (watched set) d now q).maxState := by
    rw [begun.low,begun.high]
    exact up
  have passed : passing (watched set) d now q o pid =
      (beginAction (watched set) d now q,rawState (beginAction (watched set) d now q) o.targetValue) := if_pos valid
  rw [Matches,actuate_passing]
  dsimp only
  rw [if_pos valid,passed]
  show InRange _ o.targetValue ∧ (beginAction (watched set) d now q).ext.2++
    [rawState (beginAction (watched set) d now q) o.targetValue] = d.ext.2++[o.targetValue] ↔ _
  rw [begun.ext,List.append_cancel_left_eq,List.singleton_inj,rawState_same upward,begun.low,begun.high]
  refine and_iff_right_of_imp ?_
  intro inside
  exact (inRange_up (d := {put _ _ with currState := o.targetValue}) upward _).mpr (by rwa [← begun.low,← begun.high] at inside)

theorem matches_stored (set : Dev σ → Int → Bool → Int × σ) {d : Dev (σ × List Int)} (up : d.minState ≤ d.maxState)
    (now : Int) (q : Request) {o : Order} (plain : o.targetStateValid = false) (pid : Pid) :
    Matches d (actuate (watched set) d now q o pid).1 ↔
      (logged set (passing (watched set) d now q o pid).1 (passing (watched set) d now q o pid).2 q.state).1 =
        (passing (watched set) d now q o pid).2 ∧
      (q.hardTarget = false → (q.pidParam.map (·.valid)).getD false = false → d.pidEnable = false →
        Climbs (watched set) d now q o) := by
  have same := passing_range (watched set) d now q o pid
  rw [Matches,actuate_passing,← passing_within set up now q plain pid]
  dsimp only
  rw [if_neg (by simp [plain])]
  generalize passing (watched set) d now q o pid = p at same ⊢
  have upward : p.1.minState ≤ p.1.maxState := by
    rw [same.low,same.high]
    exact up
  show InRange (put p.1 (logged set p.1 p.2 q.state)) (logged set p.1 p.2 q.state).1 ∧
    p.1.ext.2++[p.2] = d.ext.2++[(logged set p.1 p.2 q.state).1] ↔ _
  have range : InRange (put p.1 (logged set p.1 p.2 q.state)) (logged set p.1 p.2 q.state).1 ↔ _ :=
    inRange_up (d := put p.1 (logged set p.1 p.2 q.state)) upward _
  rw [range,same.ext,List.append_cancel_left_eq,List.singleton_inj]
  show (p.1.minState ≤ _ ∧ _ ≤ p.1.maxState) ∧ _ ↔ _
  rw [same.low,same.high]
  constructor
  · intro given
    obtain ⟨inside,stored⟩ := given
    exact ⟨stored.symm,stored ▸ inside⟩
  · intro given
    obtain ⟨stored,inside⟩ := given
    exact ⟨by rwa [stored],stored.symm⟩

-- After a call that reaches a control branch.
theorem shadow_matches_iff (srt : StdSort) (set : Dev σ → Int → Bool → Int × σ) (c : Cdev (σ × List Int)) (now : Int)
    (q : Request) (pid : Pid) (o : Order) (reached : (arbitrate (watched set) srt c now q).2 = some o) :
    (Matches c.dev (thdCdevSetState (watched set) srt c now q pid).1.dev ∧
      PassesOn set (thdCdevSetState (watched set) srt c now q pid).1.dev) ↔ Suits set c.dev now q o pid := by
  have acted : (thdCdevSetState (watched set) srt c now q pid).1.dev = (actuate (watched set) c.dev now q o pid).1 := by
    have decided : arbitrate (watched set) srt c now q = (_,some o) := Prod.ext rfl reached
    unfold thdCdevSetState
    rw [decided]
  obtain ⟨low,high⟩ := actuate_range (watched set) c.dev now q o pid
  rw [acted,passesOn_iff,low,high,Suits,and_comm]
  refine and_congr_right ?_
  intro up
  cases valid : o.targetStateValid with
  | true => exact matches_target set up now q valid pid
  | false => exact matches_stored set up now q valid pid

-- A class that stores every state, on a range from 0 up to 10 and from 10 down to 0.
def storing : Dev Unit → Int → Bool → Int × Unit := fun _ state _ => (state,())

def ranged (low high : Int) : Cdev (Unit × List Int) :=
  ⟨0,"Processor","",⟨low,high,low,0,0,1,false,2,0,false,false,Pid.new,false,0,0,((),[])⟩,[]⟩

def aimed (target : Int) : Request := ⟨50000,60000,false,true,1,1,true,target,none,false,false,0,0⟩

-- A target above the range is passed on as 10 and kept as 15; on the reversed range
-- the state 4 is passed on as 10.
theorem shadow_leaves_range :
    (arbitrate (watched storing) StdSort.insertion (ranged 0 10) 10 (aimed 15)).2 = some ⟨true,15,0,0⟩ ∧
    (thdCdevSetState (watched storing) StdSort.insertion (ranged 0 10) 10 (aimed 15) Pid.new).1.dev.currState = 15 ∧
    (thdCdevSetState (watched storing) StdSort.insertion (ranged 0 10) 10 (aimed 15) Pid.new).1.dev.ext.2 = [10] ∧
    ¬Matches (ranged 0 10).dev
      (thdCdevSetState (watched storing) StdSort.insertion (ranged 0 10) 10 (aimed 15) Pid.new).1.dev ∧
    ((watched storing).setCurrStateRaw (ranged 10 0).dev 4 true).2.2 = [10] ∧ ¬PassesOn storing (ranged 10 0).dev := by
  refine ⟨by decide,by decide,by decide,?_,by decide,?_⟩
  · intro given
    exact absurd given.1.2 (by decide)
  · rw [passesOn_iff]
    decide

-- A request in every branch: a target inside the range, a hard target, a PID trip,
-- and the exponential controller up and down.
def asking (hard state : Bool) (pidParam : Option PidParam) : Request :=
  ⟨50000,60000,hard,state,1,1,false,0,pidParam,false,false,0,0⟩

def Follows (c : Cdev (Unit × List Int)) (now : Int) (q : Request) : Prop := ∃ o,
  (arbitrate (watched storing) StdSort.insertion c now q).2 = some o ∧ Suits storing c.dev now q o Pid.new ∧
    Matches c.dev (thdCdevSetState (watched storing) StdSort.insertion c now q Pid.new).1.dev

theorem shadow_matches_inside :
    Follows (ranged 0 10) 10 (aimed 4) ∧ Follows (ranged 0 10) 10 (asking true true none) ∧
      Follows (ranged 0 10) 10 (asking false true (some ⟨true,1/10,0,0⟩)) ∧
      Follows (ranged 0 10) 10 (asking false true none) ∧
      Follows (thdCdevSetState (watched storing) StdSort.insertion (ranged 0 10) 10 (asking false true none) Pid.new).1 20
        (asking false false none) := by
  have follows {c : Cdev (Unit × List Int)} {now : Int} {q : Request} {o : Order}
      (reached : (arbitrate (watched storing) StdSort.insertion c now q).2 = some o) (suits : Suits storing c.dev now q o Pid.new) :
      Follows c now q := ⟨o,reached,suits,((shadow_matches_iff StdSort.insertion storing c now q Pid.new o reached).mpr suits).1⟩
  have target : (arbitrate (watched storing) StdSort.insertion (ranged 0 10) 10 (aimed 4)).2 = some ⟨true,4,0,0⟩ := by decide
  refine ⟨follows target ?_,follows rfl ?_,follows rfl ?_,follows rfl ?_,follows rfl ?_⟩
  all_goals
    unfold Suits Climbs
    decide +kernel

end ChuwiMinibook.ShadowState
