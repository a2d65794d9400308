import ChuwiMinibook.CdevActions
import ChuwiMinibook.Machine

namespace ChuwiMinibook.ExponentialController
open Cdev CdevActions Machine
variable {σ : Type} (m : Methods σ)

-- A class that reads back the state it was last set to.
structure Recording (m : Methods σ) : Prop where
  stored : ∀ d state arg,(m.setCurrState d state arg).1 = state
  read : ∀ d,m.getCurrState d = d.currState
  reread : ∀ d,m.getCurrStateAgain d = d.currState

theorem genSysfs_recording : Recording genSysfs := ⟨fun _ _ _ => rfl,fun _ => rfl,fun _ => rfl⟩

structure Call where
  state : Bool
  tempMinState : Int
  tempMaxState : Int

def step (d : Dev σ) (call : Call) : Dev σ :=
  thdCdevExponentialController m d call.state call.tempMinState call.tempMaxState

-- What the call passes to set_curr_state.
def passed (d : Dev σ) (call : Call) : Int := (controllerNext m d call.state call.tempMinState call.tempMaxState).2

def raiseStep (d : Dev σ) : Int := if d.incVal ≠ 0 then d.incVal else d.incDecVal

def nextPow (d : Dev σ) : Nat := if d.currPow < defaultMaxExponent then d.currPow+1 else d.currPow

-- The state that the doubled steps of this call start from.
def baseOf (d : Dev σ) (tempMinState : Int) : Int :=
  if d.currPow = 0 then thdClampStateMin d d.currState tempMinState else d.basePowState

-- The release step before its sign is set.
def releaseStep (d : Dev σ) : Int :=
  if d.decVal ≠ 0 then d.decVal else if d.minState ≤ d.maxState then d.incDecVal else -d.incDecVal

-- No intermediate value of the call leaves the int range.
def Exact (d : Dev σ) (call : Call) : Prop :=
  if call.state then
    FitsInt (thdClampStateMin d d.currState call.tempMinState + raiseStep d) ∧
    (d.trendIncrease = true → FitsInt (int2Pow (nextPow d)*raiseStep d) ∧
      FitsInt (baseOf d call.tempMinState + int2Pow (nextPow d)*raiseStep d))
  else d.autoDownAdjust = false → FitsInt (releaseStep d) ∧ FitsInt (reduceStep d) ∧
    FitsInt (thdClampStateMax d d.currState call.tempMaxState - reduceStep d)

-- Between the effective ends, towards the end the call is for, and without overflow.
structure Sound (d : Dev σ) (call : Call) : Prop where
  low : cooling d (effectiveMin d call.tempMinState) ≤ cooling d (passed m d call)
  high : cooling d (passed m d call) ≤ cooling d (effectiveMax d call.tempMaxState)
  onward : if call.state then cooling d d.currState ≤ cooling d (passed m d call)
    else cooling d (passed m d call) ≤ cooling d d.currState
  exact : Exact d call

-- The step of an activation points to max_state, the trip's limits leave a range, and
-- the state before the call, or the base of its doubled steps, fits in with them.
structure Fair (d : Dev σ) (call : Call) : Prop where
  window : cooling d (effectiveMin d call.tempMinState) ≤ cooling d (effectiveMax d call.tempMaxState)
  start : if call.state then cooling d d.currState ≤ cooling d (effectiveMax d call.tempMaxState)
    else cooling d (effectiveMin d call.tempMinState) ≤ cooling d d.currState
  sign : call.state = true → 0 ≤ cooling d (raiseStep d)
  reach : call.state = true → d.trendIncrease = true → d.currPow ≠ 0 →
    cooling d (effectiveMin d call.tempMinState) ≤ cooling d (d.basePowState + int2Pow (nextPow d)*raiseStep d)
  exact : Exact d call

theorem cooling_add (d : Dev σ) (a b : Int) : cooling d (a+b) = cooling d a + cooling d b := by
  unfold cooling
  split <;> omega

theorem cooling_sub (d : Dev σ) (a b : Int) : cooling d (a-b) = cooling d a - cooling d b := by
  unfold cooling
  split <;> omega

theorem cooling_mul (d : Dev σ) (a b : Int) : cooling d (a*b) = a*cooling d b := by
  unfold cooling
  split
  · rfl
  · rw [Int.mul_neg]

theorem cooling_reduceStep (d : Dev σ) : 0 ≤ cooling d (reduceStep d) := by
  unfold cooling reduceStep
  dsimp only
  generalize (if d.decVal ≠ 0 then d.decVal else if d.minState ≤ d.maxState then d.incDecVal else -d.incDecVal) = step
  by_cases up : d.minState ≤ d.maxState
  · rw [if_pos up]
    split
    · omega
    · split <;> omega
  · rw [if_neg up]
    split
    · omega
    · split <;> omega

theorem asked_first {m : Methods σ} (recording : Recording m) {d : Dev σ} (calm : d.trendIncrease = false) (low : Int) :
    asked m d low = thdClampStateMin d d.currState low + raiseStep d := by
  unfold asked increase raiseStep
  rw [recording.reread]
  dsimp only
  rw [if_neg (by simp [calm])]

theorem asked_repeat {m : Methods σ} (recording : Recording m) {d : Dev σ} (trend : d.trendIncrease = true) (low : Int)
    (fits : FitsInt (baseOf d low + int2Pow (nextPow d)*raiseStep d)) :
    asked m d low = baseOf d low + int2Pow (nextPow d)*raiseStep d := by
  have power : 0 < int2Pow (nextPow d) := Int.pow_pos (by decide)
  have wrapped := toInt_fits fits
  have value : asked m d low =
      if decide (d.incVal < 0 ∧ baseOf d low < toInt (baseOf d low + int2Pow (nextPow d)*raiseStep d)) ||
          decide (d.incVal > 0 ∧ baseOf d low > toInt (baseOf d low + int2Pow (nextPow d)*raiseStep d)) then d.maxState
        else toInt (baseOf d low + int2Pow (nextPow d)*raiseStep d) := by
    unfold asked increase baseOf nextPow raiseStep
    rw [recording.reread]
    dsimp only
    rw [if_pos trend]
    by_cases first : d.currPow = 0
    · have short : d.currPow < defaultMaxExponent := by
        rw [first]
        decide
      simp only [first,if_true,show (0 < defaultMaxExponent) from by decide]
    · by_cases short : d.currPow < defaultMaxExponent
      · simp only [first,if_false,short,if_true]
      · simp only [first,if_false,short]
  rw [value,wrapped,if_neg]
  simp only [Bool.or_eq_true,decide_eq_true_eq,not_or]
  unfold raiseStep
  constructor
  · intro overflowed
    obtain ⟨negative,above⟩ := overflowed
    rw [if_pos (by omega)] at above
    have below := Int.mul_neg_of_pos_of_neg power negative
    omega
  · intro overflowed
    obtain ⟨positive,below⟩ := overflowed
    rw [if_pos (by omega)] at below
    have above := Int.mul_pos power positive
    omega

theorem asked_value {m : Methods σ} (recording : Recording m) {d : Dev σ} {call : Call} (on : call.state = true)
    (exact : Exact d call) : asked m d call.tempMinState =
      if d.trendIncrease then baseOf d call.tempMinState + int2Pow (nextPow d)*raiseStep d
      else thdClampStateMin d d.currState call.tempMinState + raiseStep d := by
  rw [Exact,if_pos on] at exact
  by_cases trend : d.trendIncrease = true
  · rw [if_pos trend]
    exact asked_repeat recording trend _ (exact.2 trend).2
  · rw [if_neg trend]
    exact asked_first recording (Bool.eq_false_iff.mpr trend) _

theorem passed_raised (d : Dev σ) {call : Call} (on : call.state = true) : cooling d (passed m d call) =
    min (cooling d (asked m d call.tempMinState)) (cooling d (effectiveMax d call.tempMaxState)) := by
  unfold passed controllerNext
  rw [if_pos on,raised_value,cooling_clampMax]

theorem passed_lowered {m : Methods σ} (recording : Recording m) (d : Dev σ) {call : Call} (off : call.state = false) :
    ∃ next,cooling d (passed m d call) = min (max (cooling d next) (cooling d (effectiveMin d call.tempMinState)))
        (cooling d (effectiveMax d call.tempMaxState)) ∧
      (cooling d next ≤ cooling d d.currState ∨ cooling d next ≤ cooling d (effectiveMin d call.tempMinState)) := by
  have value (next : Int) : cooling d (thdClampStateMax d (thdClampStateMin d next call.tempMinState) call.tempMaxState) =
      min (max (cooling d next) (cooling d (effectiveMin d call.tempMinState)))
        (cooling d (effectiveMax d call.tempMaxState)) := by
    rw [cooling_clampMax,cooling_clampMin]
  unfold passed controllerNext
  rw [if_neg (by simp [off])]
  refine ⟨_,value _,?_⟩
  split
  · exact .inr (cooling_effectiveMin d call.tempMinState)
  · have step := cooling_reduceStep d
    rw [cooling_sub,cooling_clampMax,recording.read]
    omega

-- A device in the middle of repeated activations: the step points to max_state, and
-- curr_state is not past the state the doubled step led to.
structure Climbing (d : Dev σ) : Prop where
  sign : d.trendIncrease = true → 0 ≤ cooling d (raiseStep d)
  reached : d.trendIncrease = true → d.currPow ≠ 0 →
    cooling d d.currState ≤ cooling d (d.basePowState + int2Pow d.currPow*raiseStep d)

theorem climbing_calm {d : Dev σ} (calm : d.trendIncrease = false) : Climbing d :=
  ⟨fun trend => absurd trend (by simp [calm]),fun trend => absurd trend (by simp [calm])⟩

theorem int2Pow_next (d : Dev σ) : int2Pow d.currPow ≤ int2Pow (nextPow d) := by
  unfold int2Pow nextPow
  split
  · exact_mod_cast Nat.pow_le_pow_right (by decide) (Nat.le_succ _)
  · exact le_refl _

theorem asked_rises {m : Methods σ} (recording : Recording m) {d : Dev σ} (climbing : Climbing d) {call : Call}
    (on : call.state = true) (fair : Fair d call) :
    cooling d d.currState ≤ cooling d (asked m d call.tempMinState) ∧
      cooling d (effectiveMin d call.tempMinState) ≤ cooling d (asked m d call.tempMinState) := by
  have sign := fair.sign on
  have growth : 0 ≤ int2Pow (nextPow d)*cooling d (raiseStep d) :=
    Int.mul_nonneg (Int.le_of_lt (Int.pow_pos (by decide))) sign
  rw [asked_value recording on fair.exact]
  by_cases trend : d.trendIncrease = true
  · rw [if_pos trend,cooling_add,cooling_mul,baseOf]
    by_cases first : d.currPow = 0
    · rw [if_pos first,cooling_clampMin]
      omega
    · have reach := fair.reach on trend first
      have reached := climbing.reached trend first
      have more := Int.mul_le_mul_of_nonneg_right (int2Pow_next d) sign
      rw [cooling_add,cooling_mul] at reach reached
      rw [if_neg first]
      omega
  · rw [if_neg trend,cooling_add,cooling_clampMin]
    omega

-- One call behaves exactly when it is given a fair chance to.
theorem sound_iff_fair {m : Methods σ} (recording : Recording m) {d : Dev σ} (climbing : Climbing d) (call : Call) :
    Sound m d call ↔ Fair d call := by
  cases on : call.state with
  | true =>
    have value := passed_raised m d on
    constructor
    · intro sound
      obtain ⟨low,high,onward,exact⟩ := sound
      rw [if_pos on] at onward
      have asked := asked_value recording on exact
      refine ⟨by omega,by rw [if_pos on]; omega,?_,?_,exact⟩
      · intro _
        by_cases trend : d.trendIncrease = true
        · exact climbing.sign trend
        · rw [if_neg trend] at asked
          rw [asked,cooling_add,cooling_clampMin] at value
          omega
      · intro _ trend later
        rw [if_pos trend,baseOf,if_neg later] at asked
        rw [asked] at value
        omega
    · intro fair
      obtain ⟨above,reaching⟩ := asked_rises recording climbing on fair
      have start := fair.start
      have window := fair.window
      rw [if_pos on] at start
      exact ⟨by omega,by omega,by rw [if_pos on]; omega,fair.exact⟩
  | false =>
    obtain ⟨next,value,below⟩ := passed_lowered recording d on
    have off : ¬ call.state = true := by simp [on]
    constructor
    · intro sound
      obtain ⟨low,high,onward,exact⟩ := sound
      rw [if_neg off] at onward
      exact ⟨by omega,by rw [if_neg off]; omega,fun yes => absurd yes off,fun yes => absurd yes off,exact⟩
    · intro fair
      have start := fair.start
      have window := fair.window
      rw [if_neg off] at start
      exact ⟨by omega,by omega,by rw [if_neg off]; omega,fair.exact⟩

theorem step_range (d : Dev σ) (call : Call) :
    (step m d call).minState = d.minState ∧ (step m d call).maxState = d.maxState := by
  have same := controllerNext_range m d call.state call.tempMinState call.tempMaxState
  rw [step,controller_eq]
  exact ⟨same.low,same.high⟩

theorem step_currState {m : Methods σ} (recording : Recording m) (d : Dev σ) (call : Call) :
    (step m d call).currState = passed m d call := by
  rw [step,controller_eq]
  exact recording.stored _ _ _

theorem step_cooling (d : Dev σ) (call : Call) (state : Int) : cooling (step m d call) state = cooling d state := by
  obtain ⟨low,high⟩ := step_range m d call
  rw [cooling,cooling,low,high]

-- The fields of the exponential controller after an activation.
theorem step_raised {m : Methods σ} (recording : Recording m) (d : Dev σ) {call : Call} (on : call.state = true) :
    raiseStep (step m d call) = raiseStep d ∧ (step m d call).currPow = (if d.trendIncrease then nextPow d else 0) ∧
      (d.trendIncrease = true → (step m d call).basePowState = baseOf d call.tempMinState) := by
  have fields : raiseStep (step m d call) =
        raiseStep (increase d (thdClampStateMin d (m.getCurrStateAgain d) call.tempMinState)).1 ∧
      (step m d call).currPow = (increase d (thdClampStateMin d (m.getCurrStateAgain d) call.tempMinState)).1.currPow ∧
      (step m d call).basePowState =
        (increase d (thdClampStateMin d (m.getCurrStateAgain d) call.tempMinState)).1.basePowState := by
    rw [step,controller_eq,on]
    exact ⟨rfl,rfl,rfl⟩
  obtain ⟨one,two,three⟩ := fields
  rw [one,two,three,recording.reread]
  unfold increase raiseStep nextPow baseOf
  dsimp only
  by_cases trend : d.trendIncrease = true
  · simp only [if_pos trend]
    by_cases first : d.currPow = 0
    · simp [first,defaultMaxExponent]
    · by_cases short : d.currPow < defaultMaxExponent <;> simp [first,short]
  · simp [trend]

theorem step_lowered (d : Dev σ) {call : Call} (off : call.state = false) : (step m d call).trendIncrease = false := by
  rw [step,controller_eq,off]
  rfl

theorem climbing_step {m : Methods σ} (recording : Recording m) {d : Dev σ} {call : Call} (fair : Fair d call) :
    Climbing (step m d call) := by
  cases on : call.state with
  | false => exact climbing_calm (step_lowered m d on)
  | true =>
    obtain ⟨same,power,base⟩ := step_raised recording d on
    refine ⟨?_,?_⟩
    · intro _
      rw [step_cooling,same]
      exact fair.sign on
    · intro _ later
      have trend : d.trendIncrease = true := by
        by_contra calm
        rw [power,if_neg calm] at later
        exact later rfl
      have value := passed_raised m d on
      rw [asked_value recording on fair.exact,if_pos trend] at value
      rw [step_cooling,step_cooling,step_currState recording,same,power,if_pos trend,base trend]
      omega

-- A run of the controller from a device at rest behaves in every call exactly when
-- each of its calls is fair in the state it finds; activations in a row then climb.
theorem exponential_controller_iff {m : Methods σ} (recording : Recording m) {d : Dev σ} (rest : d.trendIncrease = false)
    (calls : List Call) :
    (Stepwise (fun before call => Sound m (run (step m) d before) call) calls ↔ Meets (step m) Fair d calls) ∧
    (Meets (step m) Fair d calls → ∀ before one two after,calls = before++one::two::after →
      one.state = true → two.state = true →
      cooling d (passed m (run (step m) d before) one) ≤ cooling d (passed m (run (step m) d (before++[one])) two)) := by
  have climbs (calls : List Call) (fair : Meets (step m) Fair d calls) : Climbing (run (step m) d calls) := by
    have start := climbing_calm rest
    exact run_invariant (fun _ _ _ fair => climbing_step recording fair) start fair
  have exactly : Stepwise (fun before call => Sound m (run (step m) d before) call) calls ↔ Meets (step m) Fair d calls := by
    induction calls using List.reverseRecOn with
    | nil => exact ⟨fun _ => trivial,fun _ => stepwise_nil _⟩
    | append_singleton calls call ih =>
      rw [stepwise_snoc,meets_append,ih]
      refine and_congr_right ?_
      intro fair
      rw [sound_iff_fair recording (climbs calls fair) call]
      exact ⟨fun last => ⟨last,trivial⟩,And.left⟩
  refine ⟨exactly,?_⟩
  intro fair before one two after split first second
  have sound := exactly.mpr fair (before++[one]) two after (by rw [split,List.append_assoc]; rfl)
  have onward := sound.onward
  rw [if_pos second,run_snoc] at onward
  have same (state : Int) : cooling (step m (run (step m) d before) one) state = cooling d state := by
    rw [step_cooling]
    have range : ∀ calls,(run (step m) d calls).minState = d.minState ∧ (run (step m) d calls).maxState = d.maxState := by
      intro calls
      induction calls using List.reverseRecOn with
      | nil => exact ⟨rfl,rfl⟩
      | append_singleton calls call ih =>
        obtain ⟨low,high⟩ := step_range m (run (step m) d calls) call
        rw [run_snoc,low,high]
        exact ih
    rw [cooling,cooling,(range before).1,(range before).2]
  rw [same,same,step_currState recording] at onward
  rwa [run_snoc]

-- A device as user_add_cdev leaves it, with its range and its step.
def userCdev (low high step : Int) : Dev Int :=
  ⟨low,high,low,0,0,step,false,2,0,false,false,Pid.new,false,0,0,low⟩

def activation : Call := ⟨true,0,0⟩

-- A negative step on a rising range, and a step whose doubling leaves the int range.
theorem activation_moves_away :
    passed genSysfs (userCdev 0 100 (-5)) activation = -5 ∧ ¬Sound genSysfs (userCdev 0 100 (-5)) activation ∧
    (run (step genSysfs) (userCdev 0 2000000000 4096) (List.replicate 19 activation)).currState = 1073745920 ∧
    passed genSysfs (run (step genSysfs) (userCdev 0 2000000000 4096) (List.replicate 19 activation)) activation =
      -2147479552 := by
  refine ⟨by decide,?_,by decide,by decide⟩
  intro sound
  exact absurd sound.low (by decide)

theorem exponential_controller_three_calls :
    (userCdev 0 100 5).trendIncrease = false ∧
    Stepwise (fun before call => Sound genSysfs (run (step genSysfs) (userCdev 0 100 5) before) call)
      [activation,activation,⟨false,0,0⟩] := by
  have fair : Meets (step genSysfs) Fair (userCdev 0 100 5) [activation,activation,⟨false,0,0⟩] :=
    ⟨⟨by decide,by decide,by decide,by decide,by unfold Exact; decide⟩,
      ⟨by decide,by decide,by decide,by decide,by unfold Exact; decide⟩,
      ⟨by decide,by decide,by decide,by decide,by unfold Exact; decide⟩,trivial⟩
  exact ⟨rfl,(exponential_controller_iff genSysfs_recording rfl _).1.mpr fair⟩

end ChuwiMinibook.ExponentialController
