import ChuwiMinibook.Cdev

namespace ChuwiMinibook.CdevActions
open Cdev
variable {σ : Type} (m : Methods σ)

-- A class that leaves everything but set_curr_state to cthd_cdev.
def inherited (set : Dev σ → Int → Bool → Int × σ) : Methods σ :=
  {base with setCurrState := set,setCurrStateRaw := clampRaw set}

-- How much cooling a state asks for. It grows from min_state to max_state in
-- both directions of the range.
def cooling (d : Dev σ) (state : Int) : Int := if d.minState ≤ d.maxState then state else -state

-- The ends of the range under the limits of one trip; 0 stands for no limit.
def effectiveMin (d : Dev σ) (tempMinState : Int) : Int :=
  if d.minState ≤ d.maxState then
    if tempMinState ≠ 0 ∧ tempMinState > d.minState then tempMinState else d.minState
  else if tempMinState ≠ 0 ∧ tempMinState < d.minState then tempMinState else d.minState

def effectiveMax (d : Dev σ) (tempMaxState : Int) : Int :=
  if d.minState ≤ d.maxState then
    if tempMaxState ≠ 0 ∧ tempMaxState < d.maxState then tempMaxState else d.maxState
  else if tempMaxState ≠ 0 ∧ tempMaxState > d.maxState then tempMaxState else d.maxState

section Ends
variable (d : Dev σ) (state temp : Int)

theorem cooling_clampMin : cooling d (thdClampStateMin d state temp) =
    max (cooling d state) (cooling d (effectiveMin d temp)) := by
  unfold cooling thdClampStateMin effectiveMin
  by_cases up : d.minState ≤ d.maxState
  · simp only [if_pos up]
    generalize (if temp ≠ 0 ∧ temp > d.minState then temp else d.minState) = low
    split <;> omega
  · simp only [if_neg up]
    generalize (if temp ≠ 0 ∧ temp < d.minState then temp else d.minState) = low
    split <;> omega

theorem cooling_clampMax : cooling d (thdClampStateMax d state temp) =
    min (cooling d state) (cooling d (effectiveMax d temp)) := by
  unfold cooling thdClampStateMax effectiveMax
  by_cases up : d.minState ≤ d.maxState
  · simp only [if_pos up]
    generalize (if temp ≠ 0 ∧ temp < d.maxState then temp else d.maxState) = high
    split <;> omega
  · simp only [if_neg up]
    generalize (if temp ≠ 0 ∧ temp > d.maxState then temp else d.maxState) = high
    split <;> omega

theorem cooling_effectiveMin : cooling d d.minState ≤ cooling d (effectiveMin d temp) := by
  unfold cooling effectiveMin
  split <;> split <;> omega

theorem cooling_effectiveMax : cooling d (effectiveMax d temp) ≤ cooling d d.maxState := by
  unfold cooling effectiveMax
  split <;> split <;> omega

theorem effectiveMin_zero : effectiveMin d 0 = d.minState := by simp [effectiveMin]

theorem effectiveMax_zero : effectiveMax d 0 = d.maxState := by simp [effectiveMax]

end Ends

theorem clampMin_up {d : Dev σ} (up : d.minState ≤ d.maxState) (state temp : Int) :
    thdClampStateMin d state temp = max state (effectiveMin d temp) := by
  simpa only [cooling,if_pos up] using cooling_clampMin d state temp

theorem clampMax_up {d : Dev σ} (up : d.minState ≤ d.maxState) (state temp : Int) :
    thdClampStateMax d state temp = min state (effectiveMax d temp) := by
  simpa only [cooling,if_pos up] using cooling_clampMax d state temp

-- In the other direction the clamps change places.
section Descending
variable {d : Dev σ}

theorem clampMin_down (down : d.maxState < d.minState) (state temp : Int) :
    thdClampStateMin d state temp = min state (effectiveMin d temp) := by
  have value := cooling_clampMin d state temp
  simp only [cooling,if_neg (Int.not_le.mpr down)] at value
  omega

theorem clampMax_down (down : d.maxState < d.minState) (state temp : Int) :
    thdClampStateMax d state temp = max state (effectiveMax d temp) := by
  have value := cooling_clampMax d state temp
  simp only [cooling,if_neg (Int.not_le.mpr down)] at value
  omega

theorem effectiveMin_down (down : d.maxState < d.minState) (temp : Int) :
    effectiveMin d temp ≤ d.minState ∧ (temp ≠ 0 → effectiveMin d temp ≤ temp) := by
  unfold effectiveMin
  rw [if_neg (Int.not_le.mpr down)]
  split <;> omega

theorem effectiveMax_down (down : d.maxState < d.minState) (temp : Int) :
    effectiveMax d temp = if temp ≠ 0 then max temp d.maxState else d.maxState := by
  unfold effectiveMax
  rw [if_neg (Int.not_le.mpr down)]
  by_cases zero : temp = 0
  · simp [zero]
  · by_cases above : temp > d.maxState
    · rw [if_pos ⟨zero,above⟩,if_pos zero]
      omega
    · rw [if_neg (by simp [above]),if_pos zero]
      omega

theorem effectiveMax_below (down : d.maxState < d.minState) (temp : Int) : d.maxState ≤ effectiveMax d temp := by
  rw [effectiveMax_down down]
  split <;> omega

end Descending

theorem cooling_inj {d : Dev σ} {a b : Int} : cooling d a = cooling d b ↔ a = b := by
  unfold cooling
  split <;> omega

-- What the exponential controller passes to set_curr_state on an activation and
-- on a deactivation, with the device at that point.
def raised (d : Dev σ) (tempMinState tempMaxState : Int) : Dev σ × Int :=
  let (d',next) := increase d (thdClampStateMin d (m.getCurrStateAgain d) tempMinState)
  ({d' with trendIncrease := true},thdClampStateMax d' next tempMaxState)

def lowered (d : Dev σ) (tempMinState tempMaxState : Int) : Dev σ × Int :=
  let current := thdClampStateMax d (m.getCurrState d) tempMaxState
  let next := if d.autoDownAdjust then d.minState else current - reduceStep d
  let next := thdClampStateMin d next tempMinState
  ({d with currPow := 0,trendIncrease := false},thdClampStateMax d next tempMaxState)

def controllerNext (d : Dev σ) (state : Bool) (tempMinState tempMaxState : Int) : Dev σ × Int :=
  if state then raised m d tempMinState tempMaxState else lowered m d tempMinState tempMaxState

theorem controller_eq (d : Dev σ) (state : Bool) (low high : Int) : thdCdevExponentialController m d state low high =
      put (controllerNext m d state low high).1
        (m.setCurrState (controllerNext m d state low high).1 (controllerNext m d state low high).2 state) := by
  cases state with
  | true => rfl
  | false => rfl

-- What acting leaves alone: the ends of the range and the subclass part.
structure SameRange (d d' : Dev σ) : Prop where
  low : d'.minState = d.minState
  high : d'.maxState = d.maxState
  ext : d'.ext = d.ext

theorem SameRange.trans {d d' d'' : Dev σ} (one : SameRange d d') (two : SameRange d' d'') : SameRange d d'' :=
  ⟨two.low.trans one.low,two.high.trans one.high,two.ext.trans one.ext⟩

theorem SameRange.effectiveMax {d d' : Dev σ} (same : SameRange d d') (temp : Int) :
    CdevActions.effectiveMax d' temp = CdevActions.effectiveMax d temp := by
  simp only [CdevActions.effectiveMax,same.low,same.high]

theorem increase_range (d : Dev σ) (current : Int) : SameRange d (increase d current).1 := by
  unfold increase
  dsimp only
  split
  · split <;> split <;> exact ⟨rfl,rfl,rfl⟩
  · exact ⟨rfl,rfl,rfl⟩

-- What an activation asks for, before it is clamped to the effective max.
def asked (d : Dev σ) (tempMinState : Int) : Int := (increase d (thdClampStateMin d (m.getCurrStateAgain d) tempMinState)).2

theorem raised_value (d : Dev σ) (low high : Int) :
    (raised m d low high).2 = thdClampStateMax d (asked m d low) high := by
  have same := increase_range d (thdClampStateMin d (m.getCurrStateAgain d) low)
  unfold raised asked thdClampStateMax
  simp only [same.low,same.high]

theorem controllerNext_range (d : Dev σ) (state : Bool) (low high : Int) :
    SameRange d (controllerNext m d state low high).1 := by
  cases state with
  | true =>
    have same := increase_range d (thdClampStateMin d (m.getCurrStateAgain d) low)
    exact ⟨same.low,same.high,same.ext⟩
  | false => exact ⟨rfl,rfl,rfl⟩

theorem beginAction_range (d : Dev σ) (now : Int) (q : Request) : SameRange d (beginAction m d now q) := by
  unfold beginAction
  dsimp only
  split <;> exact ⟨rfl,rfl,rfl⟩

-- No call moves the ends of the range.
theorem actuate_range (d : Dev σ) (now : Int) (q : Request) (o : Order) (pid : Pid) :
    (actuate m d now q o pid).1.minState = d.minState ∧ (actuate m d now q o pid).1.maxState = d.maxState := by
  have begun := beginAction_range m d now q
  unfold actuate
  dsimp only
  split
  · exact ⟨begun.low,begun.high⟩
  split
  · exact ⟨begun.low,begun.high⟩
  split
  · exact ⟨begun.low,begun.high⟩
  split
  · exact ⟨begun.low,begun.high⟩
  split
  · have next := begun.trans (controllerNext_range m _ q.state o.minState o.maxState)
    rw [controller_eq]
    exact ⟨next.low,next.high⟩
  · have next := begun.trans (controllerNext_range m _ q.state 0 0)
    rw [controller_eq]
    exact ⟨next.low,next.high⟩

theorem setState_range (srt : StdSort) (c : Cdev σ) (now : Int) (q : Request) (pid : Pid) :
    (thdCdevSetState m srt c now q pid).1.dev.minState = c.dev.minState ∧
      (thdCdevSetState m srt c now q pid).1.dev.maxState = c.dev.maxState := by
  unfold thdCdevSetState
  split
  · exact ⟨rfl,rfl⟩
  · exact actuate_range m c.dev now q _ pid

end ChuwiMinibook.CdevActions
