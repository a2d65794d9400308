import ChuwiMinibook.CdevActions
import ChuwiMinibook.Machine

namespace ChuwiMinibook

-- cthd_cdev_backlight: its fields and the brightness file of its device.
structure Backlight where
  brightness : Int
  refBacklightState : Int
  minBackLight : Int
deriving DecidableEq

namespace BacklightCdev
open Cdev CdevActions Machine

def mapTargetState (d : Dev Backlight) (targetValid : Bool) (targetState : Int) : Int :=
  if !targetValid then targetState
  else if targetState > d.maxState then 0
  else d.maxState-targetState

-- The part of set_curr_state that writes a reduced brightness.
def reduce (written : Bool) (d : Dev Backlight) (state : Int) : Dev Backlight :=
  let value := d.ext.refBacklightState-state
  let value := if value ≤ d.ext.minBackLight then d.ext.minBackLight else value
  if written then {d with currState := state,ext := {d.ext with brightness := value}} else d

def throttle (read written : Bool) (d : Dev Backlight) (state : Int) : Dev Backlight :=
  if d.ext.refBacklightState = 0 ∧ state = d.incDecVal then
    if read then reduce written {d with ext := {d.ext with refBacklightState := d.ext.brightness}} state else d
  else reduce written d state

def restore (written : Bool) (d : Dev Backlight) : Dev Backlight :=
  if d.ext.refBacklightState ≠ 0 then
    if written then
      {d with currState := 0,ext := {d.ext with brightness := d.ext.refBacklightState,refBacklightState := 0}}
    else d
  else {d with currState := 0}

-- set_curr_state, with the outcomes of its read and its write.
def setCurrStateWith (read written : Bool) (d : Dev Backlight) (state : Int) : Dev Backlight :=
  if state = 0 then restore written d else throttle read written d state

def setCurrState (d : Dev Backlight) (state : Int) : Dev Backlight := setCurrStateWith true true d state

-- The device as a class of cthd_cdev.
def backlight : Methods Backlight :=
  {inherited (fun d state _ => ((setCurrState d state).currState,(setCurrState d state).ext)) with
    mapTargetState := mapTargetState}

section Steps
variable {d : Dev Backlight} {state : Int}

@[simp] theorem setCurrState_inc : (setCurrState d state).incDecVal = d.incDecVal := by
  unfold setCurrState setCurrStateWith restore throttle reduce
  split_ifs <;> rfl

@[simp] theorem setCurrState_min : (setCurrState d state).ext.minBackLight = d.ext.minBackLight := by
  unfold setCurrState setCurrStateWith restore throttle reduce
  split_ifs <;> rfl

theorem put_setCurrState (d : Dev Backlight) (state : Int) :
    put d ((setCurrState d state).currState,(setCurrState d state).ext) = setCurrState d state := by
  unfold setCurrState setCurrStateWith restore throttle reduce
  split_ifs <;> rfl

-- Between the episodes nothing is captured and the brightness is the user's; in
-- an episode the brightness is captured.
def Kept (b : Int) (normal : Bool) (d : Dev Backlight) : Prop :=
  if normal then d.ext.refBacklightState = 0 ∧ d.ext.brightness = b else d.ext.refBacklightState = b ∧ b ≠ 0

-- The least brightness is all there is to restore.
def Dimmed (d : Dev Backlight) : Prop := d.ext.brightness = d.ext.minBackLight ∧
  (d.ext.refBacklightState = 0 ∨ d.ext.refBacklightState = d.ext.minBackLight)

theorem kept_zero {b : Int} {normal : Bool} (kept : Kept b normal d) : Kept b true (setCurrState d 0) := by
  cases normal with
  | true =>
    obtain ⟨free,same⟩ := kept
    simp [setCurrState,setCurrStateWith,restore,free,Kept,same]
  | false =>
    obtain ⟨held,some⟩ := kept
    simp [setCurrState,setCurrStateWith,restore,held,Kept,some]

theorem kept_entered {b : Int} (kept : Kept b true d) (other : state ≠ 0) (first : state = d.incDecVal) (lit : b ≠ 0) :
    Kept b false (setCurrState d state) := by
  obtain ⟨free,same⟩ := kept
  simp [setCurrState,setCurrStateWith,throttle,reduce,free,first,Kept,same,lit,first ▸ other]

theorem kept_going {b : Int} (kept : Kept b false d) (other : state ≠ 0) : Kept b false (setCurrState d state) := by
  obtain ⟨held,lit⟩ := kept
  simp [setCurrState,setCurrStateWith,throttle,reduce,other,held,Kept,lit]

theorem dimmed_step (low : 0 ≤ d.ext.minBackLight) (positive : 0 ≤ state) (dimmed : Dimmed d) :
    Dimmed (setCurrState d state) := by
  obtain ⟨same,captured⟩ := dimmed
  unfold setCurrState setCurrStateWith
  split
  · unfold restore Dimmed
    split <;> rcases captured with none | least <;> simp_all
  · rename_i other
    unfold throttle reduce Dimmed
    rcases captured with none | least
    all_goals split_ifs <;> simp_all <;> omega

-- An episode that starts with another state than the step, or on a dark screen,
-- captures nothing and leaves the least brightness.
theorem dimmed_entered {b : Int} (low : 0 ≤ d.ext.minBackLight) (kept : Kept b true d) (positive : 0 ≤ state)
    (other : state ≠ 0) (missed : ¬(state = d.incDecVal ∧ b ≠ 0)) : Dimmed (setCurrState d state) := by
  obtain ⟨free,same⟩ := kept
  unfold setCurrState setCurrStateWith
  rw [if_neg other]
  unfold throttle reduce Dimmed
  split_ifs <;> simp_all <;> omega

end Steps

-- The states that start an episode: those other than 0 that come first or follow
-- a 0.
def starts : Bool → List Int → List Int
  | _,[] => []
  | normal,state::rest =>
    if state = 0 then starts true rest
    else if normal then state::starts false rest
    else starts false rest

def Captured (d : Dev Backlight) (b : Int) (state : Int) : Prop := state = d.incDecVal ∧ b ≠ 0

theorem run_kept {b : Int} {normal : Bool} {states : List Int} {d : Dev Backlight} (kept : Kept b normal d)
    (captured : ∀ state ∈ starts normal states,Captured d b state) :
    ∃ normal',Kept b normal' (run setCurrState d states) := by
  induction states generalizing normal d with
  | nil => exact ⟨normal,kept⟩
  | cons state rest ih =>
    have onward : ∀ {x : Int},Captured (setCurrState d state) b x ↔ Captured d b x := by simp [Captured]
    by_cases zero : state = 0
    · subst zero
      refine ih (kept_zero kept) fun x listed => onward.mpr (captured x ?_)
      simpa [starts] using listed
    · cases normal with
      | true =>
        have first := captured state (by simp [starts,zero])
        refine ih (kept_entered kept zero first.1 first.2) fun x listed => onward.mpr (captured x ?_)
        simp [starts,zero,listed]
      | false =>
        refine ih (kept_going kept zero) fun x listed => onward.mpr (captured x ?_)
        simpa [starts,zero] using listed

theorem run_dimmed {states : List Int} {d : Dev Backlight} (low : 0 ≤ d.ext.minBackLight)
    (positive : ∀ state ∈ states,0 ≤ state) (dimmed : Dimmed d) : Dimmed (run setCurrState d states) := by
  induction states generalizing d with
  | nil => exact dimmed
  | cons state rest ih =>
    refine ih (by simpa using low) (fun x listed => positive x (List.mem_cons_of_mem _ listed)) ?_
    exact dimmed_step low (positive state List.mem_cons_self) dimmed

theorem run_min (states : List Int) (d : Dev Backlight) :
    (run setCurrState d states).ext.minBackLight = d.ext.minBackLight := by
  induction states generalizing d with
  | nil => rfl
  | cons state rest ih => rw [run_cons,ih,setCurrState_min]

theorem run_missed {b : Int} {normal : Bool} {states : List Int} {d : Dev Backlight} (low : 0 ≤ d.ext.minBackLight)
    (positive : ∀ state ∈ states,0 ≤ state) (kept : Kept b normal d)
    (missed : ∃ state ∈ starts normal states,¬Captured d b state) : Dimmed (run setCurrState d states) := by
  induction states generalizing normal d with
  | nil =>
    obtain ⟨state,listed,-⟩ := missed
    cases listed
  | cons state rest ih =>
    have onward : ∀ {x : Int},Captured (setCurrState d state) b x ↔ Captured d b x := by simp [Captured]
    have low' : 0 ≤ (setCurrState d state).ext.minBackLight := by simpa using low
    have here := positive state List.mem_cons_self
    have later := fun x listed => positive x (List.mem_cons_of_mem state listed)
    obtain ⟨x,listed,wrong⟩ := missed
    by_cases zero : state = 0
    · subst zero
      exact ih low' later (kept_zero kept) ⟨x,by simpa [starts] using listed,fun given => wrong (onward.mp given)⟩
    · cases normal with
      | false =>
        exact ih low' later (kept_going kept zero)
          ⟨x,by simpa [starts,zero] using listed,fun given => wrong (onward.mp given)⟩
      | true =>
        by_cases first : Captured d b state
        · have behind : x ∈ starts false rest := by
            rcases List.mem_cons.mp (by simpa [starts,zero] using listed) with rfl | behind
            · exact absurd first wrong
            · exact behind
          exact ih low' later (kept_entered kept zero first.1 first.2) ⟨x,behind,fun given => wrong (onward.mp given)⟩
        · rw [run_cons]
          exact run_dimmed low' later (dimmed_entered low kept here zero first)

-- A device that is not throttled, as its constructor and every state 0 leave it.
structure AtRest (d : Dev Backlight) : Prop where
  state : d.currState = 0
  free : d.ext.refBacklightState = 0
  low : 0 ≤ d.ext.minBackLight

-- After a run that ends with state 0 the screen is as bright as before exactly
-- when every episode starts with the step on a lit screen, or the screen was at
-- the least brightness to begin with.
theorem brightness_restored_iff {d : Dev Backlight} (rest : AtRest d) {states : List Int}
    (positive : ∀ state ∈ states,0 ≤ state) : (run setCurrState d (states++[0])).ext.brightness = d.ext.brightness ↔
      d.ext.brightness = d.ext.minBackLight ∨
        ∀ state ∈ starts true states,state = d.incDecVal ∧ d.ext.brightness ≠ 0 := by
  have kept : Kept d.ext.brightness true d := ⟨rest.free,rfl⟩
  have final : ∀ {s : Dev Backlight},Dimmed s → (setCurrState s 0).ext.brightness = s.ext.minBackLight := by
    intro s dimmed
    obtain ⟨same,captured⟩ := dimmed
    unfold setCurrState setCurrStateWith restore
    rcases captured with none | least <;> split_ifs <;> simp_all
  rw [run_snoc]
  constructor
  · intro same
    by_cases captured : ∀ state ∈ starts true states,state = d.incDecVal ∧ d.ext.brightness ≠ 0
    · exact .inr captured
    · have missed : ∃ state ∈ starts true states,¬Captured d d.ext.brightness state := by
        by_contra none
        refine captured fun state listed => ?_
        by_contra wrong
        exact none ⟨state,listed,wrong⟩
      rw [final (run_missed rest.low positive kept missed),run_min] at same
      exact .inl same.symm
  · rintro (least | captured)
    · have dimmed : Dimmed d := ⟨least,.inl rest.free⟩
      rw [final (run_dimmed rest.low positive dimmed),run_min,least]
    · obtain ⟨normal,still⟩ := run_kept kept captured
      have restored := kept_zero still
      exact restored.2

-- From rest the exponential controller starts with the step, so that it captures the
-- brightness; a target value need not.
theorem exponential_starts {d : Dev Backlight} (rest : AtRest d) (least : d.minState = 0) (calm : d.trendIncrease = false)
    (plain : d.incVal = 0) (step : 0 < d.incDecVal) (room : d.incDecVal ≤ d.maxState) :
    thdCdevExponentialController backlight d true 0 0 =
      setCurrState {d with currPow := 0,trendIncrease := true} d.incDecVal := by
  have upward : d.minState ≤ d.maxState := by omega
  have current : thdClampStateMin d (backlight.getCurrStateAgain d) 0 = 0 := by
    have resting : backlight.getCurrStateAgain d = 0 := rest.state
    simp [thdClampStateMin,resting,least]
  have next : increase d 0 = ({d with currPow := 0},d.incDecVal) := by
    simp [increase,calm,plain]
  have within : thdClampStateMax {d with currPow := 0} d.incDecVal 0 = d.incDecVal := by
    simp [thdClampStateMax,upward,room]
  unfold thdCdevExponentialController
  rw [if_pos rfl,current]
  dsimp only
  rw [next]
  dsimp only
  rw [within]
  exact put_setCurrState _ _

-- A panel with 1000 levels at four fifths.
def panel : Dev Backlight where
  minState := 0
  maxState := 1000
  currState := 0
  currPow := 0
  basePowState := 0
  incDecVal := 100
  autoDownAdjust := false
  debounceInterval := 2
  lastActionTime := 0
  trendIncrease := false
  pidEnable := false
  pidCtrl := Pid.new
  lastState := false
  incVal := 0
  decVal := 0
  ext := ⟨800,0,250⟩

-- A target value is the first state: two steps at once.
theorem target_leaves_dim : AtRest panel ∧ (run setCurrState panel [200,300]).currState = 300 ∧
    (run setCurrState panel ([200,300]++[0])).ext.brightness = 250 ∧
    ¬(run setCurrState panel ([200,300]++[0])).ext.brightness = panel.ext.brightness := by
  exact ⟨⟨rfl,rfl,by decide⟩,by decide,by decide,by decide⟩

theorem brightness_restored_steps : (run setCurrState panel ([100,300,0,100]++[0])).ext.brightness = 800 := by
  have rest : AtRest panel := ⟨rfl,rfl,by decide⟩
  exact (brightness_restored_iff rest (by decide)).mpr (.inr (by decide))

end BacklightCdev
end ChuwiMinibook
