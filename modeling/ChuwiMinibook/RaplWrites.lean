import ChuwiMinibook.Machine
import ChuwiMinibook.RaplCdev

namespace ChuwiMinibook.RaplWrites
open Cdev RaplCdev Machine

def enodata : Int := 61

-- rapl_update_pl1 when the write to sysfs returns ret: the bytes written, or a
-- negative errno.
def raplUpdatePl1With (ret pl1 : Int) (r : Rapl) : Rapl × Int := if ret ≤ 0 then (r,ret) else ({r with pl1 := pl1},0)

def releases (d : Dev Rapl) (state : Int) : Prop := (if state < d.maxState then d.maxState else state) ≥ d.minState

instance (d : Dev Rapl) (state : Int) : Decidable (releases d state) := inferInstanceAs (Decidable (_ ≥ _))

def releaseState (d : Dev Rapl) (state : Int) : Dev Rapl := if releases d state then {d with currState := d.minState} else d

def refuse (ret : Int) (d : Dev Rapl) (state : Int) : Dev Rapl :=
  let d := {d with currState := if state = 0 then 0 else d.maxState}
  if ret = -enodata then {d with ext := {d.ext with biosLocked := true}} else d

-- set_curr_state with the result of its PL1 write. curr_state is assigned up to
-- three times, the last time whatever came before.
def setCurrStateWith (ret : Int) (d : Dev Rapl) (state : Int) (control : Bool) : Dev Rapl :=
  if d.ext.biosLocked then {d with currState := if state ≤ d.incDecVal then d.minState else d.maxState}
  else
    let newState := written d state
    let (r,ret) := raplUpdatePl1With ret newState (constrain d state control)
    let d := {releaseState d state with ext := r}
    let d := if ret < 0 then refuse ret d state else d
    {d with currState := newState}

structure Call where
  state : Int
  control : Bool
  ret : Int

def step (d : Dev Rapl) (call : Call) : Dev Rapl := setCurrStateWith call.ret d call.state call.control

theorem releaseState_range (d : Dev Rapl) (state : Int) :
    (releaseState d state).minState = d.minState ∧ (releaseState d state).maxState = d.maxState := by
  unfold releaseState
  split <;> exact ⟨rfl,rfl⟩

theorem refuse_range (ret : Int) (d : Dev Rapl) (state : Int) :
    (refuse ret d state).minState = d.minState ∧ (refuse ret d state).maxState = d.maxState := by
  unfold refuse
  dsimp only
  split <;> exact ⟨rfl,rfl⟩

theorem setCurrStateWith_range (ret : Int) (d : Dev Rapl) (state : Int) (control : Bool) :
    (setCurrStateWith ret d state control).minState = d.minState ∧
      (setCurrStateWith ret d state control).maxState = d.maxState := by
  unfold setCurrStateWith
  split
  · exact ⟨rfl,rfl⟩
  · dsimp only
    split
    · rw [(refuse_range _ _ _).1,(refuse_range _ _ _).2]
      exact releaseState_range d state
    · exact releaseState_range d state

theorem setCurrStateWith_unlocked {d : Dev Rapl} (unlocked : d.ext.biosLocked = false) (ret state : Int) (control : Bool) :
    (setCurrStateWith ret d state control).currState = written d state := by
  unfold setCurrStateWith
  rw [if_neg (by simp [unlocked])]

theorem written_release {d : Dev Rapl} {state : Int} (release : d.minState ≤ state) : written d state = restored d := by
  unfold written
  dsimp only
  rw [if_pos (by split <;> omega)]

-- A register that is writable answers with the bytes written, one that is not
-- with -ENODATA.
theorem setCurrState_with (d : Dev Rapl) (state : Int) (control : Bool) :
    put d (setCurrState d state control) =
      setCurrStateWith (if d.ext.pl1Writable then 1 else -enodata) d state control := by
  have same := constrain_accessible d state control
  unfold setCurrState setCurrStateWith
  split
  · rfl
  · cases writable : d.ext.pl1Writable <;> rw [writable] at same <;>
      by_cases release : releases d state <;>
      simp [put,raplUpdatePl1,raplUpdatePl1With,releaseState,refuse,same.1,same.2,release,enodata]

-- A failed write leaves curr_state where it was if that is what was to be written,
-- and a release that is written ends in min_state.
structure Honest (d : Dev Rapl) (call : Call) : Prop where
  failed : d.ext.biosLocked = false → call.ret ≤ 0 → (step d call).currState = written d call.state →
    d.currState = written d call.state
  released : d.ext.biosLocked = false → 0 < call.ret → d.minState ≤ call.state →
    (step d call).currState = (step d call).minState ∧ (d.minState ≠ d.maxState → inMinState rapl (step d call) = true)

-- What is to be written for the state is already there.
def Holds (d : Dev Rapl) (state : Int) : Prop :=
  if d.minState ≤ max state d.maxState then
    if d.ext.powerOnConstraint0Pwr = 0 then d.currState = d.minState else d.currState = d.ext.powerOnConstraint0Pwr
  else d.currState = max state d.maxState

structure Kept (d : Dev Rapl) (call : Call) : Prop where
  failed : d.ext.biosLocked = false → call.ret ≤ 0 → Holds d call.state
  released : d.ext.biosLocked = false → 0 < call.ret → d.minState ≤ call.state →
    d.ext.powerOnConstraint0Pwr = 0 ∨ d.ext.powerOnConstraint0Pwr = d.minState

theorem holds_iff (d : Dev Rapl) (state : Int) : Holds d state ↔ d.currState = written d state := by
  have raised : (if state < d.maxState then d.maxState else state) = max state d.maxState := by
    split <;> omega
  unfold Holds written restored
  rw [raised]
  by_cases release : d.minState ≤ max state d.maxState
  · by_cases off : d.ext.powerOnConstraint0Pwr = 0 <;> simp [release,off]
  · simp [release]

theorem restored_minState (d : Dev Rapl) :
    restored d = d.minState ↔ d.ext.powerOnConstraint0Pwr = 0 ∨ d.ext.powerOnConstraint0Pwr = d.minState := by
  unfold restored
  by_cases off : d.ext.powerOnConstraint0Pwr = 0
  · simp [off]
  · simp [off]

theorem inMinState_reached {d : Dev Rapl} (reached : d.currState = d.minState) (apart : d.minState ≠ d.maxState) :
    inMinState rapl d = true := by
  have read : rapl.getCurrState d = d.minState := reached
  unfold inMinState
  rw [read]
  rcases lt_or_gt_of_ne apart with up | down
  · simp [up]
  · simp [down]

theorem honest_iff (d : Dev Rapl) (call : Call) : Honest d call ↔ Kept d call := by
  have value (unlocked : d.ext.biosLocked = false) : (step d call).currState = written d call.state :=
    setCurrStateWith_unlocked unlocked call.ret call.state call.control
  obtain ⟨low,high⟩ : (step d call).minState = d.minState ∧ (step d call).maxState = d.maxState :=
    setCurrStateWith_range call.ret d call.state call.control
  constructor
  · intro honest
    refine ⟨fun unlocked failed => (holds_iff d _).mpr (honest.failed unlocked failed (value unlocked)),?_⟩
    intro unlocked succeeded release
    have reached := (honest.released unlocked succeeded release).1
    rwa [value unlocked,low,written_release release,restored_minState] at reached
  · intro kept
    refine ⟨fun unlocked failed _ => (holds_iff d _).mp (kept.failed unlocked failed),?_⟩
    intro unlocked succeeded release
    have reached : (step d call).currState = (step d call).minState := by
      rw [value unlocked,low,written_release release,restored_minState]
      exact kept.released unlocked succeeded release
    refine ⟨reached,?_⟩
    intro apart
    exact inMinState_reached reached (by rwa [low,high])

-- Over all sequences of calls and all results of their writes.
theorem rapl_shadow_honest_iff (d : Dev Rapl) (calls : List Call) :
    Stepwise (fun before call => Honest (run step d before) call) calls ↔ Meets step Kept d calls := by
  rw [meets_iff_stepwise]
  unfold Stepwise
  simp only [honest_iff]

-- A package with 15 W at power on and a range from 20 W down to 6 W, at 20 W.
def package : Dev Rapl :=
  ⟨20000000,6000000,20000000,0,0,-1000000,false,2,0,false,true,Pid.new,false,-1000000,-500000,
    ⟨20000000,true,0,28000000,0,0,0,false,false,20000000,6000000,28000000,500000,false,false,15000000,28000000,0⟩⟩

-- A locked BIOS refuses 12 W, and 12 W is what curr_state says; a release that is
-- written ends at the 15 W of power on, above which in_min_state never sees it.
theorem refused_write_recorded :
    (step package ⟨12000000,true,-enodata⟩).currState = 12000000 ∧
    (step package ⟨12000000,true,-enodata⟩).ext.pl1 = 20000000 ∧
    (step package ⟨12000000,true,-enodata⟩).ext.biosLocked = true ∧
    ¬Stepwise (fun before call => Honest (run step package before) call) [⟨12000000,true,-enodata⟩] ∧
    (step package ⟨20000000,false,8⟩).currState = 15000000 ∧
    inMinState rapl (step package ⟨20000000,false,8⟩) = false ∧
    ¬Stepwise (fun before call => Honest (run step package before) call) [⟨20000000,false,8⟩] := by
  refine ⟨by decide,by decide,by decide,?_,by decide,by decide,?_⟩
  · intro all
    exact absurd ((all [] _ [] rfl).failed rfl (by decide) (by decide)) (by decide)
  · intro all
    exact absurd ((all [] _ [] rfl).released rfl (by decide) (by decide)).1 (by decide)

end ChuwiMinibook.RaplWrites
