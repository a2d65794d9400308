import ChuwiMinibook.Cdev
import ChuwiMinibook.Gddv

namespace ChuwiMinibook

-- cthd_sysfs_cdev_rapl: its fields, the powercap registers it writes and the
-- power meter it reads. A register that is not writable answers -ENODATA.
structure Rapl where
  pl1 : Int
  pl1Writable : Bool
  pl2 : Int
  timeWindow : Int
  enabled : Int
  tccOffset : Int
  packagePower : Int
  hasPl2 : Bool
  dynamicPhyMaxEnable : Bool
  pl0MaxPwr : Int
  pl0MinPwr : Int
  pl0MinWindow : Int
  pl0StepPwr : Int
  biosLocked : Bool
  constrained : Bool
  powerOnConstraint0Pwr : Int
  powerOnConstraint0TimeWindow : Int
  powerOnEnableStatus : Int
deriving DecidableEq

namespace RaplCdev
open Cdev StdString

def defRaplTimeWindow : Int := 1000000

def raplUpdatePl1 (r : Rapl) (pl1 : Int) : Rapl := if r.pl1Writable then {r with pl1 := pl1} else r

def raplUpdatePl2 (r : Rapl) (pl2 : Int) : Rapl := if r.hasPl2 then {r with pl2 := pl2} else r

-- What replaces a state at or above min_state.
def restored (d : Dev Rapl) : Int :=
  if d.ext.powerOnConstraint0Pwr ≠ 0 then d.ext.powerOnConstraint0Pwr else d.minState

-- The power limit that set_curr_state writes for a state.
def written (d : Dev Rapl) (state : Int) : Int :=
  let state := if state < d.maxState then d.maxState else state
  if state ≥ d.minState then restored d else state

-- The registers besides PL1 that set_curr_state writes with it.
def constrain (d : Dev Rapl) (state : Int) (control : Bool) : Rapl :=
  let r := d.ext
  let state := if state < d.maxState then d.maxState else state
  let enabled := fun status => if r.powerOnEnableStatus = 0 then status else r.enabled
  if state ≥ d.minState then
    {r with enabled := enabled 0,timeWindow := r.powerOnConstraint0TimeWindow,constrained := false}
  else if control && !r.constrained then
    let window := if r.pl0MinWindow ≠ 0 then r.pl0MinWindow else defRaplTimeWindow
    {r with enabled := enabled 1,timeWindow := window,constrained := true}
  else r

theorem constrain_accessible (d : Dev Rapl) (state : Int) (control : Bool) :
    (constrain d state control).pl1Writable = d.ext.pl1Writable ∧
      (constrain d state control).biosLocked = d.ext.biosLocked := by
  unfold constrain
  dsimp only
  generalize (if state < d.maxState then d.maxState else state) = state
  split
  · exact ⟨rfl,rfl⟩
  · split <;> exact ⟨rfl,rfl⟩

def setCurrState (d : Dev Rapl) (state : Int) (control : Bool) : Int × Rapl :=
  if d.ext.biosLocked then (if state ≤ d.incDecVal then d.minState else d.maxState,d.ext)
  else
    let r := raplUpdatePl1 (constrain d state control) (written d state)
    -- curr_state is set to what was to be written, also after a failure
    (written d state,if r.pl1Writable then r else {r with biosLocked := true})

def getCurrStateAgain (d : Dev Rapl) : Int :=
  if d.ext.dynamicPhyMaxEnable then
    if d.ext.pl1 ≠ -1 ∧ d.ext.pl1 < d.ext.packagePower then d.ext.pl1 else d.ext.packagePower
  else d.currState

-- control_begin is overridden to keep the integral.
def rapl : Methods Rapl where
  setCurrState := setCurrState
  setCurrStateRaw := setCurrState
  getCurrState d := d.currState
  getCurrStateAgain := getCurrStateAgain
  getMaxState d := d.maxState
  mapTargetState _ _ state := state
  controlBegin d := d.pidCtrl

-- get_curr_state(true) asks the meter anew: a call works with the power that is
-- measured at it.
def metered (power : Int) (c : Cdev Rapl) : Cdev Rapl :=
  {c with dev := {c.dev with ext := {c.dev.ext with packagePower := power}}}

-- set_curr_state called by the class itself.
def setState (d : Dev Rapl) (state : Int) : Dev Rapl := put d (setCurrState d state true)

def setPl1Max (d : Dev Rapl) (power : Int) : Dev Rapl :=
  let d := {d with minState := power,ext := {d.ext with pl0MaxPwr := power}}
  let pl1 := d.ext.pl1
  let d := if d.currState > pl1 then setState d pl1 else d
  if d.currState > d.minState then setState d d.minState else d

def setPl1Min (d : Dev Rapl) (power : Int) : Dev Rapl :=
  let d := {d with maxState := power,ext := {d.ext with pl0MinPwr := power}}
  if d.currState < d.maxState then setState d d.maxState else d

def setPl1Step (d : Dev Rapl) (step : Int) : Dev Rapl :=
  {d with ext := {d.ext with pl0StepPwr := step},incVal := toInt (-step*2),decVal := toInt (-step)}

-- PL1PowerLimit writes the register only.
def setAdaptiveTarget (d : Dev Rapl) (t : AdaptiveTarget) : Option (Dev Rapl) :=
  (stoi t.argument).map (fun argument =>
    let power := toInt (argument*1000)
    if t.code = "PL1MAX" then setPl1Max d power
    else if t.code = "PL1MIN" then setPl1Min d power
    else if t.code = "PL1STEP" then setPl1Step d power
    else if t.code = "PL1TimeWindow" then {d with ext := {d.ext with pl0MinWindow := power}}
    else if t.code = "PL1PowerLimit" then {d with ext := raplUpdatePl1 d.ext power}
    else if t.code = "PL2PowerLimit" then {d with ext := raplUpdatePl2 d.ext power}
    else if t.code = "TccOffset" then {d with ext := {d.ext with tccOffset := argument}}
    else d)

end RaplCdev
end ChuwiMinibook
