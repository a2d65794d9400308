import ChuwiMinibook.StdSort
import ChuwiMinibook.Pid

namespace ChuwiMinibook

def tripPtInvalidTargetState : Int := 2147483647

-- zone_trip_limits_t
structure ZoneTripLimit where
  zone : Int
  trip : Int
  targetStateValid : Bool
  targetValue : Int
  minState : Int
  maxState : Int
  minMaxValid : Bool
deriving DecidableEq

def ZoneTripLimit.pair (l : ZoneTripLimit) : Int × Int := (l.zone,l.trip)

-- The fields of cthd_cdev that its methods read and write; ext holds the fields
-- of the subclass and the registers behind it.
structure Dev (σ : Type) where
  minState : Int
  maxState : Int
  currState : Int
  currPow : Nat
  basePowState : Int
  incDecVal : Int
  autoDownAdjust : Bool
  debounceInterval : Int
  lastActionTime : Int
  trendIncrease : Bool
  pidEnable : Bool
  pidCtrl : Pid
  lastState : Bool
  incVal : Int
  decVal : Int
  ext : σ
deriving DecidableEq

-- A device with its list of active requesters. The methods below work on Dev
-- alone, so no subclass can reach the list.
structure Cdev (σ : Type) where
  index : Int
  typeStr : String
  aliasStr : String
  dev : Dev σ
  zoneTripLimits : List ZoneTripLimit
deriving DecidableEq

namespace Cdev
variable {σ : Type}

-- The virtual methods of cthd_cdev, by what their overrides can change: a state
-- write sets curr_state and the subclass part, control_begin at most the
-- controller. get_min_state and control_end are overridden nowhere.
structure Methods (σ : Type) where
  setCurrState : Dev σ → Int → Bool → Int × σ
  setCurrStateRaw : Dev σ → Int → Bool → Int × σ
  getCurrState : Dev σ → Int
  getCurrStateAgain : Dev σ → Int
  getMaxState : Dev σ → Int
  mapTargetState : Dev σ → Bool → Int → Int
  controlBegin : Dev σ → Pid

def put (d : Dev σ) (written : Int × σ) : Dev σ := {d with currState := written.1,ext := written.2}

def clampRaw (set : Dev σ → Int → Bool → Int × σ) (d : Dev σ) (state : Int) (arg : Bool) : Int × σ :=
  let state := if state > d.maxState then d.maxState else state
  let state := if state < d.minState then d.minState else state
  set d state arg

def beginPid (d : Dev σ) : Pid := if d.pidEnable then d.pidCtrl.reset else d.pidCtrl

-- cthd_cdev itself: set_curr_state does nothing.
def base : Methods σ where
  setCurrState d _ _ := (d.currState,d.ext)
  setCurrStateRaw := clampRaw (fun d _ _ => (d.currState,d.ext))
  getCurrState d := d.currState
  getCurrStateAgain d := d.currState
  getMaxState d := d.maxState
  mapTargetState _ _ state := state
  controlBegin := beginPid

-- cthd_gen_sysfs_cdev with its attribute as the subclass part.
def genSysfs : Methods Int where
  setCurrState _ state _ := (state,state)
  setCurrStateRaw _ state _ := (state,state)
  getCurrState d := d.currState
  getCurrStateAgain d := d.currState
  getMaxState d := d.maxState
  mapTargetState _ _ state := state
  controlBegin := beginPid

variable (m : Methods σ)

def inMinState (d : Dev σ) : Bool :=
  decide (d.minState < d.maxState ∧ m.getCurrState d ≤ d.minState) ||
    decide (d.minState > d.maxState ∧ m.getCurrState d ≥ d.minState)

def inMaxState (d : Dev σ) : Bool :=
  decide (d.minState < d.maxState ∧ m.getCurrState d ≥ m.getMaxState d) ||
    decide (d.minState > d.maxState ∧ m.getCurrState d ≤ m.getMaxState d)

def cmpCurrentState (d : Dev σ) (state : Int) : Int :=
  if m.getCurrState d = state then 0
  else if d.minState < d.maxState then
    if state > m.getCurrState d then 1 else -1
  else if d.minState > d.maxState then
    if state > m.getCurrState d then -1 else 1
  else 0

def thdClampStateMin (d : Dev σ) (state tempMinState : Int) : Int :=
  if d.minState ≤ d.maxState then
    let low := if tempMinState ≠ 0 ∧ tempMinState > d.minState then tempMinState else d.minState
    if state < low then low else state
  else
    let low := if tempMinState ≠ 0 ∧ tempMinState < d.minState then tempMinState else d.minState
    if state > low then low else state

def thdClampStateMax (d : Dev σ) (state tempMaxState : Int) : Int :=
  if d.minState ≤ d.maxState then
    let high := if tempMaxState ≠ 0 ∧ tempMaxState < d.maxState then tempMaxState else d.maxState
    if state > high then high else state
  else
    let high := if tempMaxState ≠ 0 ∧ tempMaxState > d.maxState then tempMaxState else d.maxState
    if state < high then high else state

def defaultMaxExponent : Nat := 20

def int2Pow (pow : Nat) : Int := 2^pow

-- state_increase: the state the exponential controller asks for on activation.
def increase (d : Dev σ) (current : Int) : Dev σ × Int :=
  let step := if d.incVal ≠ 0 then d.incVal else d.incDecVal
  if d.trendIncrease then
    let d := if d.currPow = 0 then {d with basePowState := current} else d
    let d := if d.currPow < defaultMaxExponent then {d with currPow := d.currPow+1} else d
    let state := toInt (d.basePowState + int2Pow d.currPow*step)
    let overflowed := decide (d.incVal < 0 ∧ d.basePowState < state) ||
      decide (d.incVal > 0 ∧ d.basePowState > state)
    (d,if overflowed then d.maxState else state)
  else ({d with currPow := 0},current + step)

-- The step towards min_state on deactivation, its sign set by the direction of
-- the range.
def reduceStep (d : Dev σ) : Int :=
  let step := if d.decVal ≠ 0 then d.decVal
    else if d.minState ≤ d.maxState then d.incDecVal else -d.incDecVal
  if d.minState ≤ d.maxState ∧ step < 0 then -step
  else if d.minState > d.maxState ∧ step > 0 then -step
  else step

def thdCdevExponentialController (d : Dev σ) (state : Bool) (tempMinState tempMaxState : Int) : Dev σ :=
  if state then
    let current := thdClampStateMin d (m.getCurrStateAgain d) tempMinState
    let (d,next) := increase d current
    let next := thdClampStateMax d next tempMaxState
    let d := {d with trendIncrease := true}
    put d (m.setCurrState d next state)
  else
    let current := thdClampStateMax d (m.getCurrState d) tempMaxState
    let d := {d with currPow := 0,trendIncrease := false}
    let next := if d.autoDownAdjust then d.minState else current - reduceStep d
    let next := thdClampStateMin d next tempMinState
    put d (m.setCurrState d (thdClampStateMax d next tempMaxState) state)

-- The arguments of thd_cdev_set_state that reach more than its log lines.
structure Request where
  targetTemp : Nat
  temperature : Nat
  hardTarget : Bool
  state : Bool
  zoneId : Int
  tripId : Int
  targetStateValid : Bool
  targetValue : Int
  pidParam : Option PidParam
  force : Bool
  minMaxValid : Bool
  minState : Int
  maxState : Int
deriving DecidableEq

def Request.pair (q : Request) : Int × Int := (q.zoneId,q.tripId)

def sortClampValuesAsc (a b : ZoneTripLimit) : Bool := decide (a.targetValue < b.targetValue)
def sortClampValuesDec (a b : ZoneTripLimit) : Bool := decide (a.targetValue > b.targetValue)
def sortMinMaxValuesAsc (a b : ZoneTripLimit) : Bool := decide (a.minState < b.minState)
def sortMinMaxValuesDec (a b : ZoneTripLimit) : Bool := decide (a.maxState > b.maxState)

-- The entry of a new requester, its limits capped to the device's own.
def newLimit (d : Dev σ) (q : Request) : ZoneTripLimit :=
  let low := if q.minMaxValid then
      if q.minState = tripPtInvalidTargetState ∨ q.minState = 0 then d.minState else q.minState
    else 0
  let high := if q.minMaxValid then
      if q.maxState = tripPtInvalidTargetState ∨ q.maxState = 0 then d.maxState else q.maxState
    else 0
  ⟨q.zoneId,q.tripId,q.targetStateValid,q.targetValue,low,high,q.minMaxValid⟩

def enlist (srt : StdSort) (d : Dev σ) (limits : List ZoneTripLimit) (q : Request) : List ZoneTripLimit :=
  if limits.any (fun l => l.pair = q.pair) then limits
  else
    let limits := limits ++ [newLimit d q]
    let limits := if q.targetStateValid then
        srt.sort (if d.minState < d.maxState then sortClampValuesAsc else sortClampValuesDec) limits
      else limits
    if q.minMaxValid then
      srt.sort (if d.minState > d.maxState then sortMinMaxValuesDec else sortMinMaxValuesAsc) limits
    else limits

-- The locals of thd_cdev_set_state once the list has been consulted.
structure Order where
  targetStateValid : Bool
  targetValue : Int
  minState : Int
  maxState : Int
deriving DecidableEq

def ZoneTripLimit.order (l : ZoneTripLimit) : Order :=
  ⟨l.targetStateValid,l.targetValue,l.minState,l.maxState⟩

-- First half of thd_cdev_set_state: the list afterwards and, unless the call
-- ends here with THD_SUCCESS, what the control branches work with.
def arbitrate (srt : StdSort) (c : Cdev σ) (now : Int) (q : Request) :
    List ZoneTripLimit × Option Order :=
  if q.state then
    let limits := enlist srt c.dev c.zoneTripLimits q
    let limit := limits.getLastD ⟨0,0,false,0,0,0,false⟩
    let wanted := m.mapTargetState c.dev limit.targetStateValid limit.targetValue
    -- "Already more constraint"
    if !c.zoneTripLimits.isEmpty && limit.targetStateValid &&
        decide (cmpCurrentState m c.dev wanted ≤ 0) then (limits,none)
    else if !q.force && c.dev.lastState == q.state &&
        decide (now - c.dev.lastActionTime ≤ c.dev.debounceInterval) then (limits,none)
    else (limits,some (ZoneTripLimit.order limit))
  else
    match c.zoneTripLimits.getLast? with
    | none =>
      if inMinState m c.dev then ([],none)
      else if q.force then ([],some ⟨true,c.dev.minState,q.minState,q.maxState⟩)
      else ([],some ⟨false,q.targetValue,q.minState,q.maxState⟩)
    | some last =>
      -- only an entry that stands last is erased
      if last.pair = q.pair then
        let limits := c.zoneTripLimits.dropLast
        match limits.getLast? with
        | some next => (limits,some (ZoneTripLimit.order next))
        | none =>
          if last.targetStateValid then
            (limits,some ⟨q.targetStateValid,c.dev.minState,q.minState,q.maxState⟩)
          else if q.force then (limits,some ⟨true,c.dev.minState,q.minState,q.maxState⟩)
          else (limits,some ⟨q.targetStateValid,q.targetValue,q.minState,q.maxState⟩)
      else (c.zoneTripLimits,none)

def clampPid (low high value : Int) : Int :=
  if low < high then
    let value := if value > high then high else value
    if value < low then low else value
  else
    let value := if value < high then high else value
    if value > low then low else value

-- What precedes the control branches.
def beginAction (d : Dev σ) (now : Int) (q : Request) : Dev σ :=
  let d := {d with lastActionTime := now,lastState := q.state}
  let d := {d with currState := m.getCurrState d}
  if d.currState = d.minState then {d with pidCtrl := m.controlBegin d,currPow := 0,trendIncrease := false}
  else d

-- Second half: one of the control branches acts on the device.
def actuate (d : Dev σ) (now : Int) (q : Request) (o : Order) (pid : Pid) : Dev σ × Pid :=
  let d := beginAction m d now q
  if o.targetStateValid then
    ({put d (m.setCurrStateRaw d o.targetValue q.state) with currState := o.targetValue},pid)
  else if q.hardTarget then (put d (m.setCurrStateRaw d (m.getMaxState d) q.state),pid)
  else if (q.pidParam.map (·.valid)).getD false then
    let pid := pid.setTargetTemp q.targetTemp
    let (pid,output) := pid.pidOutput now q.temperature (toInt (m.getCurrStateAgain d - d.minState))
    let state := clampPid d.minState (m.getMaxState d) (toInt (output + d.minState))
    (put d (m.setCurrStateRaw d state q.state),if q.state then pid else pid.reset)
  else if d.pidEnable then
    let (ctrl,output) := (d.pidCtrl.setTargetTemp q.targetTemp).pidOutput now q.temperature 0
    let d := {d with pidCtrl := ctrl}
    let state := clampPid d.minState (m.getMaxState d) (toInt (output + d.minState))
    (put d (m.setCurrStateRaw d state q.state),pid)
  else if q.state then (thdCdevExponentialController m d q.state o.minState o.maxState,pid)
  else (thdCdevExponentialController m d q.state 0 0,pid)

-- Every return of the source is THD_SUCCESS.
def thdCdevSetState (srt : StdSort) (c : Cdev σ) (now : Int) (q : Request) (pid : Pid) : Cdev σ × Pid :=
  match arbitrate m srt c now q with
  | (limits,none) => ({c with zoneTripLimits := limits},pid)
  | (limits,some order) =>
    let (dev,pid) := actuate m c.dev now q order pid
    ({c with dev := dev,zoneTripLimits := limits},pid)

def minStateRequest (d : Dev σ) (zoneId tripId : Int) : Request :=
  ⟨0,0,false,false,zoneId,tripId,true,d.minState,none,true,false,0,0⟩

def thdCdevSetMinState (srt : StdSort) (c : Cdev σ) (now : Int) (zoneId tripId : Int) : Cdev σ :=
  let c := {c with dev := {c.dev with trendIncrease := false}}
  (thdCdevSetState m srt c now (minStateRequest c.dev zoneId tripId) Pid.new).1

end Cdev
end ChuwiMinibook
