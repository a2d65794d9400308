import ChuwiMinibook.Cdev

namespace ChuwiMinibook

inductive TripPointType where
  | critical | hot | max | passive | active | polling | invalidTripType
deriving DecidableEq

inductive TripControlType where
  | parallel | sequential
deriving DecidableEq

inductive DependRel where
  | equal | greater | lesser | lesserOrEqual | greaterOrEqual
deriving DecidableEq

-- trip_pt_cdev_t; the device pointer is its position in the engine's vector.
structure TripPtCdev where
  cdev : Nat
  influence : Int
  samplingPriod : Int
  lastOpTime : Int
  targetStateValid : Bool
  targetState : Int
  pidParam : PidParam
  pid : Pid
  minMaxValid : Bool
  minState : Int
  maxState : Int
deriving DecidableEq

structure TripPoint where
  index : Int
  type : TripPointType
  temp : Nat
  hyst : Nat
  cdevs : List TripPtCdev
  controlType : TripControlType
  zoneId : Int
  sensorId : Int
  tripOn : Bool
  pollOn : Bool
  dependCdev : Option Nat
  dependCdevState : Int
  dependCdevStateRel : DependRel
  critTripCount : Nat
deriving DecidableEq

structure Sensor where
  index : Int
  typeStr : String
  asyncCapable : Bool
  virtualSensor : Bool
deriving DecidableEq

-- What a check asks of the rest of the system besides its cooling devices.
inductive Action where
  | powerOff
  | suspend
  | pollTrip (sensor : Int) (on : Bool)
  | fastPoll (sensor : Int) (on : Bool)
  | setThreshold (sensor : Int) (temp : Nat)
deriving DecidableEq

def defaultSensorId : Int := 65535
def consecutiveCriticalEvents : Nat := 4
def prefEnergyConserve : Int := 0
def prefPerformance : Int := 1
def prefDisabled : Int := 2

namespace TripPoint
variable {σ : Type}

def new (index : Int) (type : TripPointType) (temp hyst : Nat) (zoneId sensorId : Int)
    (controlType : TripControlType) : TripPoint :=
  ⟨index,type,temp,hyst,[],controlType,zoneId,sensorId,false,false,none,0,.equal,0⟩

def invalidPid : PidParam := ⟨false,0,0,0⟩

def tripCdevSort (a b : TripPtCdev) : Bool := decide (a.influence > b.influence)

-- check_duplicate compares the devices' type strings.
def tripCdevAdd (srt : StdSort) (typeOf : Nat → String) (t : TripPoint) (b : TripPtCdev) : TripPoint :=
  let cdevs := match t.cdevs.findIdx? (fun old => typeOf old.cdev == typeOf b.cdev) with
    | some i => t.cdevs.modify i (fun old => {old with influence := b.influence})
    | none => t.cdevs ++ [b]
  {t with cdevs := srt.sort tripCdevSort cdevs}

-- thd_trip_point_add_cdev without a PID parameter, as the engines call it.
def thdTripPointAddCdev (srt : StdSort) (typeOf : Nat → String) (t : TripPoint) (cdev : Nat)
    (influence samplingPeriod : Int) (targetStateValid : Bool) (targetState : Int)
    (minMaxValid : Bool) (minState maxState : Int) : TripPoint :=
  tripCdevAdd srt typeOf t ⟨cdev,influence,samplingPeriod,0,targetStateValid,targetState,invalidPid,
    Pid.new,minMaxValid,if minMaxValid then minState else 0,if minMaxValid then maxState else 0⟩

variable (m : Cdev.Methods σ) (srt : StdSort)

def request (t : TripPoint) (b : TripPtCdev) (d : Dev σ) (readTemp : Nat) (state : Bool) : Cdev.Request where
  targetTemp := t.temp
  temperature := readTemp
  hardTarget := t.type == .max
  state := state
  zoneId := t.zoneId
  tripId := t.index
  targetStateValid := b.targetStateValid
  targetValue := m.mapTargetState d b.targetStateValid b.targetState
  pidParam := some b.pidParam
  force := false
  minMaxValid := b.minMaxValid
  minState := b.minState
  maxState := b.maxState

-- One thd_cdev_set_state call for a binding; a MAX target resolves to the
-- device's min_state the first time it is used.
def drive (t : TripPoint) (b : TripPtCdev) (c : Cdev σ) (now : Int) (readTemp : Nat) (state : Bool) :
    TripPtCdev × Cdev σ :=
  let b := if b.targetState = tripPtInvalidTargetState then {b with targetState := c.dev.minState} else b
  let (c,pid) := Cdev.thdCdevSetState m srt c now (request m t b c.dev readTemp state) b.pid
  ({b with pid := pid},c)

def switchOn (t : TripPoint) (now : Int) (readTemp : Nat) :
    List TripPtCdev → List (Cdev σ) → List TripPtCdev × List (Cdev σ)
  | [],devs => ([],devs)
  | b::rest,devs =>
    -- "Too early to act" ends the walk
    if b.samplingPriod ≠ 0 ∧ now - b.lastOpTime < b.samplingPriod then (b::rest,devs)
    else
      let b := if b.samplingPriod ≠ 0 then {b with lastOpTime := now} else b
      match devs[b.cdev]? with
      | none => (b::rest,devs)
      | some c =>
        if Cdev.inMaxState m c.dev then
          let (rest,devs) := switchOn t now readTemp rest devs
          (b::rest,devs)
        else
          let (b,c) := drive m srt t b c now readTemp true
          let devs := devs.set b.cdev c
          if t.controlType = .sequential then (b::rest,devs)
          else
            let (rest,devs) := switchOn t now readTemp rest devs
            (b::rest,devs)

-- The bindings are visited from the last one down; the list here is reversed.
def switchOff (t : TripPoint) (now : Int) (readTemp : Nat) :
    List TripPtCdev → List (Cdev σ) → List TripPtCdev × List (Cdev σ)
  | [],devs => ([],devs)
  | b::rest,devs =>
    match devs[b.cdev]? with
    | none => (b::rest,devs)
    | some c =>
      if Cdev.inMinState m c.dev then
        let (rest,devs) := switchOff t now readTemp rest devs
        (b::rest,devs)
      else
        let (b,c) := drive m srt t b c now readTemp false
        let devs := devs.set b.cdev c
        if t.controlType = .sequential then (b::rest,devs)
        else
          let (rest,devs) := switchOff t now readTemp rest devs
          (b::rest,devs)

def DependRel.holds (rel : DependRel) (state wanted : Int) : Bool :=
  match rel with
  | .equal => state = wanted
  | .greater => state > wanted
  | .lesser => state < wanted
  | .lesserOrEqual => state ≤ wanted
  | .greaterOrEqual => state ≥ wanted

structure Checked (σ : Type) where
  trip : TripPoint
  cdevs : List (Cdev σ)
  actions : List Action
  reset : Bool
  handled : Bool

-- The dependency test: met, or the trip is not reached by this reading.
def dependencyMet (t : TripPoint) (devs : List (Cdev σ)) (readTemp : Nat) : Bool :=
  match t.dependCdev with
  | none => true
  | some k =>
    if readTemp ≥ t.temp then
      match devs[k]? with
      | none => true
      | some c => DependRel.holds t.dependCdevStateRel (m.getCurrState c.dev) t.dependCdevState
    else true

def getSensor (sensors : List Sensor) (index : Int) : Option Sensor :=
  if 0 ≤ index then sensors[index.toNat]? else none

-- Polling trips switch the polling mode of their sensor.
def checkPolling (t : TripPoint) (sensors : List Sensor) (devs : List (Cdev σ)) (readTemp : Nat) : Checked σ :=
  match getSensor sensors t.sensorId with
  | none => ⟨t,devs,[],false,true⟩
  | some sensor =>
    let threshold := if sensor.asyncCapable then [Action.setThreshold sensor.index t.temp] else []
    if !t.pollOn && decide (readTemp ≥ t.temp) then
      ⟨{t with pollOn := true},devs,
        [.pollTrip sensor.index true,.fastPoll sensor.index true] ++ threshold,false,true⟩
    else if t.pollOn && decide (readTemp < t.temp) then
      ⟨{t with pollOn := false},devs,
        [.pollTrip sensor.index false,.fastPoll sensor.index false] ++ threshold,true,true⟩
    else ⟨t,devs,[],false,true⟩

-- Trip types a preference applies to.
def applies (pref : Int) (type : TripPointType) : Bool :=
  if pref = prefPerformance then type == .active || type == .max
  else if pref = prefEnergyConserve then type == .passive || type == .max
  else false

def checkCdevs (t : TripPoint) (devs : List (Cdev σ)) (now : Int) (readTemp : Nat) : Checked σ :=
  if readTemp ≥ t.temp then
    let t := {t with tripOn := true}
    let (cdevs,devs) := switchOn m srt t now readTemp t.cdevs devs
    ⟨{t with cdevs := cdevs},devs,[],false,true⟩
  else if (t.tripOn ∧ (readTemp + t.hyst) % 4294967296 < t.temp) ∨ (t.tripOn = false ∧ readTemp < t.temp) then
    let t := {t with tripOn := false}
    let (cdevs,devs) := switchOff m srt t now readTemp t.cdevs.reverse devs
    ⟨{t with cdevs := cdevs.reverse},devs,[],false,true⟩
  else ⟨t,devs,[],false,true⟩

-- A critical or hot trip acts on the fifth reading in a row at its temperature.
def checkCritical (t : TripPoint) (devs : List (Cdev σ)) (action : Action) : Checked σ :=
  if t.critTripCount < consecutiveCriticalEvents then
    ⟨{t with critTripCount := t.critTripCount+1},devs,[],false,true⟩
  else ⟨{t with critTripCount := 0},devs,[action],false,true⟩

def thdTripPointCheck (ignoreCritical : Bool) (sensors : List Sensor) (t : TripPoint)
    (devs : List (Cdev σ)) (now : Int) (id : Int) (readTemp : Nat) (pref : Int) : Checked σ :=
  if t.type = .invalidTripType then ⟨t,devs,[],false,false⟩
  else if !dependencyMet m t devs readTemp then ⟨t,devs,[],false,false⟩
  else if t.sensorId ≠ defaultSensorId ∧ t.sensorId ≠ id then ⟨t,devs,[],false,false⟩
  else if t.type = .critical ∧ ignoreCritical = false ∧ readTemp ≥ t.temp then
    checkCritical t devs .powerOff
  else if t.type = .hot ∧ ignoreCritical = false ∧ readTemp ≥ t.temp then
    checkCritical t devs .suspend
  else
    let t := if t.type = .critical ∨ t.type = .hot then {t with critTripCount := 0} else t
    if t.type = .polling ∧ t.sensorId ≠ defaultSensorId then checkPolling t sensors devs readTemp
    else if applies pref t.type then checkCdevs m srt t devs now readTemp
    else ⟨t,devs,[],false,false⟩

-- thd_trip_cdev_state_reset
def thdTripCdevStateReset (force : Bool) (t : TripPoint) (now : Int) (devs : List (Cdev σ)) : List (Cdev σ) :=
  t.cdevs.reverse.foldl (fun devs b => devs.modify b.cdev (fun c =>
    if !force && Cdev.inMinState m c.dev then c
    else Cdev.thdCdevSetMinState m srt c now t.zoneId t.index)) devs

end TripPoint
end ChuwiMinibook
