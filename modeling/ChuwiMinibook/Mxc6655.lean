import ChuwiMinibook.Descriptors
import ChuwiMinibook.MainLoop
import ChuwiMinibook.StdString
import Mathlib.Order.Lattice
import Mathlib.Algebra.Order.Ring.Int

namespace ChuwiMinibook.Mxc6655
open Descriptors MainLoop

-- drv-mxc6655-accel.c. Two accelerometers, one in each half of a convertible: the angle
-- between them gives the tablet mode, the one in the lid the screen orientation.
structure Vec3 (K : Type) where
  x : K
  y : K
  z : K

-- The floating-point arithmetic stays a parameter: the orientation filter with its
-- state, the calibration, the gravity gate and the hinge angle. Nothing is assumed of it.
structure Arithmetic (K Filter Hinge : Type) where
  tilt : K
  calibrate : Vec3 K → List Int → Vec3 K
  updateOrientation : Filter → Vec3 K → Filter×Int
  weakGravity : Vec3 K → Vec3 K → Bool
  computeHingeAngle : Hinge → Vec3 K → Vec3 K → Hinge×K

structure AccelReadings where
  accelX : Int
  accelY : Int
  accelZ : Int
  scale : Rat
deriving DecidableEq

inductive SourceKind where
  | pollTimer | lidWatch
deriving DecidableEq

-- The private data of a device with what it did to the outside: its main loop sources,
-- the I2C descriptors, the readings passed to the callback (with the mode at that time),
-- the LTSM calls and the SW_TABLET_MODE events.
structure Device (K Filter Hinge : Type) where
  timeoutId : Nat
  wantPolling : Bool
  lidClosed : Bool
  lidFd : Int
  lidWatchId : Nat
  i2cFds : Int×Int
  uinputFd : Int
  cal1 : List Int
  cal2 : List Int
  prevZ : Hinge
  mode : Int
  tCount : Nat
  lCount : Nat
  nCount : Nat
  tabletThresh : K
  laptopThresh : K
  minAngle : K
  orient : Filter
  curOrient : Int
  orientDebounce : Nat
  pendingOrient : Int
  panelDeg : Int
  loop : Loop SourceKind
  fds : Table
  delivered : List (Int×AccelReadings)
  ltsm : List Int
  tabletEvents : List Int

def gmtrDebounce : Nat := 5

def orientNormal : Int := 0

def orientLeft : Int := 1

def orientInverted : Int := 2

def orientRight : Int := 3

-- The rotation the compositor applies for a DRM panel orientation.
def panelOrientDegrees (drmOrient : Int) : Int :=
  if drmOrient = 2 then 90 else if drmOrient = 1 then 180 else if drmOrient = 3 then 270 else 0

def composeOrientation (mxcOrient panelDeg : Int) : Int :=
  (((mxcOrient*90-panelDeg).tmod 360+360).tmod 360).tdiv 90

def buildSyntheticReadings (orient : Int) : AccelReadings :=
  let scale : Rat := 981/25600
  if orient = orientNormal then ⟨0,-256,0,scale⟩
  else if orient = orientInverted then ⟨0,256,0,scale⟩
  else if orient = orientLeft then ⟨256,0,0,scale⟩
  else if orient = orientRight then ⟨-256,0,0,scale⟩
  else ⟨0,-256,0,scale⟩

section
variable {K Filter Hinge : Type}

def emitOrientation (orient : Int) (d : Device K Filter Hinge) : Device K Filter Hinge :=
  { d with delivered := d.delivered++[(d.mode,buildSyntheticReadings orient)] }

def landscape (d : Device K Filter Hinge) : Int := composeOrientation orientRight d.panelDeg

def sendCurrentReading (d : Device K Filter Hinge) : Device K Filter Hinge :=
  emitOrientation (if d.curOrient < 0 then landscape d else d.curOrient) d

-- The timer that runs poll_sensors and the two inputs that gate it.
def pollingWanted (d : Device K Filter Hinge) : Bool := d.wantPolling && !d.lidClosed

def startPollTimer (d : Device K Filter Hinge) : Device K Filter Hinge :=
  { d with timeoutId := d.loop.addId,loop := d.loop.add .pollTimer }

def stopPollTimer (d : Device K Filter Hinge) : Device K Filter Hinge :=
  { d with timeoutId := 0,loop := d.loop.remove d.timeoutId }

def updatePollingTimer (d : Device K Filter Hinge) : Device K Filter Hinge :=
  if pollingWanted d && d.timeoutId = 0 then startPollTimer d
  else if !pollingWanted d && 0 < d.timeoutId then stopPollTimer d
  else d

def setLidClosed (closed : Bool) (d : Device K Filter Hinge) : Device K Filter Hinge :=
  if d.lidClosed = closed then d else updatePollingTimer { d with lidClosed := closed }

structure InputEvent where
  type : Nat
  code : Nat
  value : Int

def evSw : Nat := 5

def swLid : Nat := 0

-- One dispatch of the lid watch: the condition, then the events that could be read.
structure LidDispatch where
  hangup : Bool
  events : List InputEvent

def lidEvent (d : Device K Filter Hinge) (ev : InputEvent) : Device K Filter Hinge :=
  if ev.type ≠ evSw ∨ ev.code ≠ swLid then d else setLidClosed (ev.value ≠ 0) d

-- true is G_SOURCE_CONTINUE.
def lidEventCb (dispatch : LidDispatch) (d : Device K Filter Hinge) : Device K Filter Hinge×Bool :=
  if dispatch.hangup then ({ d with lidWatchId := 0 },false)
  else (dispatch.events.foldl lidEvent d,true)

def setWantPolling (state : Bool) (d : Device K Filter Hinge) : Device K Filter Hinge :=
  if d.wantPolling = state then d else updatePollingTimer { d with wantPolling := state }

def mxc6655SetPolling (state : Bool) (d : Device K Filter Hinge) : Device K Filter Hinge :=
  setWantPolling state (if state then sendCurrentReading d else d)

-- What opening the lid switch gives: no such device, or its descriptor and the state of
-- the switch, none when it could not be asked for.
structure LidSwitch where
  fd : Nat
  closed : Option Bool

def setupLidWatch (lid : Option LidSwitch) (d : Device K Filter Hinge) : Device K Filter Hinge :=
  match lid with
  | none => { d with lidFd := -1 }
  | some lid =>
    { d with lidFd := lid.fd,lidClosed := lid.closed.getD false,lidWatchId := d.loop.addId,loop := d.loop.add .lidWatch }

-- The I2C controllers. A bus is passed over, cannot be opened, is opened and silent, or
-- answers as an accelerometer.
inductive Probe where
  | refused | silent | answers
deriving DecidableEq

structure Bus where
  acpiPath : Option String
  probe : Probe

def Bus.onI2c (bus : Bus) : Bool :=
  match bus.acpiPath with
  | none => false
  | some path => StdString.contains path ".I2C"

def probeBus (probe : Probe) (t : Table) : Table×Option Int :=
  match probe with
  | .refused => (t,none)
  | .silent => (t.openNew.close t.next,none)
  | .answers => (t.openNew,some t.next)

-- The descriptors found, at most two, in the order of the buses.
def findAccels : List Bus → List Int → Table → Table×List Int
  | [],fds,t => (t,fds)
  | bus::rest,fds,t =>
    if fds.length < 2 then
      if bus.onI2c then
        let (t,fd) := probeBus bus.probe t
        findAccels rest (fds++fd.toList) t
      else findAccels rest fds t
    else (t,fds)

-- fds[found++] = fd: places that nothing was found for keep their value.
def place (found : List Int) (fds : Int×Int) : Int×Int := (found.getD 0 fds.1,found.getD 1 fds.2)

def heldFds (fds : Int×Int) : List Int := [fds.1,fds.2].filter (0 ≤ ·)

def recoverI2c (buses : List Bus) (d : Device K Filter Hinge) : Device K Filter Hinge :=
  let t := closeAll (heldFds d.i2cFds) d.fds
  let (t,found) := findAccels buses [] t
  if found.length < 2 then { d with fds := t,i2cFds := (-1,-1) }
  else { d with fds := t,i2cFds := place found (-1,-1) }

variable [LinearOrder K] [Zero K] [Neg K]

def fabsf (x : K) : K := max x (-x)

def classifyOrientation (arith : Arithmetic K Filter Hinge) (accel : Vec3 K) : Int :=
  if fabsf accel.x < arith.tilt ∧ fabsf accel.y < arith.tilt then -1
  else if fabsf accel.x ≤ fabsf accel.y then (if accel.y < 0 then orientNormal else orientInverted)
  else if 0 < accel.x then orientRight else orientLeft

-- The part of update_orientation_debounce behind the filter and the classifier.
def debounceOrientation (newOrient : Int) (d : Device K Filter Hinge) : Device K Filter Hinge :=
  if newOrient ≠ d.pendingOrient then
    { d with pendingOrient := newOrient,orientDebounce := if newOrient ≠ d.curOrient then 1 else 0 }
  else if newOrient = d.curOrient then d
  else
    let d := { d with orientDebounce := d.orientDebounce+1 }
    if d.orientDebounce > gmtrDebounce then
      emitOrientation newOrient { d with curOrient := newOrient,orientDebounce := 0 }
    else d

-- The orientation a sample stands for, when it is classified: what the debounce sees.
def composedSample (arith : Arithmetic K Filter Hinge) (accel : Vec3 K) (d : Device K Filter Hinge) : Option Int :=
  if (arith.updateOrientation d.orient accel).2 ≤ 0 then none
  else if classifyOrientation arith accel < 0 then none
  else some (composeOrientation (if d.mode ≠ 1 then orientRight else classifyOrientation arith accel) d.panelDeg)

def updateOrientationDebounce (arith : Arithmetic K Filter Hinge) (accel : Vec3 K) (d : Device K Filter Hinge) :
    Device K Filter Hinge :=
  match composedSample arith accel d with
  | none => { d with orient := (arith.updateOrientation d.orient accel).1 }
  | some newOrient => debounceOrientation newOrient { d with orient := (arith.updateOrientation d.orient accel).1 }

def forceLandscape (d : Device K Filter Hinge) : Device K Filter Hinge :=
  emitOrientation (landscape d) { d with curOrient := landscape d,pendingOrient := landscape d,orientDebounce := 0 }

def setTabletMode (mode : Int) (d : Device K Filter Hinge) : Device K Filter Hinge :=
  let d := { d with mode := mode,ltsm := d.ltsm++[mode] }
  let d := if 0 ≤ d.uinputFd then { d with tabletEvents := d.tabletEvents++[mode] } else d
  if mode = 0 then forceLandscape d else d

def updateTabletMode (angle : K) (d : Device K Filter Hinge) : Device K Filter Hinge :=
  if angle > d.tabletThresh then
    let d := { d with tCount := d.tCount+1,lCount := 0,nCount := 0 }
    if d.mode ≠ 1 ∧ d.tCount > gmtrDebounce then setTabletMode 1 d else d
  else if angle ≥ d.laptopThresh then { d with nCount := d.nCount+1,tCount := 0,lCount := 0 }
  else if angle > d.minAngle then
    let d := { d with lCount := d.lCount+1,tCount := 0,nCount := 0 }
    if d.mode ≠ 0 ∧ d.lCount > gmtrDebounce then setTabletMode 0 d else d
  else d

-- One call of poll_sensors: what the two reads return, and the buses a recovery would see.
structure Sample (K : Type) where
  raw1 : Option (Vec3 K)
  raw2 : Option (Vec3 K)
  buses : List Bus

def readAccel (fd : Int) (raw : Option (Vec3 K)) : Option (Vec3 K) := if fd < 0 then none else raw

def negateX (a : Vec3 K) : Vec3 K := { a with x := -a.x }

def updateHinge (arith : Arithmetic K Filter Hinge) (a1 a2 : Vec3 K) (d : Device K Filter Hinge) : Device K Filter Hinge :=
  if arith.weakGravity a1 a2 then d
  else
    let (prevZ,angle) := arith.computeHingeAngle d.prevZ a1 a2
    updateTabletMode angle { d with prevZ := prevZ }

-- Both accelerometers, calibrated, when both could be read.
def calibrated (arith : Arithmetic K Filter Hinge) (sample : Sample K) (d : Device K Filter Hinge) : Option (Vec3 K×Vec3 K) := do
  let raw1 ← readAccel d.i2cFds.1 sample.raw1
  let raw2 ← readAccel d.i2cFds.2 sample.raw2
  return (arith.calibrate raw1 d.cal1,arith.calibrate raw2 d.cal2)

def pollSensors (arith : Arithmetic K Filter Hinge) (sample : Sample K) (d : Device K Filter Hinge) : Device K Filter Hinge :=
  match calibrated arith sample d with
  | none => recoverI2c sample.buses d
  | some (a1,a2) => updateHinge arith a1 a2 (updateOrientationDebounce arith (negateX a1) d)

theorem pollSensors_cases (arith : Arithmetic K Filter Hinge) (sample : Sample K) (d : Device K Filter Hinge) :
    (calibrated arith sample d = none ∧ pollSensors arith sample d = recoverI2c sample.buses d) ∨
    ∃ a1 a2,calibrated arith sample d = some (a1,a2) ∧
      pollSensors arith sample d = updateHinge arith a1 a2 (updateOrientationDebounce arith (negateX a1) d) := by
  unfold pollSensors
  cases calibrated arith sample d with
  | none => exact .inl ⟨rfl,rfl⟩
  | some read => exact .inr ⟨read.1,read.2,rfl,rfl⟩

-- What happens to an opened device. The lid watch only runs while its source lives.
inductive Event (K : Type) where
  | poll (sample : Sample K)
  | setPolling (state : Bool)
  | lid (dispatch : LidDispatch)

def dispatchLid (dispatch : LidDispatch) (d : Device K Filter Hinge) : Device K Filter Hinge :=
  match d.loop.ofKind .lidWatch with
  | [] => d
  | id::_ =>
    match lidEventCb dispatch d with
    | (d,true) => d
    | (d,false) => { d with loop := d.loop.remove id }

def step (arith : Arithmetic K Filter Hinge) (d : Device K Filter Hinge) : Event K → Device K Filter Hinge
  | .poll sample => pollSensors arith sample d
  | .setPolling state => mxc6655SetPolling state d
  | .lid dispatch => dispatchLid dispatch d

end

section
variable {K Filter Hinge : Type}

-- What mxc6655_open finds: the panel, the thresholds and matrices (from GMTR or the
-- defaults), the buses at both searches, the uinput device and the lid switch.
structure Setup (K Filter Hinge : Type) where
  drmOrient : Int
  tabletThresh : K
  laptopThresh : K
  minAngle : K
  cal1 : List Int
  cal2 : List Int
  prevZ : Hinge
  orient : Filter
  first : List Bus
  second : List Bus
  uinputFd : Int
  lid : Option LidSwitch

def fresh (setup : Setup K Filter Hinge) (fds : Table) (i2cFds : Int×Int) : Device K Filter Hinge where
  timeoutId := 0
  wantPolling := false
  lidClosed := false
  lidFd := -1
  lidWatchId := 0
  i2cFds := i2cFds
  uinputFd := setup.uinputFd
  cal1 := setup.cal1
  cal2 := setup.cal2
  prevZ := setup.prevZ
  mode := -1
  tCount := 0
  lCount := 0
  nCount := 0
  tabletThresh := setup.tabletThresh
  laptopThresh := setup.laptopThresh
  minAngle := setup.minAngle
  orient := setup.orient
  curOrient := -1
  orientDebounce := 0
  pendingOrient := -1
  panelDeg := panelOrientDegrees setup.drmOrient
  loop := ⟨0,[]⟩
  fds := fds
  delivered := []
  ltsm := []
  tabletEvents := []

-- The search, and a second one when the kernel driver had to be unbound first.
def findBoth (setup : Setup K Filter Hinge) : Table×List Int :=
  let (t,found) := findAccels setup.first [] empty
  if found.length < 2 then findAccels setup.second [] (closeAll found t) else (t,found)

-- An error is the NULL of mxc6655_open, with the descriptors as it leaves them.
def mxc6655Open (setup : Setup K Filter Hinge) : Except Table (Device K Filter Hinge) :=
  let (t,found) := findBoth setup
  if found.length < 2 then .error (closeAll found t)
  else .ok (setupLidWatch setup.lid (fresh setup t (place found (-1,-1))))

theorem open_ok {setup : Setup K Filter Hinge} {d : Device K Filter Hinge} (opened : mxc6655Open setup = .ok d) :
    ∃ t found,d = setupLidWatch setup.lid (fresh setup t found) := by
  unfold mxc6655Open at opened
  simp only at opened
  split at opened
  · cases opened
  · cases opened
    exact ⟨_,_,rfl⟩

def mxc6655Close (d : Device K Filter Hinge) : Device K Filter Hinge :=
  let d := if 0 < d.lidWatchId then { d with loop := d.loop.remove d.lidWatchId } else d
  { d with fds := closeAll (heldFds d.i2cFds) d.fds }

def driverClose (d : Device K Filter Hinge) : Device K Filter Hinge := mxc6655Close (mxc6655SetPolling false d)

end

-- A machine with the default thresholds, in whole degrees, and a panel mounted right side
-- up.
def minibook : Setup Int Unit Unit where
  drmOrient := 3
  tabletThresh := 185
  laptopThresh := 175
  minAngle := 30
  cal1 := [1,0,0,0,1,0,0,0,1]
  cal2 := [1,0,0,0,-1,0,0,0,-1]
  prevZ := ()
  orient := ()
  first := [⟨some "\\_SB_.PC00.I2C0",.answers⟩,⟨none,.refused⟩,⟨some "\\_SB_.PC00.I2C1",.answers⟩]
  second := []
  uinputFd := 9
  lid := some ⟨10,some false⟩

def minibookDevice : Device Int Unit Unit := setupLidWatch minibook.lid (fresh minibook ⟨2,[0,1],[]⟩ (0,1))

theorem minibook_opens : mxc6655Open minibook = .ok minibookDevice := by rfl

-- The same machine on a desk, in thousandths of g: the lid stands at 100 degrees, and the
-- filter has not filled its buffer.
def deskArithmetic : Arithmetic Int Unit Unit where
  tilt := 400
  calibrate v m := ⟨m.getD 0 0*v.x+m.getD 1 0*v.y+m.getD 2 0*v.z,m.getD 3 0*v.x+m.getD 4 0*v.y+m.getD 5 0*v.z,
    m.getD 6 0*v.x+m.getD 7 0*v.y+m.getD 8 0*v.z⟩
  updateOrientation _ _ := ((),0)
  weakGravity a1 a2 := a1.x*a1.x+a1.z*a1.z < 90000 ∧ a2.x*a2.x+a2.z*a2.z < 90000
  computeHingeAngle _ _ _ := ((),100)

def deskSample : Sample Int := ⟨some ⟨0,0,-1000⟩,some ⟨-985,0,174⟩,[]⟩

end ChuwiMinibook.Mxc6655
