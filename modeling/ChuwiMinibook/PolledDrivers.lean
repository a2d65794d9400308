import ChuwiMinibook.Mxc6655

namespace ChuwiMinibook.PolledDrivers
open MainLoop
open Mxc6655 (AccelReadings)

-- drv-iio-buffer-accel.c, drv-iio-poll-light.c, drv-input-accel.c, drv-input-proximity.c.
inductive ReadSource where
  | readTimer | eventWatch
deriving DecidableEq

-- An opened device with a read timer: the main loop, the readings passed to the callback,
-- and the rest of the private data.
structure Polled (Priv Reading : Type) where
  timeoutId : Nat
  loop : Loop ReadSource
  delivered : List Reading
  priv : Priv

section
variable {Priv Reading Read : Type}

def opened (priv : Priv) : Polled Priv Reading := ⟨0,⟨0,[]⟩,[],priv⟩

def Polled.readTimers (d : Polled Priv Reading) : List Nat := d.loop.ofKind .readTimer

def Polled.callback (readings : Reading) (d : Polled Priv Reading) : Polled Priv Reading :=
  { d with delivered := d.delivered++[readings] }

def Polled.addTimer (d : Polled Priv Reading) : Polled Priv Reading :=
  { d with timeoutId := d.loop.addId,loop := d.loop.add .readTimer }

def Polled.removeTimer (d : Polled Priv Reading) : Polled Priv Reading :=
  { d with timeoutId := 0,loop := d.loop.remove d.timeoutId }

-- Where the set_polling functions differ: what is done before the timer is added and after
-- it is removed, and whether the device has one at all.
structure Hooks (Priv : Type) where
  start : Priv → Priv
  stop : Priv → Priv
  timed : Priv → Bool

def startTimer (hooks : Hooks Priv) (d : Polled Priv Reading) : Polled Priv Reading :=
  { d with priv := hooks.start d.priv }.addTimer

def stopTimer (hooks : Hooks Priv) (d : Polled Priv Reading) : Polled Priv Reading :=
  { d.removeTimer with priv := hooks.stop d.priv }

def setPollingWith (hooks : Hooks Priv) (read : Polled Priv Reading → Polled Priv Reading) (state : Bool)
    (d : Polled Priv Reading) : Polled Priv Reading :=
  if 0 < d.timeoutId ∧ state = true then d
  else if d.timeoutId = 0 ∧ state = false then d
  else
    let d := if d.timeoutId ≠ 0 then stopTimer hooks d else d
    if state && hooks.timed d.priv then read (startTimer hooks d) else d

-- G_SOURCE_CONTINUE: the timer stays.
def dispatchTimer (read : Polled Priv Reading → Polled Priv Reading) (d : Polled Priv Reading) : Polled Priv Reading :=
  if d.readTimers = [] then d else read d

inductive Event (Read : Type) where
  | setPolling (state : Bool) (read : Read)
  | timer (read : Read)

def stepWith (hooks : Hooks Priv) (reader : Read → Polled Priv Reading → Polled Priv Reading) (d : Polled Priv Reading) :
    Event Read → Polled Priv Reading
  | .setPolling state read => setPollingWith hooks (reader read) state d
  | .timer read => dispatchTimer (reader read) d

end

section
variable {R : Type}

-- The last state asked of the ring buffer.
structure BufferData where
  scanSize : Int
  ringBuffer : Bool

-- Opening and reading the device file; scan is what the three channels of a scan come to
-- behind the mount matrix.
structure BufferRead (R : Type) where
  opened : Bool
  readSize : Int
  again : Bool
  scan : Int → R

abbrev BufferAccel (R : Type) := Polled BufferData R

def processScan (read : BufferRead R) (d : BufferAccel R) : BufferAccel R :=
  if read.readSize < 0 then d
  else
    let i := read.readSize.tdiv d.priv.scanSize-1
    if i < 0 then d else d.callback (read.scan i)

def prepareOutput (read : BufferRead R) (d : BufferAccel R) : BufferAccel R :=
  if read.opened = false then d
  else if read.readSize = -1 ∧ read.again = true then d
  else processScan read d

def readOrientation (read : BufferRead R) (d : BufferAccel R) : BufferAccel R := prepareOutput read d

def enableRingBuffer (data : BufferData) : BufferData := { data with ringBuffer := true }

def disableRingBuffer (data : BufferData) : BufferData := { data with ringBuffer := false }

def iioBufferAccelHooks : Hooks BufferData := ⟨enableRingBuffer,disableRingBuffer,fun _ => true⟩

def iioBufferAccelOpen (scanSize : Int) : BufferAccel R := opened ⟨scanSize,false⟩

def iioBufferAccelSetPolling (state : Bool) (read : BufferRead R) (d : BufferAccel R) : BufferAccel R :=
  setPollingWith iioBufferAccelHooks (readOrientation read) state d

def iioBufferAccelStep : BufferAccel R → Event (BufferRead R) → BufferAccel R :=
  stepWith iioBufferAccelHooks readOrientation

structure LightReadings (R : Type) where
  level : R
  usesLux : Bool

structure LightData (R : Type) where
  scale : R

abbrev PollLight (R : Type) := Polled (LightData R) (LightReadings R)

-- The contents of the input file as a number, if it could be read.
def lightChanged [Mul R] (contents : Option R) (d : PollLight R) : PollLight R :=
  match contents with
  | none => d
  | some level => d.callback ⟨level*d.priv.scale,true⟩

def iioPollLightHooks : Hooks (LightData R) := ⟨id,id,fun _ => true⟩

def iioPollLightOpen (scale : R) : PollLight R := opened ⟨scale⟩

def iioPollLightSetPolling [Mul R] (state : Bool) (contents : Option R) (d : PollLight R) :
    PollLight R :=
  setPollingWith iioPollLightHooks (lightChanged contents) state d

def iioPollLightStep [Mul R] : PollLight R → Event (Option R) → PollLight R :=
  stepWith iioPollLightHooks lightChanged

end

structure InputAccelData where
  parentPath : Option String
  mountMatrix : Int×Int×Int → Int×Int×Int
  sendsKevent : Bool

abbrev InputAccel := Polled InputAccelData AccelReadings

-- Opening the event device and asking for the three axes.
structure AxesRead where
  opened : Bool
  x : Option Int
  y : Option Int
  z : Option Int

def AxesRead.axes (read : AxesRead) : Option (Int×Int×Int) :=
  if read.opened then do return (← read.x,← read.y,← read.z) else none

def accelerometerChanged (read : AxesRead) (d : InputAccel) : InputAccel :=
  match read.axes with
  | none => d
  | some axes =>
    let (x,y,z) := d.priv.mountMatrix axes
    d.callback ⟨x,y,z,981/25600⟩

def inputAccelHooks : Hooks InputAccelData := ⟨id,id,fun data => !data.sendsKevent⟩

def inputAccelOpen (parentPath : Option String) (mountMatrix : Int×Int×Int → Int×Int×Int) : InputAccel :=
  opened ⟨parentPath,mountMatrix,false⟩

def inputAccelSetPolling (state : Bool) (read : AxesRead) (d : InputAccel) : InputAccel :=
  setPollingWith inputAccelHooks (accelerometerChanged read) state d

-- The first kevent of the parent ends the polling of the device for good.
def switchToKevents (read : AxesRead) (d : InputAccel) : InputAccel :=
  if d.priv.sendsKevent then d
  else inputAccelSetPolling false read { d with priv := { d.priv with sendsKevent := true } }

def ueventReceived (action sysfsPath : String) (read : AxesRead) (d : InputAccel) :
    InputAccel :=
  if action ≠ "change" then d
  else if d.priv.parentPath ≠ some sysfsPath then d
  else accelerometerChanged read (switchToKevents read d)

inductive InputAccelEvent where
  | polling (event : Event AxesRead)
  | uevent (action sysfsPath : String) (read : AxesRead)

def inputAccelStep (d : InputAccel) : InputAccelEvent → InputAccel
  | .polling event => stepWith inputAccelHooks accelerometerChanged d event
  | .uevent action sysfsPath read => ueventReceived action sysfsPath read d

-- The proximity switch has no timer, but a watch on its event device.
structure ProximityDevice where
  lastSwitchState : Bool
  offset : Nat
  watcherId : Nat
  loop : Loop ReadSource
  delivered : List Int

def proximityNear (state : Bool) : Int := if state then 1 else 0

def reportSwitch (state : Bool) (d : ProximityDevice) : ProximityDevice :=
  { d with lastSwitchState := state,delivered := d.delivered++[proximityNear state] }

def inputEventSize : Nat := 24

def evSw : Nat := 5

def swFrontProximity : Nat := 11

-- One read from the channel: how many bytes came, the event they complete, and the state
-- of the switch if it could be asked for.
structure ProximityRead where
  readBytes : Nat
  type : Nat
  code : Nat
  switch : Option Bool

def proximityChanged : List ProximityRead → ProximityDevice → ProximityDevice
  | [],d => d
  | read::rest,d =>
    if d.offset+read.readBytes < inputEventSize then { d with offset := d.offset+read.readBytes }
    else if read.type ≠ evSw ∨ read.code ≠ swFrontProximity then proximityChanged rest { d with offset := 0 }
    else
      match read.switch with
      | none => proximityChanged rest { d with offset := 0 }
      | some state => proximityChanged rest (reportSwitch state { d with offset := 0 })

-- What watch_input_proximity meets: the name of the device file, whether it opens, the
-- state of the switch, and whether the channel takes the encoding.
structure WatchAttempt where
  deviceFile : Option String
  opens : Bool
  switch : Option Bool
  encodes : Bool

-- The state of the switch, of a device that can be watched.
def WatchAttempt.readable (attempt : WatchAttempt) : Option Bool :=
  if attempt.deviceFile = none ∨ attempt.deviceFile = some "" then none
  else if attempt.opens = false then none
  else if attempt.encodes = false then none
  else attempt.switch

def watchInputProximity (attempt : WatchAttempt) (d : ProximityDevice) : ProximityDevice :=
  match attempt.readable with
  | none => d
  | some state => reportSwitch state { d with watcherId := d.loop.addId,loop := d.loop.add .eventWatch }

def inputProximityOpen : ProximityDevice := ⟨false,0,0,⟨0,[]⟩,[]⟩

def clearWatcher (d : ProximityDevice) : ProximityDevice :=
  if d.watcherId = 0 then d else { d with watcherId := 0,loop := d.loop.remove d.watcherId }

def inputProximitySetPolling (state : Bool) (attempt : WatchAttempt) (d : ProximityDevice) : ProximityDevice :=
  if 0 < d.watcherId ∧ state = true then d
  else if d.watcherId = 0 ∧ state = false then d
  else if state then watchInputProximity attempt (clearWatcher d) else clearWatcher d

inductive ProximityEvent where
  | setPolling (state : Bool) (attempt : WatchAttempt)
  | readable (reads : List ProximityRead)

def inputProximityStep (d : ProximityDevice) : ProximityEvent → ProximityDevice
  | .setPolling state attempt => inputProximitySetPolling state attempt d
  | .readable reads => if d.loop.ofKind .eventWatch = [] then d else proximityChanged reads d

end ChuwiMinibook.PolledDrivers
