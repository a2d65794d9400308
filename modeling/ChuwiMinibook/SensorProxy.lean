import ChuwiMinibook.Mxc6655
import ChuwiMinibook.StdString
import Mathlib.Data.List.AList
import Mathlib.Logic.Function.Basic

namespace ChuwiMinibook.SensorProxy
open Mxc6655 (AccelReadings)

-- iio-sensor-proxy.c: the D-Bus service between the sensor drivers and their clients.
inductive DriverType where
  | accel | light | compass | proximity
deriving DecidableEq

def sensorTypes : List DriverType := [.accel,.light,.compass,.proximity]

structure Driver where
  driverName : String
  type : DriverType
deriving DecidableEq

inductive OrientationUp where
  | undefined | normal | bottomUp | leftUp | rightUp
deriving DecidableEq

inductive Tilt where
  | undefined | vertical | up | down | faceUp | faceDown
deriving DecidableEq

def orientationToString : OrientationUp → String
  | .undefined => "undefined"
  | .normal => "normal"
  | .bottomUp => "bottom-up"
  | .leftUp => "left-up"
  | .rightUp => "right-up"

def tiltToString : Tilt → String
  | .undefined => "undefined"
  | .vertical => "vertical"
  | .up => "tilted-up"
  | .down => "tilted-down"
  | .faceUp => "face-up"
  | .faceDown => "face-down"

-- The flags of a PropertiesMask, and a mask as the set of its flags.
inductive Property where
  | hasAccelerometer | accelerometerOrientation | hasAmbientLight | lightLevel | hasCompass | compassHeading | hasProximity
  | proximityNear | accelerometerTilt
deriving DecidableEq

def properties : List Property :=
  [.hasAccelerometer,.accelerometerOrientation,.hasAmbientLight,.lightLevel,.hasCompass,.compassHeading,.hasProximity,
    .proximityNear,.accelerometerTilt]

abbrev PropertiesMask := Property → Bool

def maskOf (flags : List Property) : PropertiesMask := fun p => decide (p ∈ flags)

def noFlags : PropertiesMask := fun _ => false

def common (a b : PropertiesMask) : PropertiesMask := fun p => a p && b p

def either (a b : PropertiesMask) : PropertiesMask := fun p => a p || b p

def nonzero (mask : PropertiesMask) : Bool := properties.any mask

def propAll : PropertiesMask :=
  maskOf [.hasAccelerometer,.accelerometerOrientation,.hasAmbientLight,.lightLevel,.hasProximity,.proximityNear,.accelerometerTilt]

def propAllCompass : PropertiesMask := maskOf [.hasCompass,.compassHeading]

def maskForSensorType : DriverType → PropertiesMask
  | .accel => maskOf [.hasAccelerometer,.accelerometerOrientation,.accelerometerTilt]
  | .light => maskOf [.hasAmbientLight,.lightLevel]
  | .compass => maskOf [.hasCompass,.compassHeading]
  | .proximity => maskOf [.hasProximity,.proximityNear]

inductive Value (R : Type) where
  | boolean (b : Bool)
  | string (s : String)
  | double (r : R)
deriving DecidableEq

structure Signal (R : Type) where
  destination : String
  path : String
  interface : String
  props : List (String×Value R)
deriving DecidableEq

inductive DBusError where
  | failed | accessDenied | unknownMethod
deriving DecidableEq

inductive Reply where
  | value
  | error (code : DBusError) (message : String)
deriving DecidableEq

-- An opened sensor: its driver, the udev device it was opened for, and the last argument
-- of driver_set_polling.
structure Sensor where
  driver : Driver
  sysfsPath : String
  polled : Option Bool
deriving DecidableEq

-- The identifiers g_bus_watch_name_on_connection returns are above zero.
abbrev Watch := {id : Nat // 0 < id}

-- A hash table of clients: the bus name and the watch on it.
abbrev ClientTable := AList (fun _ : String => Watch)

def lookupWatch (ht : ClientTable) (sender : String) : Nat := ((ht.lookup sender).map Subtype.val).getD 0

-- A method call as it comes from the bus; refusal is the text of a failed authorization.
structure MethodCall where
  compass : Bool
  sender : String
  methodName : String
  refusal : Option String

-- The doubles are left abstract. Behind the fields of SensorData: the signals sent, the
-- method calls received (an invocation is a position in this list), the replies given,
-- and whether the main loop was quit.
structure SensorData (R : Type) where
  sensors : DriverType → Option Sensor
  clients : DriverType → ClientTable
  lastWatch : Nat
  delayed : DriverType → List Nat
  eventDelayed : DriverType → Bool
  previousOrientation : OrientationUp
  previousTilt : Tilt
  previousLevel : R
  usesLux : Bool
  previousHeading : R
  previousProxNear : Bool
  signals : List (Signal R)
  calls : List MethodCall
  replies : List (Nat×Reply)
  quit : Bool

-- What a driver hands to the callback; each callback reads the part of its own type.
structure Readings (R : Type) where
  accel : AccelReadings
  level : R
  usesLux : Bool
  heading : R
  isNear : Int

-- What does not change while the service runs: the --lazy option, the driver table of the
-- build, and orientation_calc and tilt_calc.
structure Config where
  lazy : Bool
  drivers : List Driver
  orientationCalc : OrientationUp → AccelReadings → OrientationUp
  tiltCalc : Tilt → AccelReadings → Tilt

section
variable {R : Type} [DecidableEq R]

def driverTypeExists (data : SensorData R) (t : DriverType) : Bool := (data.sensors t).isSome

-- The flags send_dbus_event_for_client adds for a device that is there.
def announced (data : SensorData R) (mask : PropertiesMask) : PropertiesMask :=
  either mask (fun p =>
    match p with
    | .accelerometerOrientation => mask .hasAccelerometer && driverTypeExists data .accel
    | .accelerometerTilt => mask .hasAccelerometer && driverTypeExists data .accel
    | .lightLevel => mask .hasAmbientLight && driverTypeExists data .light
    | .compassHeading => mask .hasCompass && driverTypeExists data .compass
    | .proximityNear => mask .hasProximity && driverTypeExists data .proximity
    | _ => false)

def forgetAccel (mask : PropertiesMask) (data : SensorData R) : SensorData R :=
  if mask .hasAccelerometer && !driverTypeExists data .accel then
    { data with previousOrientation := .undefined,previousTilt := .undefined }
  else data

def propValues (data : SensorData R) : Property → List (String×Value R)
  | .hasAccelerometer => [("HasAccelerometer",.boolean (driverTypeExists data .accel))]
  | .accelerometerOrientation => [("AccelerometerOrientation",.string (orientationToString data.previousOrientation))]
  | .accelerometerTilt => [("AccelerometerTilt",.string (tiltToString data.previousTilt))]
  | .hasAmbientLight => [("HasAmbientLight",.boolean (driverTypeExists data .light))]
  | .lightLevel =>
    [("LightLevelUnit",.string (if data.usesLux then "lux" else "vendor")),("LightLevel",.double data.previousLevel)]
  | .hasCompass => [("HasCompass",.boolean (driverTypeExists data .compass))]
  | .compassHeading => [("CompassHeading",.double data.previousHeading)]
  | .hasProximity => [("HasProximity",.boolean (driverTypeExists data .proximity))]
  | .proximityNear => [("ProximityNear",.boolean data.previousProxNear)]

-- The order in which the properties are added to a signal.
def propOrder : List Property :=
  [.hasAccelerometer,.accelerometerOrientation,.accelerometerTilt,.hasAmbientLight,.lightLevel,.hasCompass,.compassHeading,
    .hasProximity,.proximityNear]

def signalFor (destination : String) (mask : PropertiesMask) (data : SensorData R) : Signal R where
  destination := destination
  path := if nonzero (common (announced data mask) propAll) then "/net/hadess/SensorProxy" else "/net/hadess/SensorProxy/Compass"
  interface := if nonzero (common (announced data mask) propAll) then "net.hadess.SensorProxy" else "net.hadess.SensorProxy.Compass"
  props := (propOrder.filter (announced data mask)).flatMap (propValues (forgetAccel mask data))

def sendDbusEventForClient (destination : String) (mask : PropertiesMask) (data : SensorData R) : SensorData R :=
  { forgetAccel mask data with signals := data.signals++[signalFor destination mask data] }

-- The mask each client is interested in, merged over the tables it is in.
abbrev Interest := AList (fun _ : String => PropertiesMask)

def addInterest (m : PropertiesMask) (ht : Interest) (client : String) : Interest :=
  ht.insert client (either ((ht.lookup client).getD noFlags) m)

def interestOf (data : SensorData R) (mask : PropertiesMask) : Interest :=
  sensorTypes.foldl (fun ht t => (data.clients t).keys.foldl (addInterest (common mask (maskForSensorType t))) ht) ∅

def sendDbusEvent (mask : PropertiesMask) (data : SensorData R) : SensorData R :=
  (interestOf data mask).entries.foldl (fun data entry => sendDbusEventForClient entry.1 entry.2 data) data

def hasProperty : DriverType → Property
  | .accel => .hasAccelerometer
  | .light => .hasAmbientLight
  | .compass => .hasCompass
  | .proximity => .hasProximity

def sendDriverChangedDbusEvent (t : DriverType) (data : SensorData R) : SensorData R := sendDbusEvent (maskOf [hasProperty t]) data

def anySensorsLeft (data : SensorData R) : Bool := sensorTypes.any (driverTypeExists data)

def reply (invocation : Nat) (answer : Reply) (data : SensorData R) : SensorData R :=
  { data with replies := data.replies++[(invocation,answer)] }

-- g_ptr_array_steal, and one answer for every invocation in it.
def answerDelayed (t : DriverType) (answer : Reply) (data : SensorData R) : SensorData R :=
  { data with
    delayed := Function.update data.delayed t []
    replies := data.replies++(data.delayed t).map (fun invocation => (invocation,answer)) }

def maybeNotifySensorStartupFinished (t : DriverType) (data : SensorData R) : SensorData R :=
  let data := answerDelayed t .value data
  if data.eventDelayed t then
    let data := sendDriverChangedDbusEvent t data
    { data with eventDelayed := Function.update data.eventDelayed t false }
  else data

def orientationChanged (cfg : Config) (readings : Readings R) (data : SensorData R) : SensorData R :=
  let orientation := cfg.orientationCalc data.previousOrientation readings.accel
  if data.previousOrientation ≠ orientation then
    sendDbusEvent (maskOf [.accelerometerOrientation]) { data with previousOrientation := orientation }
  else data

def tiltChanged (cfg : Config) (readings : Readings R) (data : SensorData R) : SensorData R :=
  let tilt := cfg.tiltCalc data.previousTilt readings.accel
  if data.previousTilt ≠ tilt then sendDbusEvent (maskOf [.accelerometerTilt]) { data with previousTilt := tilt } else data

def accelChangedFunc (cfg : Config) (readings : Readings R) (data : SensorData R) : SensorData R :=
  maybeNotifySensorStartupFinished .accel (tiltChanged cfg readings (orientationChanged cfg readings data))

def lightChangedFunc (readings : Readings R) (data : SensorData R) : SensorData R :=
  let data := if data.previousLevel ≠ readings.level ∨ data.usesLux ≠ readings.usesLux then
      sendDbusEvent (maskOf [.lightLevel]) { data with previousLevel := readings.level,usesLux := readings.usesLux }
    else data
  maybeNotifySensorStartupFinished .light data

def compassChangedFunc (readings : Readings R) (data : SensorData R) : SensorData R :=
  let data := if data.previousHeading ≠ readings.heading then
      sendDbusEvent (maskOf [.compassHeading]) { data with previousHeading := readings.heading }
    else data
  maybeNotifySensorStartupFinished .compass data

def proximityChangedFunc (readings : Readings R) (data : SensorData R) : SensorData R :=
  let near : Bool := readings.isNear > 0
  let data := if data.previousProxNear ≠ near then
      sendDbusEvent (maskOf [.proximityNear]) { data with previousProxNear := near }
    else data
  maybeNotifySensorStartupFinished .proximity data

def changedFunc (cfg : Config) : DriverType → Readings R → SensorData R → SensorData R
  | .accel => accelChangedFunc cfg
  | .light => lightChangedFunc
  | .compass => compassChangedFunc
  | .proximity => proximityChangedFunc

def markPolled (t : DriverType) (state : Bool) (data : SensorData R) : SensorData R :=
  { data with sensors := Function.update data.sensors t ((data.sensors t).map (fun sensor => { sensor with polled := some state })) }

-- A driver may call back before driver_set_polling returns: during lists those readings.
def driverSetPolling (cfg : Config) (t : DriverType) (state : Bool) (during : List (Readings R)) (data : SensorData R) :
    SensorData R :=
  during.foldl (fun data readings => changedFunc cfg t readings data) (markPolled t state data)

-- A client leaves one table. Stopping a driver brings no reading.
def clientRelease (cfg : Config) (sender : String) (t : DriverType) (data : SensorData R) : SensorData R :=
  if lookupWatch (data.clients t) sender = 0 then data
  else
    let data := { data with clients := Function.update data.clients t ((data.clients t).erase sender) }
    if cfg.lazy && driverTypeExists data t && (data.clients t).keys.length = 0 then driverSetPolling cfg t false [] data else data

def clientVanishedCb (cfg : Config) (name : String) (data : SensorData R) : SensorData R :=
  sensorTypes.foldl (fun data t =>
    if lookupWatch (data.clients t) name > 0 then clientRelease cfg name t data else data) data

def addClient (sender : String) (t : DriverType) (data : SensorData R) : SensorData R :=
  { data with
    lastWatch := data.lastWatch+1
    clients := Function.update data.clients t ((data.clients t).insert sender ⟨data.lastWatch+1,Nat.succ_pos _⟩) }

def delay (t : DriverType) (invocation : Nat) (data : SensorData R) : SensorData R :=
  { data with delayed := Function.update data.delayed t (data.delayed t++[invocation]) }

def claimSensor (cfg : Config) (sender : String) (invocation : Nat) (t : DriverType) (during : List (Readings R))
    (data : SensorData R) : SensorData R :=
  if lookupWatch (data.clients t) sender > 0 then reply invocation .value data
  else
    let data := addClient sender t data
    if driverTypeExists data t then
      if (data.clients t).keys.length = 1 then driverSetPolling cfg t true during (delay t invocation data)
      else if (data.delayed t).length > 0 || data.eventDelayed t then delay t invocation data
      else reply invocation .value data
    else reply invocation .value data

def handleGenericMethodCall (cfg : Config) (call : MethodCall) (invocation : Nat) (t : DriverType) (during : List (Readings R))
    (data : SensorData R) : SensorData R :=
  if StdString.startsWith call.methodName "Claim" then claimSensor cfg call.sender invocation t during data
  else if StdString.startsWith call.methodName "Release" then
    reply invocation .value (clientRelease cfg call.sender t data)
  else data

-- The type a method name stands for, on the object of the compass or on the other one.
def methodType (compass : Bool) (methodName : String) : Option DriverType :=
  if compass then
    if methodName ∈ ["ClaimCompass","ReleaseCompass"] then some .compass else none
  else if methodName ∈ ["ClaimAccelerometer","ReleaseAccelerometer"] then some .accel
  else if methodName ∈ ["ClaimLight","ReleaseLight"] then some .light
  else if methodName ∈ ["ClaimProximity","ReleaseProximity"] then some .proximity
  else none

def objectPath (compass : Bool) : String := if compass then "/net/hadess/SensorProxy/Compass" else "/net/hadess/SensorProxy"

-- handle_method_call and handle_compass_method_call.
def handleMethodCall (cfg : Config) (call : MethodCall) (during : List (Readings R)) (data : SensorData R) : SensorData R :=
  let invocation := data.calls.length
  let data := { data with calls := data.calls++[call] }
  match methodType call.compass call.methodName with
  | none =>
    reply invocation (.error .unknownMethod
      ("Method '"++call.methodName++"' does not exist on object "++objectPath call.compass)) data
  | some t =>
    match call.refusal with
    | some text => reply invocation (.error .accessDenied ("Not Authorized: "++text)) data
    | none => handleGenericMethodCall cfg call invocation t during data

-- A device of udev: which drivers take it for theirs, and which of them can open it.
structure UdevDevice where
  sysfsPath : String
  discovers : Driver → Bool
  opens : Driver → Bool

def removeSensor (cfg : Config) (t : DriverType) (data : SensorData R) : SensorData R :=
  let data := driverSetPolling cfg t false [] data
  let data := { data with
    sensors := Function.update data.sensors t none
    clients := Function.update data.clients t ∅
    eventDelayed := Function.update data.eventDelayed t false }
  let data := answerDelayed t (.error .failed "Sensor removed while waiting for it to start up") data
  sendDriverChangedDbusEvent t data

def servedFrom (sysfsPath : String) (data : SensorData R) (t : DriverType) : Bool :=
  (data.sensors t).any (fun sensor => sensor.sysfsPath = sysfsPath)

def sensorRemoved (cfg : Config) (sysfsPath : String) (data : SensorData R) : SensorData R :=
  let data := sensorTypes.foldl (fun data t => if servedFrom sysfsPath data t then removeSensor cfg t data else data) data
  if anySensorsLeft data then data else { data with quit := true }

-- The first driver of an absent type that takes the device; none after it is tried.
def driverFor (cfg : Config) (device : UdevDevice) (data : SensorData R) : Option Driver :=
  cfg.drivers.find? (fun driver => !driverTypeExists data driver.type && device.discovers driver)

def openSensor (driver : Driver) (sysfsPath : String) (data : SensorData R) : SensorData R :=
  { data with sensors := Function.update data.sensors driver.type (some ⟨driver,sysfsPath,none⟩) }

def sensorAdded (cfg : Config) (device : UdevDevice) (during : List (Readings R)) (data : SensorData R) : SensorData R :=
  match driverFor cfg device data with
  | none => data
  | some driver =>
    if device.opens driver then
      let data := openSensor driver device.sysfsPath data
      if (data.clients driver.type).keys.length > 0 then
        driverSetPolling cfg driver.type true during
          { data with eventDelayed := Function.update data.eventDelayed driver.type true }
      else
        let data := sendDriverChangedDbusEvent driver.type data
        if cfg.lazy then data else driverSetPolling cfg driver.type true during data
    else data

-- find_sensors: each type goes to the first device and driver that fit.
def findSensors (cfg : Config) (devices : List UdevDevice) (t : DriverType) : Option (Driver×UdevDevice) :=
  (devices.flatMap (fun device => cfg.drivers.map (fun driver => (driver,device)))).find?
    (fun found => found.1.type = t && found.2.discovers found.1)

def startSensor (cfg : Config) (devices : List UdevDevice) (during : DriverType → List (Readings R)) (data : SensorData R)
    (t : DriverType) : SensorData R :=
  match findSensors cfg devices t with
  | none => data
  | some (driver,device) =>
    if device.opens driver then
      let data := openSensor driver device.sysfsPath data
      if cfg.lazy then data else driverSetPolling cfg t true (during t) data
    else data

def initialData [Zero R] : SensorData R where
  sensors := fun _ => none
  clients := fun _ => ∅
  lastWatch := 0
  delayed := fun _ => []
  eventDelayed := fun _ => false
  previousOrientation := .undefined
  previousTilt := .undefined
  previousLevel := 0
  usesLux := true
  previousHeading := 0
  previousProxNear := false
  signals := []
  calls := []
  replies := []
  quit := false

-- From main to the end of name_acquired_handler, with no client so far.
def nameAcquiredHandler [Zero R] (cfg : Config) (devices : List UdevDevice) (during : DriverType → List (Readings R)) : SensorData R :=
  let data := sensorTypes.foldl (startSensor cfg devices during) initialData
  if anySensorsLeft data then sendDbusEvent propAllCompass (sendDbusEvent propAll data)
  else { data with quit := true }

inductive Event (R : Type) where
  | call (call : MethodCall) (during : List (Readings R))
  | vanished (name : String)
  | remove (sysfsPath : String)
  | add (device : UdevDevice) (during : List (Readings R))
  | reading (t : DriverType) (readings : Readings R)

-- Readings come from opened devices only. Nothing is dispatched after the main loop ended.
def step (cfg : Config) (data : SensorData R) (event : Event R) : SensorData R :=
  if data.quit then data
  else
    match event with
    | .call call during => handleMethodCall cfg call during data
    | .vanished name => clientVanishedCb cfg name data
    | .remove sysfsPath => sensorRemoved cfg sysfsPath data
    | .add device during => sensorAdded cfg device during data
    | .reading t readings => if driverTypeExists data t then changedFunc cfg t readings data else data

end

end ChuwiMinibook.SensorProxy
