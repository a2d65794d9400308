import ChuwiMinibook.ZoneUpdate

namespace ChuwiMinibook

-- What csys_fs::read does to the int behind an attribute that exists.
inductive IntRead where
  | failed
  | empty
  | value (n : Int)
deriving DecidableEq

-- The trip_point_N attributes of a thermal zone; temp comes with the owner's
-- write bit of its mode.
structure TripAttributes where
  type : Option String
  temp : Option (Bool × IntRead)
  hyst : Option IntRead

-- cdevN_trip_point, and the value of the link cdevN where it can be read.
structure CdevAttributes where
  tripPoint : Option IntRead
  link : Option String

structure ZoneDirectory where
  trips : Nat → TripAttributes
  cdevs : Nat → CdevAttributes

-- cthd_sysfs_zone; asyncCapable is the flag read_trip_points sets on its sensor.
structure SysfsZone where
  zone : Zone
  tripPointCnt : Nat
  initialTripValues : List Int
  asyncCapable : Bool
deriving DecidableEq

namespace SysfsZone
open StdString

def maxTripPoints : Nat := 50
def maxCoolDevs : Nat := 50

-- A failed read ends the function that makes it.
def readInt (initial : Int) : IntRead → Option Int
  | .failed => none
  | .empty => some initial
  | .value n => some n

def tripTypeOf (type : Option String) : TripPointType :=
  if type = some "critical" then .critical
  else if type = some "hot" then .max
  else if type = some "active" then .active
  else if type = some "passive" then .passive
  else .invalidTripType

def readTemp (attributes : TripAttributes) : Option Int :=
  match attributes.temp with
  | none => some 0
  | some (_,read) => readInt 0 read

def readHyst (attributes : TripAttributes) : Option Int :=
  match attributes.hyst with
  | none => some 1
  | some read => (readInt 1 read).map (fun hyst => if hyst < 1000 ∨ hyst > 5000 then 1000 else hyst)

def writable (attributes : TripAttributes) : Bool := attributes.temp.any (·.1)

def int32Max : Nat := 2147483647

-- One pass of the loop of read_trip_points.
def readTripPoint (sensor : Option Sensor) (s : SysfsZone) (attributes : TripAttributes) : Option SysfsZone :=
  match readTemp attributes,readHyst attributes with
  | some temp,some hyst =>
    let tripType := tripTypeOf attributes.type
    let wrMode := sensor.isSome && writable attributes
    let s := {s with
      initialTripValues := s.initialTripValues ++ [if wrMode then temp else -1]
      asyncCapable := s.asyncCapable || wrMode}
    match sensor with
    | none => some s
    | some sensor =>
      if temp > 0 ∧ tripType ≠ .invalidTripType ∧ wrMode = false then
        let trip := TripPoint.new s.tripPointCnt tripType temp.toNat hyst.toNat s.zone.index sensor.index .sequential
        some {s with
          zone := {s.zone with tripPoints := s.zone.tripPoints ++ [trip]}
          tripPointCnt := s.tripPointCnt+1}
      else some s
  | _,_ => none

-- read_trip_points; none is its error.
def readTripPoints (sensor : Option Sensor) (dir : ZoneDirectory) (s : SysfsZone) : Option SysfsZone :=
  ((List.range maxTripPoints).foldlM (fun s i => readTripPoint sensor s (dir.trips i)) s).bind (fun s =>
    if s.tripPointCnt = 0 then
      sensor.map (fun sensor =>
        let trip := TripPoint.new 0 .passive int32Max 0 s.zone.index sensor.index .sequential
        {s with
          zone := {s.zone with tripPoints := s.zone.tripPoints ++ [trip]}
          tripPointCnt := s.tripPointCnt+1})
    else some s)

-- The number behind the first "cooling_device" of a link's value.
def deviceNumber (link : String) : Option Int :=
  (link.toList.tails.find? ("cooling_device".toList.isPrefixOf ·)).map (fun rest =>
    toInt ((decimal (String.ofList (rest.drop 14))).getD 0))

variable {σ : Type} (srt : StdSort) (devs : List (Cdev σ))

def thdGetCdevAtIndex (index : Int) : Option Nat := devs.findIdx? (fun c => c.index = index)

def typeOf (k : Nat) : String := (devs[k]?.map (·.typeStr)).getD ""

def indexBinding (k : Nat) (influence : Int) : TripPtCdev :=
  ⟨k,influence,0,0,false,0,TripPoint.invalidPid,Pid.new,false,0,0⟩

def thdTripPointAddCdevIndex (t : TripPoint) (index influence : Int) : TripPoint :=
  match thdGetCdevAtIndex devs index with
  | none => t
  | some k => TripPoint.tripCdevAdd srt (typeOf devs) t (indexBinding k influence)

-- One pass of the loop of read_cdev_trip_points.
def readCdevTripPoint (s : SysfsZone) (attributes : CdevAttributes) : Option SysfsZone :=
  match attributes.tripPoint with
  | none => some s
  | some read =>
    match readInt (-1) read with
    | none => none
    | some tripCnt =>
      match attributes.link.bind deviceNumber with
      | none => some s
      | some number =>
        if 0 ≤ tripCnt ∧ tripCnt < s.tripPointCnt then
          let trips := s.zone.tripPoints.modify tripCnt.toNat (fun t =>
            thdTripPointAddCdevIndex srt devs t number AdaptiveEngine.defaultInfluence)
          some {s with zone := {s.zone with tripPoints := trips}.zoneCdevSetBinded}
        else some s

def readCdevTripPoints (dir : ZoneDirectory) (s : SysfsZone) : Option SysfsZone :=
  (List.range maxCoolDevs).foldlM (fun s i => readCdevTripPoint srt devs s (dir.cdevs i)) s

end SysfsZone
end ChuwiMinibook
