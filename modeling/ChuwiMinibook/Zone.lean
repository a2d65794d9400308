import ChuwiMinibook.TripPoint

namespace ChuwiMinibook

inductive SensorRelate where
  | independent | corelated
deriving DecidableEq

-- cthd_zone; a bound sensor is its position in the engine's vector.
structure Zone where
  index : Int
  typeStr : String
  tripPoints : List TripPoint
  zoneActive : Bool
  zoneCdevBinded : Bool
  sensors : List Nat
  sensorRel : SensorRelate
deriving DecidableEq

-- One read_temperature and the clock of the trip checks it leads to.
structure Sample where
  now : Int
  temp : Nat
deriving DecidableEq

namespace Zone
variable {σ : Type}

def setZoneActive (z : Zone) : Zone := {z with zoneActive := true}
def setZoneInactive (z : Zone) : Zone := {z with zoneActive := false}
def zoneCdevSetBinded (z : Zone) : Zone := {z with zoneCdevBinded := true}
def getTripCount (z : Zone) : Nat := z.tripPoints.length
def tripDeleteAll (z : Zone) : Zone := {z with tripPoints := []}

def defAsyncTripOffset : Nat := 5000
def defAsyncTripOffsetPct : Nat := 10

def tripSort (a b : TripPoint) : Bool := decide (a.temp < b.temp)

-- The unsigned subtraction wraps around below an offset's temperature.
def pollingTemp (lowest : Nat) : Nat :=
  let offset := lowest*defAsyncTripOffsetPct % 4294967296 / 100
  let offset := if offset < defAsyncTripOffset then defAsyncTripOffset else offset
  (lowest + 4294967296 - offset) % 4294967296

def pushPolling (index : Int) (temp : Nat) (sensorIndex : Int) (trips : List TripPoint) : List TripPoint :=
  trips ++ [TripPoint.new trips.length .polling temp 0 index sensorIndex .parallel]

-- sort_and_update_poll_trip: one polling trip is erased, one for each sensor is
-- appended behind the sorted rest.
def sortAndUpdatePollTrip (srt : StdSort) (sensors : List Sensor) (z : Zone) : Zone :=
  let trips := z.tripPoints.eraseP (fun t => t.type = .polling)
  match srt.sort tripSort trips with
  | [] => {z with tripPoints := trips}
  | lowest::rest => {z with tripPoints := z.sensors.foldl (fun trips s =>
      match sensors[s]? with
      | none => trips
      | some sensor => pushPolling z.index (pollingTemp lowest.temp) sensor.index trips) (lowest::rest)}

-- add_trip with force set, as the adaptive engine calls it.
def addTrip (srt : StdSort) (sensors : List Sensor) (z : Zone) (t : TripPoint) : Zone :=
  sortAndUpdatePollTrip srt sensors {z with tripPoints := z.tripPoints ++ [t]}

variable (m : Cdev.Methods σ) (srt : StdSort)

def zoneReset (force : Bool) (now : Int) (z : Zone) (devs : List (Cdev σ)) : List (Cdev σ) :=
  if z.zoneActive then
    z.tripPoints.reverse.foldl (fun devs t => TripPoint.thdTripCdevStateReset m srt force t now devs) devs
  else devs

structure Reading (σ : Type) where
  trips : List TripPoint
  cdevs : List (Cdev σ)
  actions : List Action
  reset : Bool

-- The walk of thermal_zone_temp_change; it ends at the first reset.
def checkTrips (ignoreCritical : Bool) (sensors : List Sensor) (sample : Sample) (id pref : Int) :
    List TripPoint → List (Cdev σ) → Reading σ
  | [],devs => ⟨[],devs,[],false⟩
  | t::rest,devs =>
    let checked := TripPoint.thdTripPointCheck m srt ignoreCritical sensors t devs sample.now id sample.temp pref
    if checked.reset then ⟨checked.trip::rest,checked.cdevs,checked.actions,true⟩
    else
      let later := checkTrips ignoreCritical sensors sample id pref rest checked.cdevs
      ⟨checked.trip::later.trips,later.cdevs,checked.actions ++ later.actions,later.reset⟩

structure Polled (σ : Type) where
  zone : Zone
  cdevs : List (Cdev σ)
  actions : List Action

def thermalZoneTempChange (ignoreCritical : Bool) (sensors : List Sensor) (pref : Int) (z : Zone)
    (devs : List (Cdev σ)) (sample : Sample) (id : Int) : Polled σ :=
  let reading := checkTrips m srt ignoreCritical sensors sample id pref z.tripPoints devs
  let z := {z with tripPoints := reading.trips}
  ⟨z,if reading.reset then zoneReset m srt false sample.now z reading.cdevs else reading.cdevs,reading.actions⟩

-- The independent sensors of a zone, each checked with its own reading.
def readSensors (ignoreCritical : Bool) (sensors : List Sensor) (pref : Int) (samples : Nat → Sample) :
    List Nat → Nat → Polled σ → Polled σ
  | [],_,polled => polled
  | s::rest,place,polled =>
    let polled := match sensors[s]? with
      | none => polled
      | some sensor =>
        let next := thermalZoneTempChange m srt ignoreCritical sensors pref polled.zone polled.cdevs
          (samples place) sensor.index
        ⟨next.zone,next.cdevs,polled.actions ++ next.actions⟩
    readSensors ignoreCritical sensors pref samples rest (place+1) polled

def hottest (samples : Nat → Sample) (count : Nat) : Nat :=
  (List.range count).foldl (fun high place => max high (samples place).temp) 0

-- read_zone_temp; samples gives the reading of each bound sensor.
def readZoneTemp (ignoreCritical : Bool) (sensors : List Sensor) (pref : Int) (z : Zone)
    (devs : List (Cdev σ)) (samples : Nat → Sample) : Polled σ :=
  if z.zoneActive then
    match z.sensorRel with
    | .independent => readSensors m srt ignoreCritical sensors pref samples z.sensors 0 ⟨z,devs,[]⟩
    | .corelated =>
      let zoneTemp := hottest samples z.sensors.length
      match z.sensors.head?.bind (sensors[·]?) with
      | some sensor => if zoneTemp ≠ 0 then
          thermalZoneTempChange m srt ignoreCritical sensors pref z devs ⟨(samples 0).now,zoneTemp⟩ sensor.index
        else ⟨z,devs,[]⟩
      | none => ⟨z,devs,[]⟩
  else ⟨z,devs,[]⟩

-- update_zone_preference: every sensor once at 0, then once at its reading.
def updateZonePreference (ignoreCritical : Bool) (sensors : List Sensor) (pref : Int) (z : Zone)
    (devs : List (Cdev σ)) (samples : Nat → Sample) : Polled σ :=
  if z.zoneActive then
    readSensors m srt ignoreCritical sensors pref samples z.sensors 0
      (readSensors m srt ignoreCritical sensors pref (fun place => ⟨(samples place).now,0⟩) z.sensors 0 ⟨z,devs,[]⟩)
  else ⟨z,devs,[]⟩

end Zone
end ChuwiMinibook
