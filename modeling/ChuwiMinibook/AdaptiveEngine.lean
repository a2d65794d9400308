import ChuwiMinibook.Engine
import ChuwiMinibook.Gddv

namespace ChuwiMinibook

-- cthd_engine_adaptive over its engine. The last two fields are no part of the
-- program: they record the targets executed and whether the EC trips have been
-- installed.
structure Adaptive (σ : Type) where
  engine : Engine σ
  gddv : Gddv
  policyActive : Bool
  fallbackId : Int
  int3400Path : String
  passiveDefOnly : Bool
  int3400Installed : Bool
  currentMatchedTarget : Int
  executed : List AdaptiveTarget
  ecInstalled : Bool
deriving DecidableEq

-- What the engine is linked with: the device classes, the library's sort, stof
-- scaled to millidegrees, and the debug file. A none is an uncaught exception.
structure Host (σ : Type) where
  methods : Cdev.Methods σ
  sort : StdSort
  setAdaptiveTarget : Dev σ → AdaptiveTarget → Option (Dev σ)
  stofMilli : String → Option Int
  debugMode : Bool

namespace AdaptiveEngine
open StdString Gddv
variable {σ : Type} (host : Host σ)

def minibookSen3TripTemp : Int := 50000
def minibookSocZone : String := "minibook_soc"
def minibookChargerZone : String := "minibook_charger"
def minibookSocTripTemp : Nat := 80000
def minibookChargerTripTemp : Nat := 60000
def defaultSampleTimeSec : Int := 5
def itmtHyst : Nat := 2000
def defaultInfluence : Int := 0

def toUnsigned (n : Int) : Nat := (n % 4294967296).toNat

def participant (path : String) : String := popBackAll '_' (afterLast '.' path)

-- A zone under its own name or under the other name of the processor.
def zoneFor (e : Engine σ) (name : String) : Option (Nat × String) :=
  match e.searchZone name with
  | some i => some (i,name)
  | none =>
    let name := if startsWith name "B0D4" then "TCPU" else name
    match e.searchZone name with
    | some i => some (i,name)
    | none => if startsWith name "TCPU" then (e.searchZone "B0D4").map (·,"B0D4") else none

def cdevFor (e : Engine σ) (name : String) : Option Nat :=
  match e.searchCdev name with
  | some k => some k
  | none => if startsWith name "TCPU" then e.searchCdev "B0D4" else none

-- A power limit in a table: MAX, MIN or a number of milliwatts.
def limitState (limit : String) : Int :=
  if limit.isEmpty then 0
  else if strncasecmp limit "MAX" 3 then tripPtInvalidTargetState
  else if strncasecmp limit "MIN" 3 then 0
  else toInt (streamInt limit*1000)

-- The common end of the install functions: a forced add_trip on a zone that is
-- then bound and active.
def install (srt : StdSort) (sensors : List Sensor) (z : Zone) (t : TripPoint) : Zone :=
  (Zone.addTrip srt sensors z t).zoneCdevSetBinded.setZoneActive

def passiveTrip (srt : StdSort) (typeOf : Nat → String) (z : Zone) (temp hyst : Nat) (sensor : Sensor) (cdev : Nat)
    (samplingPeriod : Int) (targetStateValid : Bool) (targetState : Int) (minMaxValid : Bool)
    (minState maxState : Int) : TripPoint :=
  TripPoint.thdTripPointAddCdev srt typeOf
    (TripPoint.new z.getTripCount .passive temp hyst z.index sensor.index .sequential)
    cdev defaultInfluence samplingPeriod targetStateValid targetState minMaxValid minState maxState

def psvTemp (zone : String) (temp : Int) : Int :=
  let temp := toInt (deciKelvinToCelsius temp*1000)
  if contains zone "SEN3" ∧ temp > minibookSen3TripTemp then minibookSen3TripTemp else temp

def installPassive (e : Engine σ) (psv : Psv) : Engine σ :=
  match zoneFor e (participant psv.target) with
  | none => e
  | some (i,zone) =>
    match cdevFor e (participant psv.source) with
    | none => e
    | some k =>
      match e.searchSensor zone with
      | none => e
      | some sensor =>
        let state := limitState psv.limit
        {e with zones := e.zones.modify i (fun z => install host.sort e.sensors z
          (passiveTrip host.sort e.cdevType z (toUnsigned (psvTemp zone psv.temp)) 0 sensor k
            (psv.samplePeriod.tdiv 10) (state ≠ 0) state false 0 0))}

def installItmt (e : Engine σ) (entry : ItmtEntry) : Engine σ :=
  match zoneFor e (participant entry.target) with
  | none => e
  | some (i,zone) =>
    match e.searchCdev "rapl_controller_mmio" with
    | none => e
    | some k =>
      match e.searchSensor zone with
      | none => e
      | some sensor =>
        -- min and max trade places: min_state is where no cooling is active
        {e with zones := e.zones.modify i (fun z => install host.sort e.sensors z
          (passiveTrip host.sort e.cdevType z (toUnsigned (toInt ((entry.tripPoint - 2732)*100))) itmtHyst sensor k
            defaultSampleTimeSec false 0 true (limitState entry.pl1Max) (limitState entry.pl1Min)))}

def isTargetValid (t : TripPoint) : Option Int :=
  (t.cdevs.find? (·.targetStateValid)).map (·.targetState)

def setFirstTargetInvalid (t : TripPoint) : TripPoint :=
  {t with cdevs := t.cdevs.modify 0 (fun b => {b with targetStateValid := false})}

def setFirstTarget (t : TripPoint) (state : Int) : TripPoint :=
  {t with cdevs := t.cdevs.modify 0 (fun b => {b with targetStateValid := true,targetState := state})}

def oneDegreeUp (t : TripPoint) : TripPoint := {t with temp := (t.temp + 1000) % 4294967296}

def getFirstCdev (t : TripPoint) : Option Nat := t.cdevs.head?.map (·.cdev)

-- The body of the consolidation loop for a trip and the one behind it.
def consolidateTrip (minState : Nat → Int) (t : TripPoint) (next : Option TripPoint) : TripPoint :=
  match isTargetValid t with
  | none => t
  | some state =>
    if state ≠ tripPtInvalidTargetState then t
    else
      match next with
      | none => oneDegreeUp (setFirstTargetInvalid t)
      | some next =>
        match getFirstCdev next with
        | none => oneDegreeUp (setFirstTargetInvalid t)
        | some k =>
          match isTargetValid next with
          | some nextState =>
            if t.sensorId = next.sensorId ∧ getFirstCdev t = some k then
              {setFirstTarget t ((toInt (minState k + nextState)).tdiv 2) with
                temp := (next.temp + t.temp) % 4294967296 / 2}
            else oneDegreeUp (setFirstTargetInvalid t)
          | none => oneDegreeUp (setFirstTargetInvalid t)

def consolidateTrips (minState : Nat → Int) : List TripPoint → List TripPoint
  | [] => []
  | t::rest => consolidateTrip minState t rest.head? :: consolidateTrips minState rest

-- The trip a degree above a single one with a target.
def secondTrip (srt : StdSort) (typeOf : Nat → String) (z : Zone) (t : TripPoint) (k : Nat) : TripPoint :=
  TripPoint.thdTripPointAddCdev srt typeOf
    (TripPoint.new 1 .passive ((t.temp + 1000) % 4294967296) 0 z.index t.sensorId .sequential)
    k defaultInfluence 0 false tripPtInvalidTargetState false 0 0

def consolidateZone (srt : StdSort) (typeOf : Nat → String) (minState : Nat → Int) (sensors : List Sensor)
    (z : Zone) : Zone :=
  match z.tripPoints with
  | [t,_] =>
    match isTargetValid t,getFirstCdev t with
    | some _,some k => Zone.addTrip srt sensors z (secondTrip srt typeOf z t k)
    | _,_ => {z with tripPoints := consolidateTrips minState z.tripPoints}
  | trips => {z with tripPoints := consolidateTrips minState trips}

def minStateOf (e : Engine σ) (k : Nat) : Int := (e.cdevs[k]?.map (·.dev.minState)).getD 0

def psvtConsolidate (e : Engine σ) : Engine σ :=
  {e with zones := e.zones.map (consolidateZone host.sort e.cdevType (minStateOf e) e.sensors)}

-- The RAPL device the EC trips are bound to.
def raplCdev (e : Engine σ) : Option Nat :=
  (e.searchCdev "rapl_controller_mmio").or (e.searchCdev "rapl_controller")

def ecTrip (srt : StdSort) (typeOf : Nat → String) (sensor : Sensor) (k : Nat) (temp : Nat) (z : Zone) : TripPoint :=
  passiveTrip srt typeOf z temp 0 sensor k defaultSampleTimeSec false 0 false 0 0

def ecZone (e : Engine σ) (sensor : Sensor) (k : Nat) (temp : Nat) (z : Zone) : Zone :=
  let add (temp : Nat) (z : Zone) := Zone.addTrip host.sort e.sensors z
    (ecTrip host.sort e.cdevType sensor k temp z)
  (add (temp+1000) (add temp z)).zoneCdevSetBinded.setZoneActive

def installEcZone (k : Nat) (e : Engine σ) (zone : String × Nat) : Engine σ :=
  match e.searchZone zone.1 with
  | none => e
  | some i =>
    match e.searchSensor zone.1 with
    | none => e
    | some sensor => {e with zones := e.zones.modify i (ecZone host e sensor k zone.2)}

def ecZones : List (String × Nat) :=
  [(minibookSocZone,minibookSocTripTemp),(minibookChargerZone,minibookChargerTripTemp)]

def installMinibookEcZones (e : Engine σ) : Engine σ :=
  match raplCdev e with
  | none => e
  | some k => ecZones.foldl (installEcZone host k) e

-- The zones that plot power are kept by a policy switch.
def plotsPower (z : Zone) : Bool := z.typeStr == "rapl_pkg_power" || z.typeStr == "power_floor"

-- zone_reset(1), trip_delete_all and set_zone_inactive on every zone not kept.
def clearZones (keep : Zone → Bool) (now : Int) (e : Engine σ) : Engine σ :=
  {e with
    zones := e.zones.map (fun z => if keep z then z else z.tripDeleteAll.setZoneInactive)
    cdevs := (e.zones.filter (!keep ·)).foldl
      (fun devs z => Zone.zoneReset host.methods host.sort true now z devs) e.cdevs}

-- set_itmt_target; none is THD_ERROR.
def setItmtTarget (now : Int) (g : Gddv) (installed : Bool) (e : Engine σ) (t : AdaptiveTarget) : Option (Engine σ) :=
  (findItmt g t.argument).map (fun itmt =>
    let e := if installed then e else clearZones host (fun z => host.debugMode && plotsPower z) now e
    itmt.itmtEntries.foldl (installItmt host) e)

def updateFirstPassive (temp : Nat) (z : Zone) : Zone :=
  match z.tripPoints.findIdx? (fun t => t.type == .passive) with
  | none => z
  | some j => {z with tripPoints := z.tripPoints.modify j (fun t => {t with temp := temp})}

-- set_trip: the first passive trip of the zone; none is an exception of stof.
def setTrip (e : Engine σ) (t : AdaptiveTarget) : Option (Engine σ) :=
  (host.stofMilli t.argument).map (fun temp =>
    match e.searchZone (participant t.participant) with
    | none => e
    | some i => {e with zones := e.zones.modify i (updateFirstPassive (toUnsigned temp))})

-- What follows the tables in set_int3400_target; none also when no zone is
-- active and the daemon exits.
def finishInt3400 (a : Adaptive σ) (t : AdaptiveTarget) : Option (Adaptive σ) :=
  let e := installMinibookEcZones host (psvtConsolidate host a.engine)
  if e.zones.any (·.zoneActive) then
    (if t.code = "PSV" then setTrip host e t else some e).map (fun e => {a with engine := e,ecInstalled := true})
  else none

def setInt3400Target (now : Int) (a : Adaptive σ) (t : AdaptiveTarget) : Option (Adaptive σ) :=
  let a := if t.code = "ITMT" ∨ t.code = "ITMT3" then
      match setItmtTarget host now a.gddv a.int3400Installed a.engine t with
      | none => a
      | some e => {a with engine := e,int3400Installed := true}
    else a
  if t.code = "PSVT" then
    match findPsvt a.gddv t.argument with
    | none => some a
    | some psvt =>
      let e := if a.int3400Installed then a.engine else clearZones host plotsPower now a.engine
      finishInt3400 host {a with engine := psvt.psvs.foldl (installPassive host) e,int3400Installed := true} t
  else finishInt3400 host a t

def installPassiveDefault (now : Int) (a : Adaptive σ) : Adaptive σ :=
  let e := clearZones host (fun _ => false) now a.engine
  match findDefPsvt a.gddv with
  | none => {a with engine := e}
  | some psvt =>
    let e := installMinibookEcZones host (psvtConsolidate host (psvt.psvs.foldl (installPassive host) e))
    {a with engine := e,ecInstalled := true}

def executeTarget (now : Int) (a : Adaptive σ) (t : AdaptiveTarget) : Option (Adaptive σ) :=
  let a := {a with executed := a.executed ++ [t]}
  match cdevFor a.engine (afterLast '.' t.participant) with
  | none =>
    if t.participant = a.int3400Path ∨ t.code = "PSVT" then setInt3400Target host now a t else some a
  | some k =>
    if t.code = "PSVT" then setInt3400Target host now a t
    else
      match stoi t.argument,a.engine.cdevs[k]? with
      | some _,some c => (host.setAdaptiveTarget c.dev t).map (fun dev =>
          {a with engine := {a.engine with cdevs := a.engine.cdevs.set k {c with dev := dev}}})
      | _,_ => some a

def executeTargets (now : Int) (a : Adaptive σ) (targets : List AdaptiveTarget) : Option (Adaptive σ) :=
  targets.foldlM (executeTarget host now) a

-- A target number is an int; the table holds 64-bit identifiers.
def targetsOf (g : Gddv) (target : Int) : List AdaptiveTarget :=
  g.targets.filter (fun t => (t.targetId : Int) = target % 18446744073709551616)

def execFallbackTarget (now : Int) (a : Adaptive σ) (target : Int) : Option (Adaptive σ) :=
  executeTargets host now {a with int3400Installed := false} (targetsOf a.gddv target)

def applyPbat (e : Engine σ) (p : PbatEntry) : Option (Engine σ) :=
  match e.searchCdev (if contains p.participant "TCPU" then "rapl_controller_mmio" else p.participant) with
  | none => some e
  | some k =>
    match e.cdevs[k]? with
    | none => some e
    | some c => (host.setAdaptiveTarget c.dev ⟨0,"","",0,p.code,p.argument⟩).map (fun dev =>
        {e with cdevs := e.cdevs.set k {c with dev := dev}})

def updatePowerPolicies (env : Surroundings) (a : Adaptive σ) : Option (Adaptive σ) :=
  match evaluatePbctConditions env a.gddv with
  | (g,none) => some {a with gddv := g}
  | (g,some target) =>
    ((g.pbats.filter (fun p => p.targetId = target)).foldlM (applyPbat host) a.engine).map
      (fun e => {a with gddv := g,engine := e})

-- The end of update_engine_state, once a new target is known.
def switchTarget (env : Surroundings) (a : Adaptive σ) (target : Int) : Option (Adaptive σ) :=
  let a := {a with int3400Installed := false}
  (if target > 0 then (executeTargets host env.now a (targetsOf a.gddv target)).map (fun a => {a with policyActive := true})
    else some a).map (fun a => if a.int3400Installed then a else installPassiveDefault host env.now a)

-- The target an update finds, with the conditions it has evaluated: with a
-- fallback chosen at start-up none is evaluated.
def computedTarget (env : Surroundings) (a : Adaptive σ) : Gddv × Int :=
  if a.fallbackId < 0 then evaluateConditions env a.gddv else (a.gddv,-1)

def updateEngineState (env : Surroundings) (a : Adaptive σ) : Option (Adaptive σ) :=
  if a.passiveDefOnly then some a
  else
    let target := (computedTarget env a).2
    let a := {a with gddv := (computedTarget env a).1}
    if a.currentMatchedTarget = target then some a
    else
      let a := {a with currentMatchedTarget := target}
      if target = -1 ∧ a.fallbackId ≥ 0 ∧ a.policyActive = false then
        match a.gddv.targets[a.fallbackId.toNat]? with
        | none => none
        | some t => (execFallbackTarget host env.now a (toInt t.targetId)).map (fun a => {a with policyActive := true})
      else switchTarget host env a target

-- The last part of thd_engine_start: the default tables unless a set matches.
def finishStart (env : Surroundings) (a : Adaptive σ) : Adaptive σ :=
  let (g,target) := evaluateConditions env a.gddv
  let a := {a with gddv := g}
  if target = -1 then installPassiveDefault host env.now a else a

-- thd_engine_start: none is THD_ERROR. The base class's start leaves this state
-- as it is.
def thdEngineStart (env : Surroundings) (a : Adaptive σ) : Option (Adaptive σ) :=
  if a.passiveDefOnly then some (installPassiveDefault host env.now a)
  else if verifyConditions env a.gddv then some (finishStart host env a)
  else
    let (g,target) := evaluateConditions env a.gddv
    let a := {a with gddv := g}
    if target ≠ -1 then some (finishStart host env a)
    else if findAgressiveTarget g ≥ 0 then some (finishStart host env {a with fallbackId := findAgressiveTarget g})
    else if (findDefPsvt g).isSome then some (finishStart host env (installPassiveDefault host env.now a))
    else none

end AdaptiveEngine
end ChuwiMinibook
