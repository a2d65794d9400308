import ChuwiMinibook.StdString
import ChuwiMinibook.Pid

namespace ChuwiMinibook

-- The tables of the firmware's data vault, with the fields the daemon reads.
structure AdaptiveTarget where
  targetId : Nat
  name : String
  participant : String
  domain : Nat
  code : String
  argument : String
deriving DecidableEq

structure Psv where
  source : String
  target : String
  priority : Int
  samplePeriod : Int
  temp : Int
  domain : Int
  controlKnob : Int
  limit : String
  stepSize : Int
  limitCoeff : Int
  unlimitCoeff : Int
deriving DecidableEq

structure Psvt where
  name : String
  psvs : List Psv
deriving DecidableEq

structure ItmtEntry where
  target : String
  tripPoint : Int
  pl1Min : String
  pl1Max : String
deriving DecidableEq

structure Itmt where
  version : Int
  name : String
  itmtEntries : List ItmtEntry
deriving DecidableEq

structure Condition where
  condition : Nat
  device : String
  comparison : Nat
  argument : Int
  operation : Nat
  timeComparison : Nat
  time : Int
  target : Int
  stateEntryTime : Int
deriving DecidableEq

structure PbatEntry where
  targetId : Nat
  name : String
  participant : String
  domain : Nat
  code : String
  argument : String
deriving DecidableEq

structure PbctEntry where
  target : Nat
  conditions : List Condition
deriving DecidableEq

structure Gddv where
  targets : List AdaptiveTarget
  conditions : List (List Condition)
  psvts : List Psvt
  itmts : List Itmt
  idsps : List String
  pbats : List PbatEntry
  pbcts : List PbctEntry
  currentTargetMatched : Int
deriving DecidableEq

-- What the conditions are evaluated against.
structure Surroundings where
  now : Int
  odvp : Nat → Option Int
  sensor : String → Option Int
  lidClosed : Option Bool
  tabletMode : Option Bool
  onBattery : Option Bool
  batteryPercentage : Option Int
  powerSlider : Int

namespace Gddv
open StdString

def deciKelvinToCelsius (t : Int) : Int :=
  let tenths := toInt (t - 2732)
  if tenths ≥ 0 then (toInt (tenths + 5)).tdiv 10 else (toInt (tenths - 5)).tdiv 10

-- The values of adaptive_condition that the code compares with.
def condDefault : Nat := 1
def condMotion : Nat := 4
def condWorkload : Nat := 6
def condPowerSource : Nat := 8
def condAggregatePowerPercentage : Nat := 9
def condLidState : Nat := 10
def condPlatformType : Nat := 11
def condTemperature : Nat := 17
def condOem0 : Nat := 19
def condOem5 : Nat := 24
def condTemperatureWithoutHysteresis : Nat := 48
def condPowerSlider : Nat := 56
def condOsType : Nat := 86

def isOem (condition : Nat) : Bool :=
  decide (condOem0 ≤ condition ∧ condition ≤ condOem5) || decide (4096 ≤ condition ∧ condition < 65536)

def isTemperature (condition : Nat) : Bool :=
  condition == condTemperature || condition == condTemperatureWithoutHysteresis || condition == 0

-- verify_condition: true is its success.
def verifyCondition (env : Surroundings) (c : Condition) : Bool :=
  isOem c.condition || c.condition == condDefault || isTemperature c.condition ||
    (c.condition == condLidState && env.lidClosed.isSome) ||
    (c.condition == condPowerSource && env.onBattery.isSome) ||
    c.condition == condWorkload || c.condition == condPlatformType ||
    c.condition == condPowerSlider || c.condition == condOsType

def verifyConditions (env : Surroundings) (g : Gddv) : Bool :=
  g.conditions.all (fun set => set.all (verifyCondition env))

def compareCondition (c : Condition) (value : Int) : Bool :=
  match c.comparison with
  | 1 => value = c.argument
  | 2 => value ≤ c.argument
  | 3 => value ≥ c.argument
  | 4 => value ≠ c.argument
  | 5 => value > c.argument
  | 6 => value ≥ c.argument
  | _ => false

def compareTime (now : Int) (c : Condition) : Bool :=
  let elapsed := toInt (now - c.stateEntryTime)
  match c.timeComparison with
  | 1 => elapsed = c.time
  | 2 => elapsed ≤ c.time
  | 3 => elapsed ≥ c.time
  | 4 => elapsed ≠ c.time
  | _ => false

def evaluateOemCondition (env : Surroundings) (c : Condition) : Bool :=
  let oem := if condOem0 ≤ c.condition ∧ c.condition ≤ condOem5 then c.condition - condOem0
    else c.condition - 4096 + 6
  match env.odvp oem with
  | none => false
  | some value => compareCondition c value

-- Conditions are in decikelvin, temperatures in millicelsius.
def evaluateTemperatureCondition (env : Surroundings) (c : Condition) : Bool :=
  match env.sensor (afterLast '.' c.device) with
  | none => false
  | some value => compareCondition c (value.tdiv 100 + 2732)

def evaluateLidCondition (env : Surroundings) (c : Condition) : Bool :=
  compareCondition c (match env.lidClosed with | some false => 1 | _ => 0)

def evaluateAcCondition (env : Surroundings) (c : Condition) : Bool :=
  compareCondition c (match env.onBattery with | some true => 1 | _ => 0)

def evaluatePlatformTypeCondition (env : Surroundings) (c : Condition) : Bool :=
  compareCondition c (match env.tabletMode with | some true => 2 | _ => 1)

-- "Battery% <= 0 is always true (GDDV workaround)."
def evaluateAggregatePower (env : Surroundings) (c : Condition) : Bool :=
  match env.onBattery with
  | none => false
  | some battery => if c.comparison = 2 ∧ c.argument = 0 then true
    else compareCondition c (env.batteryPercentage.getD (if battery then 50 else 100))

-- The part of evaluate_condition in front of its time handling.
def conditionHolds (env : Surroundings) (c : Condition) : Bool :=
  if c.condition = condOsType then compareCondition c 3
  else if isOem c.condition then evaluateOemCondition env c
  else if isTemperature c.condition then evaluateTemperatureCondition env c
  else if c.condition = condLidState then evaluateLidCondition env c
  else if c.condition = condPowerSource then evaluateAcCondition env c
  else if c.condition = condAggregatePowerPercentage then evaluateAggregatePower env c
  else if c.condition = condWorkload then compareCondition c 3
  else if c.condition = condPlatformType then evaluatePlatformTypeCondition env c
  else if c.condition = condPowerSlider then compareCondition c env.powerSlider
  else if c.condition = condMotion then c.argument = 0
  else false

def evaluateCondition (env : Surroundings) (matched : Int) (c : Condition) : Condition × Bool :=
  if c.condition = condDefault then (c,true)
  else if conditionHolds env c then
    if c.target = matched then (c,true)
    else if c.time = 0 then (c,true)
    else if c.stateEntryTime = 0 then ({c with stateEntryTime := env.now},false)
    else if compareTime env.now c then ({c with stateEntryTime := 0},true)
    else (c,false)
  else ({c with stateEntryTime := 0},false)

-- The walk ends at the first condition that does not hold.
def evaluateConditionSet (env : Surroundings) (matched : Int) : List Condition → List Condition × Bool
  | [] => ([],true)
  | c::rest =>
    match evaluateCondition env matched c with
    | (c,false) => (c::rest,false)
    | (c,true) =>
      let (rest,ok) := evaluateConditionSet env matched rest
      (c::rest,ok)

def evaluateSets (env : Surroundings) (matched : Int) :
    List (List Condition) → List (List Condition) × Option (List Condition)
  | [] => ([],none)
  | set::rest =>
    match evaluateConditionSet env matched set with
    | (set,true) => (set::rest,some set)
    | (set,false) =>
      let (rest,found) := evaluateSets env matched rest
      (set::rest,found)

-- evaluate_conditions: the target of the first matching set, else -1.
def evaluateConditions (env : Surroundings) (g : Gddv) : Gddv × Int :=
  match evaluateSets env g.currentTargetMatched g.conditions with
  | (conditions,none) => ({g with conditions := conditions},-1)
  | (conditions,some set) =>
    let target := (set.head?.map (·.target)).getD 0
    ({g with conditions := conditions,currentTargetMatched := target},target)

def evaluatePbcts (env : Surroundings) (matched : Int) : List PbctEntry → List PbctEntry × Option Nat
  | [] => ([],none)
  | entry::rest =>
    match evaluateConditionSet env matched entry.conditions with
    | (set,true) => ({entry with conditions := set}::rest,some entry.target)
    | (set,false) =>
      let (rest,found) := evaluatePbcts env matched rest
      ({entry with conditions := set}::rest,found)

def evaluatePbctConditions (env : Surroundings) (g : Gddv) : Gddv × Option Nat :=
  let (pbcts,found) := evaluatePbcts env g.currentTargetMatched g.pbcts
  ({g with pbcts := pbcts},found)

def sameName (a b : String) : Bool := decide (a.toList.map Char.toLower = b.toList.map Char.toLower)

def findPsvt (g : Gddv) (name : String) : Option Psvt := g.psvts.find? (fun p => sameName p.name name)

def findDefPsvt (g : Gddv) : Option Psvt :=
  (g.psvts.find? (fun p => p.name == "generic_os")).or (g.psvts.find? (fun p => p.name == "IETM.D0"))

def searchIdsp (g : Gddv) (name : String) : Bool :=
  g.idsps.any (fun idsp => decide (idsp.toList.take 36 = name.toList))

-- A table is skipped when the platform does not list the policy it belongs to.
def findItmt (g : Gddv) (name : String) : Option Itmt :=
  g.itmts.find? (fun t =>
    (if t.version = 3 then searchIdsp g "4215267F-F429-4776-9D84-D6C5992848A4"
      else if t.version < 3 then searchIdsp g "6BD40D2D-98AA-A44B-1A92-D22BDE3117F1"
      else true) && sameName t.name name)

-- find_agressive_target: the position of the entry with the highest PL1.
def findAgressiveFrom : List AdaptiveTarget → Nat → Int → Int → Int
  | [],_,_,best => best
  | t::rest,place,high,best =>
    if t.code ≠ "PL1MAX" ∧ t.code ≠ "PL1PowerLimit" then findAgressiveFrom rest (place+1) high best
    else
      match stoi t.argument with
      | none => findAgressiveFrom rest (place+1) high best
      | some argument =>
        if high < argument then findAgressiveFrom rest (place+1) argument place
        else findAgressiveFrom rest (place+1) high best

def findAgressiveTarget (g : Gddv) : Int := findAgressiveFrom g.targets 0 0 (-1)

end Gddv
end ChuwiMinibook
