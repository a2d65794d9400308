import ChuwiMinibook.AdaptiveEngine
import ChuwiMinibook.Machine
import Mathlib.Algebra.Order.Floor.Ring
import Mathlib.Data.Rat.Floor
import Mathlib.Algebra.BigOperators.Group.List.Basic

namespace ChuwiMinibook

-- link_sensor_t: the sensor it reads, none for a constant, and its running
-- average. Doubles are rationals.
structure LinkSensor where
  sensor : Option Nat
  coeff : Rat
  offset : Rat
  prevAvg : Rat
  powerSensor : Bool
deriving DecidableEq

structure PollingTableEntry where
  virtualTemp : Int
  samplePeriod : Int
deriving DecidableEq

structure VirtualSensor where
  linkSensors : List LinkSensor
  multiplier : Rat
  offset : Rat
  polling : Bool
  lastTemp : Int
  pollingPeriod : Int
  pollingTable : List PollingTableEntry
deriving DecidableEq

namespace VirtualSensor
open AdaptiveEngine Machine

-- std::round, and the cast of what it returns.
def stdRound (x : Rat) : Int := if 0 ≤ x then ⌊x+1/2⌋ else -⌊-x+1/2⌋

def roundedInt (x : Rat) : Int := Pid.ofDouble (stdRound x)

-- What the linked sensors return in one update.
abbrev Readings := Nat → Nat

def linkTemp (temps : Readings) (l : LinkSensor) : Int :=
  let temp := match l.sensor with
    | some sensor => toInt (temps sensor)
    | none => 1000
  if l.powerSensor then temp else temp.tdiv 1000

-- The exponential average; 0 stands for none yet.
def average (temp : Int) (l : LinkSensor) : Rat :=
  let prevAvg := if l.prevAvg = 0 then (temp : Rat) else l.prevAvg
  l.offset*temp+(1-l.offset)*prevAvg

def updateLink (temps : Readings) (l : LinkSensor) : LinkSensor := {l with prevAvg := average (linkTemp temps l) l}

-- A single linked sensor, without coefficients.
def isDirect (l : LinkSensor) : Bool := l.sensor.isSome && l.coeff = 0 && l.offset = 0

-- _read_temperature, with the unsigned value it returns.
def readTemperatureNow (temps : Readings) (v : VirtualSensor) : VirtualSensor × Nat :=
  match v.linkSensors with
  | [] => (v,0)
  | first::_ =>
    if isDirect first then
      let temp := toInt (temps (first.sensor.getD 0))
      (v,toUnsigned (Pid.ofDouble (temp*v.multiplier+v.offset)))
    else
      let links := v.linkSensors.map (updateLink temps)
      let virtTemp := links.foldl (fun sum l => sum+l.coeff*l.prevAvg) 0
      let temp := roundedInt virtTemp
      ({v with linkSensors := links,lastTemp := toInt (temp*1000)},toUnsigned temp)

def readTemperature (temps : Readings) (v : VirtualSensor) : VirtualSensor × Nat :=
  if v.polling then (v,toUnsigned v.lastTemp) else readTemperatureNow temps v

def update (v : VirtualSensor) (temps : Readings) : VirtualSensor := (readTemperatureNow temps v).1

-- After some updates: what a read returns while the thread polls, and what the
-- last update returned.
def ModesAgree (v : VirtualSensor) (history : List Readings) (temps : Readings) : Prop :=
  ∀ later : Readings,(readTemperature later {run update v (history++[temps]) with polling := true}).2 =
    (readTemperatureNow temps (run update v history)).2

-- The average of a link over the updates.
def averaged (l : LinkSensor) (history : List Readings) : LinkSensor := history.foldl (fun l temps => updateLink temps l) l

-- The temperature a configuration stands for: slope and intercept on the last
-- reading, in millidegrees, or the weighted averages, in degrees.
def virtualTemp (v : VirtualSensor) (history : List Readings) (temps : Readings) : Int :=
  match v.linkSensors with
  | [] => 0
  | first::_ =>
    if isDirect first then Pid.truncate (toInt (temps (first.sensor.getD 0))*v.multiplier+v.offset)
    else stdRound (v.linkSensors.map (fun l => l.coeff*(averaged l (history++[temps])).prevAvg)).sum

section Update
variable (temps : Readings) (l : LinkSensor)

@[simp] theorem updateLink_coeff : (updateLink temps l).coeff = l.coeff := rfl

@[simp] theorem updateLink_direct : isDirect (updateLink temps l) = isDirect l := rfl

end Update

section Runs
variable {v : VirtualSensor}

theorem update_empty (none : v.linkSensors = []) (temps : Readings) : update v temps = v := by
  rw [update,readTemperatureNow,none]

theorem update_direct {first : LinkSensor} {rest : List LinkSensor} (links : v.linkSensors = first::rest)
    (direct : isDirect first = true) (temps : Readings) : update v temps = v := by
  rw [update,readTemperatureNow,links]
  simp [direct]

theorem update_weighted {first : LinkSensor} {rest : List LinkSensor} (links : v.linkSensors = first::rest)
    (weighted : isDirect first = false) (temps : Readings) :
    readTemperatureNow temps v =
      ({v with
        linkSensors := v.linkSensors.map (updateLink temps)
        lastTemp := toInt (roundedInt
          ((v.linkSensors.map (updateLink temps)).foldl (fun sum l => sum+l.coeff*l.prevAvg) 0)*1000)},
        toUnsigned (roundedInt
          ((v.linkSensors.map (updateLink temps)).foldl (fun sum l => sum+l.coeff*l.prevAvg) 0))) := by
  rw [readTemperatureNow,links]
  simp [weighted]

theorem run_still (still : ∀ temps,update v temps = v) (history : List Readings) : run update v history = v := by
  induction history with
  | nil => rfl
  | cons temps rest ih => rw [run_cons,still temps,ih]

theorem run_links {first : LinkSensor} {rest : List LinkSensor} (links : v.linkSensors = first::rest)
    (weighted : isDirect first = false) (history : List Readings) :
    (run update v history).linkSensors = v.linkSensors.map (fun l => averaged l history) := by
  induction history generalizing v first rest with
  | nil => simp [averaged]
  | cons temps more ih =>
    have next : (update v temps).linkSensors = v.linkSensors.map (updateLink temps) := by
      rw [update,update_weighted links weighted]
    have head : (update v temps).linkSensors = updateLink temps first::rest.map (updateLink temps) := by
      rw [next,links,List.map_cons]
    rw [run_cons,ih head weighted,next,List.map_map]
    rfl

end Runs

theorem toInt_emod (x : Int) : toInt x % 4294967296 = x % 4294967296 := Int.bmod_emod

theorem toUnsigned_toInt (x : Int) : toUnsigned (toInt x) = toUnsigned x := by
  rw [toUnsigned,toInt_emod,toUnsigned]

theorem toUnsigned_eq_iff (x y : Int) : toUnsigned x = toUnsigned y ↔ 4294967296 ∣ x-y := by
  unfold toUnsigned
  omega

-- A number that no int holds is cast to one that is not 0.
theorem ofDouble_zero_iff (x : Rat) : Pid.ofDouble x = 0 ↔ Pid.truncate x = 0 := by
  unfold Pid.ofDouble
  by_cases fits : FitsInt (Pid.truncate x)
  · rw [if_pos fits]
  · rw [if_neg fits]
    refine iff_of_false (by decide) fun zero => fits ?_
    rw [zero]
    decide

theorem ofDouble_range (x : Rat) : FitsInt (Pid.ofDouble x) := by
  unfold Pid.ofDouble
  split
  · assumption
  · decide

theorem roundedInt_zero_iff (x : Rat) : roundedInt x = 0 ↔ stdRound x = 0 := by
  unfold roundedInt
  rw [ofDouble_zero_iff,Pid.truncate,Rat.num_intCast,Rat.den_intCast,Nat.cast_one,Int.tdiv_one]

theorem toUnsigned_zero_iff {x : Int} (fits : FitsInt x) : toUnsigned x = 0 ↔ x = 0 := by
  obtain ⟨low,high⟩ := fits
  unfold toUnsigned
  omega

-- Degrees and millidegrees of an int are the same unsigned number only at 0.
theorem milli_iff {x : Int} (fits : FitsInt x) : toUnsigned (toInt (x*1000)) = toUnsigned x ↔ x = 0 := by
  obtain ⟨low,high⟩ := fits
  have apart : x*1000-x = x*999 := by omega
  rw [toUnsigned_toInt,toUnsigned_eq_iff,apart]
  constructor
  · intro given
    have whole : (4294967296 : Int) ∣ x := Int.dvd_of_dvd_mul_left_of_gcd_one given (by decide)
    omega
  · rintro rfl
    exact ⟨0,by decide⟩

theorem foldl_weighted (links : List LinkSensor) (start : Rat) :
    links.foldl (fun sum l => sum+l.coeff*l.prevAvg) start = start+(links.map (fun l => l.coeff*l.prevAvg)).sum := by
  induction links generalizing start with
  | nil => simp
  | cons l rest ih => rw [List.foldl_cons,ih,List.map_cons,List.sum_cons,add_assoc]

theorem averaged_snoc (l : LinkSensor) (history : List Readings) (temps : Readings) :
    averaged l (history++[temps]) = updateLink temps (averaged l history) := by
  simp [averaged]

@[simp] theorem averaged_coeff (l : LinkSensor) (history : List Readings) : (averaged l history).coeff = l.coeff := by
  induction history generalizing l with
  | nil => rfl
  | cons temps rest ih => exact ih (updateLink temps l)

-- What an update adds up is what the averages over the whole history add up to.
theorem weighted_sum (links : List LinkSensor) (history : List Readings) (temps : Readings) :
    ((links.map (fun l => averaged l history)).map (updateLink temps)).foldl (fun sum l => sum+l.coeff*l.prevAvg) 0 =
      (links.map (fun l => l.coeff*(averaged l (history++[temps])).prevAvg)).sum := by
  rw [foldl_weighted,zero_add,List.map_map,List.map_map]
  simp [Function.comp_def,averaged_snoc]

section Modes
variable {v : VirtualSensor} (history : List Readings) (temps : Readings)

-- The polling mode returns what is stored, the direct one what it computed.
theorem modes_agree_stored : ModesAgree v history temps ↔
    toUnsigned (run update v (history++[temps])).lastTemp = (readTemperatureNow temps (run update v history)).2 :=
  ⟨fun given => given temps,fun given _ => given⟩

theorem agree_direct {first : LinkSensor} {rest : List LinkSensor} (links : v.linkSensors = first::rest)
    (direct : isDirect first = true) (fresh : v.lastTemp = 0) : ModesAgree v history temps ↔
      virtualTemp v history temps = 0 := by
  have still := update_direct links direct
  have value : (readTemperatureNow temps v).2 =
      toUnsigned (Pid.ofDouble (toInt (temps (first.sensor.getD 0))*v.multiplier+v.offset)) := by
    rw [readTemperatureNow,links]
    simp [direct]
  have temp : virtualTemp v history temps =
      Pid.truncate (toInt (temps (first.sensor.getD 0))*v.multiplier+v.offset) := by
    rw [virtualTemp,links]
    simp [direct]
  rw [modes_agree_stored,run_still still,run_still still,value,fresh,temp,← ofDouble_zero_iff,
    ← toUnsigned_zero_iff (ofDouble_range _)]
  exact eq_comm

theorem agree_weighted {first : LinkSensor} {rest : List LinkSensor} (links : v.linkSensors = first::rest)
    (weighted : isDirect first = false) : ModesAgree v history temps ↔ virtualTemp v history temps = 0 := by
  have kept := run_links links weighted history
  obtain ⟨head,tail,split,still⟩ : ∃ head tail,(run update v history).linkSensors = head::tail ∧ isDirect head = false := by
    rw [kept,links]
    refine ⟨averaged first history,rest.map (fun l => averaged l history),rfl,?_⟩
    have same : ∀ l,isDirect (averaged l history) = isDirect l := by
      intro l
      induction history generalizing l with
      | nil => rfl
      | cons temps more ih => exact ih (run_links links weighted more) (updateLink temps l)
    rw [same,weighted]
  have sum : virtualTemp v history temps =
      stdRound (v.linkSensors.map (fun l => l.coeff*(averaged l (history++[temps])).prevAvg)).sum := by
    rw [virtualTemp,links]
    simp [weighted]
  rw [modes_agree_stored,run_snoc,update,update_weighted split still,kept]
  dsimp only
  rw [weighted_sum,sum,← roundedInt_zero_iff]
  exact milli_iff (ofDouble_range _)

end Modes

-- A sensor at its full weight, as a coefficient target, and linked directly.
def weightedSensor : VirtualSensor := ⟨[⟨some 0,1,1,0,false⟩],0,0,false,0,5,[]⟩

def directSensor : VirtualSensor := ⟨[⟨some 0,0,0,0,false⟩],1,0,false,0,5,[]⟩

def fifty : Readings := fun _ => 50000

end VirtualSensor
end ChuwiMinibook
