import ChuwiMinibook.KbdThreads
import Mathlib.Data.List.Forall2

namespace ChuwiMinibook.SensorThreads
open I2ec I2ecThreads KbdBacklight KbdThreads
open I2ecThreads.Accesses

def it5570eDcrFan : BitVec 16 := 0x1809
def it5570eFanTachL : BitVec 16 := 0x181E
def it5570eFanTachM : BitVec 16 := 0x181F
def tachRpmConstant : Nat := 1875000
def adcCh0Ctl : BitVec 16 := 0x1904
def adcCh0Datl : BitVec 16 := 0x1918
def adcCh0Datm : BitVec 16 := 0x1919
def adcGlitch : BitVec 16 := 0x1FF
def adcZeroCOffset : BitVec 16 := 644
def adcRawPerDegree : Nat := 7
def einval : Int := 22
def enodata : Int := 61
def eopnotsupp : Int := 95

-- ((u16)high << 8) | low
def word (high low : BitVec 8) : BitVec 16 := (high.setWidth 16 <<< 8) ||| low.setWidth 16

def readFanRpm : Accesses Nat := do
  let tachL ← i2ecRead it5570eFanTachL
  let tachM ← i2ecRead it5570eFanTachM
  let tach := word tachM tachL
  return if tach = 0 ∨ tach = 0xFFFF then 0 else tachRpmConstant/tach.toNat

-- The type and attribute that hwmon asks for.
inductive HwmonAttr where
  | fanInput
  | pwmInput
  | other

def fanHwmonRead : HwmonAttr → Accesses (Except Int Int)
  | .fanInput => do
    let rpm ← readFanRpm
    return .ok rpm
  | .pwmInput => do
    let duty ← i2ecRead it5570eDcrFan
    return .ok duty.toNat
  | .other => .done (.error (-eopnotsupp))

def adcReadRaw : Accesses (BitVec 16) := do
  let ctl ← i2ecRead adcCh0Ctl
  if ctl = 0 then return 0xFFFF
  else
    let datl ← i2ecRead adcCh0Datl
    let datm ← i2ecRead adcCh0Datm
    let raw := word datm datl
    return if raw = adcGlitch ∨ raw = 0 then 0xFFFF else raw

def chargerTempGet : Accesses (Except Int Int) := do
  let raw ← adcReadRaw
  if raw = 0xFFFF then return .error (-enodata)
  else
    let raw := if raw > adcZeroCOffset then adcZeroCOffset else raw
    let degC := (adcZeroCOffset.toNat-raw.toNat)/adcRawPerDegree
    return .ok (degC*1000 : Nat)

inductive Sensor where
  | fanHwmonRead (attr : HwmonAttr)
  | chargerTempGet

-- What user space and the kernel's cores ask of the driver, with what kstrtobool makes of
-- the text. A poll of the brightness is a call of brightness_get.
inductive Call where
  | sensor (s : Sensor)
  | brightnessSet (value : BitVec 8)
  | brightnessGet
  | autoOffTimerShow
  | autoOffTimerStore (enable : Option Bool) (count : Nat)

def Sensor.accesses : Sensor → Accesses (Except Int Int)
  | .fanHwmonRead attr => SensorThreads.fanHwmonRead attr
  | .chargerTempGet => SensorThreads.chargerTempGet

def Call.accesses : Call → Accesses (Except Int Int)
  | .sensor s => s.accesses
  | .brightnessSet value => (kbdBlBrightnessSet value).bind fun _ => .done (.ok 0)
  | .brightnessGet => kbdBlBrightnessGet.bind fun value => .done (.ok value.toNat)
  -- the number that is shown
  | .autoOffTimerShow => kbdBlTimerSuspended.bind fun suspended => .done (.ok (if suspended then 0 else 1))
  | .autoOffTimerStore none _ => .done (.error (-einval))
  | .autoOffTimerStore (some enable) count => (kbdBlSetAutoOff enable).bind fun _ => .done (.ok count)

-- A thread that makes one call after another.
def calls : List Call → Accesses (List (Except Int Int))
  | [] => .done []
  | call::rest => call.accesses.bind fun result => (calls rest).bind fun results => .done (result::results)

section Memory
variable (ram : BitVec 16 → BitVec 8)

-- What the registers say.
def tach : BitVec 16 := word (ram it5570eFanTachM) (ram it5570eFanTachL)

def adc : BitVec 16 := word (ram adcCh0Datm) (ram adcCh0Datl)

def Converted : Prop := ram adcCh0Ctl ≠ 0 ∧ adc ram ≠ adcGlitch ∧ adc ram ≠ 0 ∧ adc ram ≠ 0xFFFF

instance : Decidable (Converted ram) := inferInstanceAs (Decidable (_ ∧ _ ∧ _ ∧ _))

def degrees : Nat := (644-(adc ram).toNat)/7

def reading : Sensor → Except Int Int
  | .fanHwmonRead .fanInput => .ok (if tach ram = 0 ∨ tach ram = 0xFFFF then 0 else 1875000/(tach ram).toNat : Nat)
  | .fanHwmonRead .pwmInput => .ok (ram it5570eDcrFan).toNat
  | .fanHwmonRead .other => .error (-eopnotsupp)
  | .chargerTempGet => if Converted ram then .ok (1000*degrees ram : Nat) else .error (-enodata)

end Memory

-- The values that a sensor can have: revolutions for 1 to 65534 clock ticks, and no
-- temperature but between 0 and 91 degrees.
def Sensor.Sound : Sensor → Except Int Int → Prop
  | .fanHwmonRead .fanInput,result => ∃ rpm : Nat,result = .ok rpm ∧ (rpm = 0 ∨ 28 ≤ rpm ∧ rpm ≤ 1875000)
  | .fanHwmonRead .pwmInput,result => ∃ duty : Nat,result = .ok duty ∧ duty ≤ 255
  | .fanHwmonRead .other,result => result = .error (-eopnotsupp)
  | .chargerTempGet,result => result = .error (-enodata) ∨ ∃ degC : Nat,result = .ok (1000*degC : Nat) ∧ degC ≤ 91

theorem reading_sound (ram : BitVec 16 → BitVec 8) (s : Sensor) : s.Sound (reading ram s) := by
  match s with
  | .fanHwmonRead .fanInput =>
    refine ⟨_,rfl,?_⟩
    have short : (tach ram).toNat < 65536 := (tach ram).isLt
    split
    case isTrue => exact .inl rfl
    case isFalse turns =>
      rw [not_or] at turns
      have none : (tach ram).toNat ≠ 0 := fun zero => turns.1 (BitVec.eq_of_toNat_eq zero)
      have all : (tach ram).toNat ≠ 65535 := fun full => turns.2 (BitVec.eq_of_toNat_eq full)
      have low : 28 ≤ 1875000/(tach ram).toNat := (Nat.le_div_iff_mul_le (by omega)).mpr (by omega)
      exact .inr ⟨low,Nat.div_le_self _ _⟩
  | .fanHwmonRead .pwmInput =>
    have short : (ram it5570eDcrFan).toNat < 256 := (ram it5570eDcrFan).isLt
    exact ⟨_,rfl,by omega⟩
  | .fanHwmonRead .other => rfl
  | .chargerTempGet =>
    rw [Sensor.Sound,reading]
    split
    case isTrue converted =>
      have some : (adc ram).toNat ≠ 0 := fun zero => converted.2.2.1 (BitVec.eq_of_toNat_eq zero)
      refine .inr ⟨degrees ram,rfl,?_⟩
      rw [degrees]
      omega
    case isFalse => exact .inl rfl

-- Alone on the flat memory a sensor reads what the registers say and writes nothing.
theorem fan_flat (attr : HwmonAttr) (ram : BitVec 16 → BitVec 8) :
    (fanHwmonRead attr).aloneFlat ram = (ram,reading ram (.fanHwmonRead attr)) := by
  cases attr with
  | fanInput => rfl
  | pwmInput => rfl
  | other => rfl

theorem raw_flat (ram : BitVec 16 → BitVec 8) :
    adcReadRaw.aloneFlat ram = (ram,if Converted ram then adc ram else 0xFFFF) := by
  change (if ram adcCh0Ctl = 0 then _ else _ : Accesses (BitVec 16)).aloneFlat ram = _
  by_cases off : ram adcCh0Ctl = 0
  case pos =>
    rw [if_pos off,if_neg (fun converted => converted.1 off)]
    rfl
  case neg =>
    rw [if_neg off]
    change (ram,if adc ram = adcGlitch ∨ adc ram = 0 then 0xFFFF else adc ram) = _
    by_cases converted : Converted ram
    case pos => rw [if_pos converted,if_neg (not_or.mpr ⟨converted.2.1,converted.2.2.1⟩)]
    case neg =>
      rw [if_neg converted]
      split
      case isTrue => rfl
      case isFalse valid =>
        rw [not_or] at valid
        have full : adc ram = 0xFFFF := by
          by_contra other
          exact converted ⟨off,valid.1,valid.2,other⟩
        rw [full]

-- Behind the clamp the difference does not wrap.
theorem clamped (raw : BitVec 16) : (adcZeroCOffset.toNat-(if raw > adcZeroCOffset then adcZeroCOffset else raw).toNat)/adcRawPerDegree*1000 =
    1000*((644-raw.toNat)/7) := by
  have offset : adcZeroCOffset.toNat = 644 := rfl
  rw [Nat.mul_comm,adcRawPerDegree,offset]
  split
  case isTrue above =>
    have low : 644 < raw.toNat := above
    rw [offset,Nat.sub_self,Nat.sub_eq_zero_of_le (by omega)]
  case isFalse => rfl

theorem charger_flat (ram : BitVec 16 → BitVec 8) : chargerTempGet.aloneFlat ram = (ram,reading ram .chargerTempGet) := by
  change (adcReadRaw.bind _).aloneFlat ram = _
  rw [aloneFlat_bind,raw_flat,reading]
  by_cases converted : Converted ram
  case pos =>
    simp only [if_pos converted]
    rw [if_neg converted.2.2.2]
    exact congrArg (fun millidegrees : Nat => (ram,(Except.ok (millidegrees : Int) : Except Int Int))) (clamped (adc ram))
  case neg =>
    simp only [if_neg converted]
    rfl

theorem sensor_flat (s : Sensor) (ram : BitVec 16 → BitVec 8) : s.accesses.aloneFlat ram = (ram,reading ram s) := by
  cases s with
  | fanHwmonRead attr => exact fan_flat attr ram
  | chargerTempGet => exact charger_flat ram

theorem calls_flat (sensors : List Sensor) (ram : BitVec 16 → BitVec 8) :
    (calls (sensors.map .sensor)).aloneFlat ram = (ram,sensors.map (reading ram)) := by
  induction sensors with
  | nil => rfl
  | cons s rest ih =>
    rw [List.map_cons,calls,aloneFlat_bind,Call.accesses,sensor_flat,aloneFlat_bind,ih]
    rfl

-- The registers that the sensors come to.
def SensorRegister (addr : BitVec 16) : Prop :=
  addr ∈ [it5570eDcrFan,it5570eFanTachL,it5570eFanTachM,adcCh0Ctl,adcCh0Datl,adcCh0Datm]

instance (addr : BitVec 16) : Decidable (SensorRegister addr) := inferInstanceAs (Decidable (addr ∈ _))

theorem fan_reads (attr : HwmonAttr) : (fanHwmonRead attr).Reads SensorRegister := by
  cases attr with
  | fanInput => exact ⟨by decide,fun _ => ⟨by decide,fun _ => trivial⟩⟩
  | pwmInput => exact ⟨by decide,fun _ => trivial⟩
  | other => trivial

theorem charger_reads : chargerTempGet.Reads SensorRegister := by
  refine bind_reads ?_ fun raw => ?_
  · refine ⟨by decide,fun ctl => ?_⟩
    change (if ctl = 0 then _ else _ : Accesses (BitVec 16)).Reads SensorRegister
    split
    case isTrue => trivial
    case isFalse => exact ⟨by decide,fun _ => ⟨by decide,fun _ => trivial⟩⟩
  · split <;> trivial

theorem sensor_reads (s : Sensor) : s.accesses.Reads SensorRegister := by
  cases s with
  | fanHwmonRead attr => exact fan_reads attr
  | chargerTempGet => exact charger_reads

theorem calls_reads (sensors : List Sensor) : (calls (sensors.map .sensor)).Reads SensorRegister := by
  induction sensors with
  | nil => trivial
  | cons s rest ih => exact bind_reads (sensor_reads s) fun _ => bind_reads ih fun _ => trivial

-- The backlight's calls leave them alone.
theorem brightnessSet_spares (value : BitVec 8) : (kbdBlBrightnessSet value).Writes fun addr => ¬SensorRegister addr := by
  refine ⟨by decide,by decide,fun flag => ?_⟩
  change (if decide (flag = kbdBlTimerSuspendMagic) = true then _ else _ : Accesses Unit).Writes _
  split
  case isTrue => exact fun gpio => ⟨by decide,trivial⟩
  case isFalse => trivial

theorem call_spares (call : Call) : call.accesses.Writes fun addr => ¬SensorRegister addr := by
  cases call with
  | sensor s => exact reads_writes (sensor_reads s) _
  | brightnessSet value => exact bind_writes (brightnessSet_spares value) fun _ => trivial
  | brightnessGet => exact bind_writes (get_writes _) fun _ => trivial
  | autoOffTimerShow => exact fun _ => trivial
  | autoOffTimerStore enable count =>
    cases enable with
    | none => trivial
    | some enable => exact ⟨by decide,trivial⟩

theorem calls_spare (list : List Call) : (calls list).Writes fun addr => ¬SensorRegister addr := by
  induction list with
  | nil => trivial
  | cons call rest ih => exact bind_writes (call_spares call) fun _ => bind_writes ih fun _ => trivial

section Runs
variable {T : Type} [DecidableEq T] {w : T}

-- The fan and the charger are read beside any calls of the driver as if nobody else used
-- the ports.
theorem sensor_readings_stand {p : Pnpcfg} {threads : T → List Call} {sensors : List Sensor} (schedule : List T)
    (reader : threads w = sensors.map .sensor)
    (outside : ∀ acts,(atPorts p (fun t => calls (threads t)) schedule).holder ≠ some (w,acts)) {results : List (Except Int Int)}
    (returned : (atPorts p (fun t => calls (threads t)) schedule).locals w = .done results) :
    results = sensors.map (reading p.ram) ∧ List.Forall₂ Sensor.Sound sensors results := by
  have within : (calls (threads w)).Within SensorRegister := reader ▸ reads_within (calls_reads sensors)
  have alike := (undisturbed schedule within (fun t _ => calls_spare (threads t)) outside returned).1
  have alone := alone_flat (calls (sensors.map .sensor)) p
  rw [calls_flat] at alone
  rw [reader] at alike
  have same : results = sensors.map (reading p.ram) := alike.trans (congrArg Prod.snd alone)
  refine ⟨same,?_⟩
  rw [same,List.forall₂_map_right_iff]
  exact List.forall₂_same.mpr fun s _ => reading_sound p.ram s

-- A chip with 5 in every cell.
def fives : Pnpcfg := ⟨0,fun _ => 0,0,0,0,fun _ => 0,fun _ => 5⟩

-- A brightness that is set between the two bytes of the fan.
def setterAndSensors (setter : Bool) : List Call :=
  if setter then [.brightnessSet 7] else [.sensor (.fanHwmonRead .fanInput),.sensor .chargerTempGet]

def betweenBytes : List Bool := List.replicate 14 false++List.replicate 42 true++List.replicate 56 false

set_option maxRecDepth 4000 in
theorem sensor_readings_stand_between :
    (atPorts fives (fun t => calls (setterAndSensors t)) betweenBytes).locals false = .done [.ok 1459,.ok 0] ∧
      ([.ok 1459,.ok 0] : List (Except Int Int)) = [.fanHwmonRead .fanInput,.chargerTempGet].map (reading fives.ram) := by
  have free : (atPorts fives (fun t => calls (setterAndSensors t)) betweenBytes).holder = none := rfl
  have returned : (atPorts fives (fun t => calls (setterAndSensors t)) betweenBytes).locals false = .done [.ok 1459,.ok 0] := rfl
  refine ⟨returned,(sensor_readings_stand betweenBytes rfl (fun acts held => ?_) returned).1⟩
  rw [free] at held
  cases held

end Runs

end ChuwiMinibook.SensorThreads
