import ChuwiMinibook.I2ec

namespace ChuwiMinibook.KbdBacklight
open I2ec Machine

def it5570eKbdBlDcr : BitVec 16 := 0x1803
def it5570eKbdBlGpioGate : BitVec 16 := 0x1611
def kbdBlGpioGateOff : BitVec 8 := 0x40
def ecKbdBlSetpoint : BitVec 16 := 0x03E2
def ecKbdBlTimerSuspend : BitVec 16 := 0x0411
def kbdBlTimerSuspendMagic : BitVec 8 := 0xEE

-- The device of the driver, and behind its fields the values that were notified.
structure Kbl where
  ec : Pnpcfg
  lastObserved : BitVec 8
  notified : List (BitVec 8)

def kbdBlOutputGated (ec : Pnpcfg) : Pnpcfg × Bool :=
  let (ec,gpio) := minibookEcI2ecRead ec it5570eKbdBlGpioGate
  (ec,gpio &&& kbdBlGpioGateOff ≠ 0)

def kbdBlSetOutput (ec : Pnpcfg) (enable : Bool) : Pnpcfg :=
  let (ec,gpio) := minibookEcI2ecRead ec it5570eKbdBlGpioGate
  minibookEcI2ecWrite ec it5570eKbdBlGpioGate
    (if enable then gpio &&& ~~~kbdBlGpioGateOff else gpio ||| kbdBlGpioGateOff)

def kbdBlSetDuty (ec : Pnpcfg) (duty : BitVec 8) : Pnpcfg :=
  minibookEcI2ecWrite (minibookEcI2ecWrite ec it5570eKbdBlDcr duty) ecKbdBlSetpoint duty

def kbdBlTimerSuspended (ec : Pnpcfg) : Pnpcfg × Bool :=
  let (ec,flag) := minibookEcI2ecRead ec ecKbdBlTimerSuspend
  (ec,flag = kbdBlTimerSuspendMagic)

def kbdBlSetAutoOff (ec : Pnpcfg) (enable : Bool) : Pnpcfg :=
  minibookEcI2ecWrite ec ecKbdBlTimerSuspend (if enable then 0 else kbdBlTimerSuspendMagic)

def kbdBlBrightnessSet (kbl : Kbl) (value : BitVec 8) : Kbl :=
  let (ec,suspended) := kbdBlTimerSuspended (kbdBlSetDuty kbl.ec value)
  {kbl with ec := if suspended then kbdBlSetOutput ec (value ≠ 0) else ec,lastObserved := value}

def kbdBlBrightnessGet (ec : Pnpcfg) : Pnpcfg × BitVec 8 :=
  let (ec,gated) := kbdBlOutputGated ec
  if gated then (ec,0) else minibookEcI2ecRead ec it5570eKbdBlDcr

def kbdBlPollWork (kbl : Kbl) : Kbl :=
  let (ec,currentBri) := kbdBlBrightnessGet kbl.ec
  if currentBri ≠ kbl.lastObserved then
    {ec := ec,lastObserved := currentBri,notified := kbl.notified++[currentBri]}
  else {kbl with ec := ec}

-- With what kstrtobool makes of the text; none is its error.
def autoOffTimerStore (kbl : Kbl) (enable : Option Bool) : Kbl :=
  match enable with
  | none => kbl
  | some enable => {kbl with ec := kbdBlSetAutoOff kbl.ec enable}

-- The registration with poll_hw_changed.
def registerKbdBacklight (ec : Pnpcfg) : Kbl :=
  let (ec,brightness) := kbdBlBrightnessGet ec
  ⟨ec,brightness,[]⟩

-- What the registers say.
def gated (ram : BitVec 16 → BitVec 8) : Bool := ram it5570eKbdBlGpioGate &&& kbdBlGpioGateOff ≠ 0

def duty (ram : BitVec 16 → BitVec 8) : BitVec 8 := ram it5570eKbdBlDcr

def suspended (ram : BitVec 16 → BitVec 8) : Bool := ram ecKbdBlTimerSuspend = kbdBlTimerSuspendMagic

def visible (ram : BitVec 16 → BitVec 8) : BitVec 8 := if gated ram then 0 else duty ram

-- The host writes the brightness or the timer, the driver polls, or the EC changes its
-- registers, which it leaves alone while the timer is suspended.
inductive Event
  | write (value : BitVec 8)
  | store (enable : Option Bool)
  | poll
  | ec (ram : BitVec 16 → BitVec 8)

def step (kbl : Kbl) : Event → Kbl
  | .write value => kbdBlBrightnessSet kbl value
  | .store enable => autoOffTimerStore kbl enable
  | .poll => kbdBlPollWork kbl
  | .ec ram => if suspended kbl.ec.ram then kbl else {kbl with ec := {kbl.ec with ram := ram}}

section Accesses

variable (p : Pnpcfg)

@[simp] theorem read_value (addr : BitVec 16) : (minibookEcI2ecRead p addr).2 = p.ram addr := (read_spec p addr).1

@[simp] theorem read_ram (addr : BitVec 16) : (minibookEcI2ecRead p addr).1.ram = p.ram := (read_spec p addr).2

@[simp] theorem write_ram (addr : BitVec 16) (value : BitVec 8) :
    (minibookEcI2ecWrite p addr value).ram = Function.update p.ram addr value := write_spec p addr value

@[simp] theorem outputGated_value : (kbdBlOutputGated p).2 = gated p.ram := by
  simp [kbdBlOutputGated,gated]

@[simp] theorem outputGated_ram : (kbdBlOutputGated p).1.ram = p.ram := by
  simp [kbdBlOutputGated]

@[simp] theorem timerSuspended_value : (kbdBlTimerSuspended p).2 = suspended p.ram := by
  simp [kbdBlTimerSuspended,suspended]

@[simp] theorem timerSuspended_ram : (kbdBlTimerSuspended p).1.ram = p.ram := by
  simp [kbdBlTimerSuspended]

@[simp] theorem setDuty_ram (value : BitVec 8) : (kbdBlSetDuty p value).ram =
    Function.update (Function.update p.ram it5570eKbdBlDcr value) ecKbdBlSetpoint value := by
  simp [kbdBlSetDuty]

@[simp] theorem setAutoOff_ram (enable : Bool) : (kbdBlSetAutoOff p enable).ram =
    Function.update p.ram ecKbdBlTimerSuspend (if enable then 0 else kbdBlTimerSuspendMagic) := by
  simp [kbdBlSetAutoOff]

@[simp] theorem brightnessGet_value : (kbdBlBrightnessGet p).2 = visible p.ram := by
  unfold kbdBlBrightnessGet visible
  simp only [outputGated_value]
  split
  · rfl
  · simp [duty]

@[simp] theorem brightnessGet_ram : (kbdBlBrightnessGet p).1.ram = p.ram := by
  unfold kbdBlBrightnessGet
  simp only [outputGated_value]
  split
  · exact outputGated_ram p
  · simp

theorem setOutput_ram (enable : Bool) : (kbdBlSetOutput p enable).ram = Function.update p.ram it5570eKbdBlGpioGate
    (if enable then p.ram it5570eKbdBlGpioGate &&& ~~~kbdBlGpioGateOff
      else p.ram it5570eKbdBlGpioGate ||| kbdBlGpioGateOff) := by
  simp [kbdBlSetOutput]

-- The gate is one bit of its register.
theorem setOutput_gated (enable : Bool) : gated (kbdBlSetOutput p enable).ram = !enable := by
  have opened (gpio : BitVec 8) : gpio &&& ~~~kbdBlGpioGateOff &&& kbdBlGpioGateOff = 0 := by
    rw [BitVec.and_assoc,BitVec.and_comm (~~~_),BitVec.and_not_self]
    exact BitVec.and_zero
  have closed (gpio : BitVec 8) : (gpio ||| kbdBlGpioGateOff) &&& kbdBlGpioGateOff ≠ 0 := by
    intro zero
    have bit := congrArg (fun b => b.getLsbD 6) zero
    simp [kbdBlGpioGateOff] at bit
  rw [gated,setOutput_ram,Function.update_self]
  cases enable with
  | true => simp [opened]
  | false => simpa using closed _

theorem setOutput_others (enable : Bool) : duty (kbdBlSetOutput p enable).ram = duty p.ram ∧
    suspended (kbdBlSetOutput p enable).ram = suspended p.ram := by
  unfold duty suspended
  rw [setOutput_ram,Function.update_of_ne (by decide),Function.update_of_ne (by decide)]
  exact ⟨rfl,rfl⟩

theorem setDuty_parts (value : BitVec 8) : duty (kbdBlSetDuty p value).ram = value ∧
    gated (kbdBlSetDuty p value).ram = gated p.ram ∧ suspended (kbdBlSetDuty p value).ram = suspended p.ram := by
  unfold duty gated suspended
  rw [setDuty_ram]
  refine ⟨?_,?_,?_⟩
  · rw [Function.update_of_ne (by decide),Function.update_self]
  · rw [Function.update_of_ne (by decide),Function.update_of_ne (by decide)]
  · rw [Function.update_of_ne (by decide),Function.update_of_ne (by decide)]

end Accesses

-- What a step does to the registers that count.
section Steps

variable (kbl : Kbl)

structure Written (kbl : Kbl) (value : BitVec 8) (next : Kbl) : Prop where
  duty : duty next.ec.ram = value
  gated : gated next.ec.ram = if suspended kbl.ec.ram then decide (value = 0) else gated kbl.ec.ram
  suspended : suspended next.ec.ram = suspended kbl.ec.ram
  lastObserved : next.lastObserved = value
  notified : next.notified = kbl.notified

theorem step_write (value : BitVec 8) : Written kbl value (step kbl (.write value)) := by
  obtain ⟨set,gate,timer⟩ := setDuty_parts kbl.ec value
  have ram := timerSuspended_ram (kbdBlSetDuty kbl.ec value)
  have reads := (timerSuspended_value (kbdBlSetDuty kbl.ec value)).trans timer
  cases held : suspended kbl.ec.ram with
  | true =>
    have next : (step kbl (.write value)).ec =
        kbdBlSetOutput (kbdBlTimerSuspended (kbdBlSetDuty kbl.ec value)).1 (value ≠ 0) := by
      simp only [step,kbdBlBrightnessSet,reads,held,if_true]
    obtain ⟨kept,still⟩ := setOutput_others (kbdBlTimerSuspended (kbdBlSetDuty kbl.ec value)).1 (value ≠ 0)
    refine ⟨?_,?_,?_,rfl,rfl⟩
    · rw [next,kept,ram,set]
    · rw [next,setOutput_gated,held]
      simp
    · rw [next,still,ram,timer]
  | false =>
    have next : (step kbl (.write value)).ec = (kbdBlTimerSuspended (kbdBlSetDuty kbl.ec value)).1 := by
      simp only [step,kbdBlBrightnessSet,reads,held,Bool.false_eq_true,if_false]
    refine ⟨?_,?_,?_,rfl,rfl⟩
    · rw [next,ram,set]
    · rw [next,ram,gate,held]
      rfl
    · rw [next,ram,timer]

structure Stored (kbl : Kbl) (enable : Option Bool) (next : Kbl) : Prop where
  duty : duty next.ec.ram = duty kbl.ec.ram
  gated : gated next.ec.ram = gated kbl.ec.ram
  suspended : suspended next.ec.ram = enable.elim (suspended kbl.ec.ram) (!·)
  lastObserved : next.lastObserved = kbl.lastObserved
  notified : next.notified = kbl.notified

theorem step_store (enable : Option Bool) : Stored kbl enable (step kbl (.store enable)) := by
  cases enable with
  | none => exact ⟨rfl,rfl,rfl,rfl,rfl⟩
  | some enable =>
    have next : (step kbl (.store (some enable))).ec.ram =
        Function.update kbl.ec.ram ecKbdBlTimerSuspend (if enable then 0 else kbdBlTimerSuspendMagic) :=
      setAutoOff_ram kbl.ec enable
    refine ⟨?_,?_,?_,rfl,rfl⟩
    · rw [next,duty,Function.update_of_ne (by decide)]
      rfl
    · rw [next,gated,Function.update_of_ne (by decide)]
      rfl
    · rw [next,suspended,Function.update_self]
      cases enable <;> rfl

theorem step_poll : (step kbl .poll).ec.ram = kbl.ec.ram ∧ (step kbl .poll).lastObserved = visible kbl.ec.ram ∧
    (step kbl .poll).notified =
      if visible kbl.ec.ram ≠ kbl.lastObserved then kbl.notified++[visible kbl.ec.ram] else kbl.notified := by
  simp only [step,kbdBlPollWork,brightnessGet_value]
  split
  · exact ⟨brightnessGet_ram kbl.ec,rfl,rfl⟩
  · rename_i same
    exact ⟨brightnessGet_ram kbl.ec,(not_not.mp same).symm,rfl⟩

theorem register_parts (ec : Pnpcfg) : (registerKbdBacklight ec).lastObserved = visible ec.ram ∧
    (registerKbdBacklight ec).ec.ram = ec.ram ∧ (registerKbdBacklight ec).notified = [] :=
  ⟨brightnessGet_value ec,brightnessGet_ram ec,rfl⟩

end Steps

end ChuwiMinibook.KbdBacklight
