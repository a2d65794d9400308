import Mathlib.Data.Rat.Defs
import Mathlib.Algebra.Order.Field.Rat

namespace ChuwiMinibook

-- The int conversions of the daemon: a value that does not fit wraps as on
-- every target it is built for.
def toInt (value : Int) : Int := value.bmod 4294967296

def FitsInt (value : Int) : Prop := -2147483648 ≤ value ∧ value ≤ 2147483647

instance (value : Int) : Decidable (FitsInt value) := inferInstanceAs (Decidable (_ ∧ _))

theorem toInt_fits {value : Int} (fits : FitsInt value) : toInt value = value := by
  obtain ⟨low,high⟩ := fits
  unfold toInt
  exact Int.bmod_eq_of_le (by omega) (by omega)

-- pid_param_t
structure PidParam where
  valid : Bool
  kp : ℚ
  ki : ℚ
  kd : ℚ
deriving DecidableEq

-- cthd_pid over exact numbers in place of doubles.
structure Pid where
  kp : ℚ
  ki : ℚ
  kd : ℚ
  errSum : ℚ
  lastErr : ℚ
  lastTime : Int
  targetTemp : Nat
deriving DecidableEq

namespace Pid

def new : Pid := ⟨1/2000,1/10000,1/10000,0,0,0,0⟩

def setPidParam (p : Pid) (kp ki kd : ℚ) : Pid := {p with kp := kp,ki := ki,kd := kd}

def setTargetTemp (p : Pid) (temp : Nat) : Pid := {p with targetTemp := temp}

def reset (p : Pid) : Pid := {p with errSum := 0,lastErr := 0,lastTime := 0}

def truncate (q : ℚ) : Int := q.num.tdiv q.den

-- (int) of a double drops the fraction towards zero. A value that no int holds
-- becomes the smallest int, as on the processors the daemon is built for.
def ofDouble (q : ℚ) : Int :=
  if FitsInt (truncate q) then truncate q else -2147483648

-- The integral part is preset on the first call after a reset so that the
-- output starts at the given value.
def begin (p : Pid) (now : Int) (error : ℚ) (initialValue : Int) : Pid :=
  if p.lastTime = 0 then
    {p with lastTime := now,errSum := if p.ki ≠ 0 then (initialValue - p.kp*error)/p.ki else 0}
  else p

-- pid_output up to its return, the output still a double.
def compute (p : Pid) (now : Int) (currTemp : Nat) (initialValue : Int) : Pid × ℚ :=
  let error : ℚ := toInt ((currTemp : Int) - p.targetTemp)
  let p := p.begin now error initialValue
  let timeChange := now - p.lastTime
  let errSum := p.errSum + error*timeChange
  let dErr := if timeChange ≠ 0 then (error - p.lastErr)/timeChange else 0
  ({p with errSum := errSum,lastErr := error,lastTime := now},p.kp*error + p.ki*errSum + p.kd*dErr)

def pidOutput (p : Pid) (now : Int) (currTemp : Nat) (initialValue : Int) : Pid × Int :=
  let (p,output) := p.compute now currTemp initialValue
  (p,ofDouble output)

end Pid
end ChuwiMinibook
