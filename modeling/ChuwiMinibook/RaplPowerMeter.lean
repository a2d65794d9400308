import ChuwiMinibook.Machine
import Mathlib.Data.List.Basic

namespace ChuwiMinibook

-- domain_type
inductive DomainType where
  | invalid | package | dram | core | uncore
deriving DecidableEq

-- rapl_domain_t, in milli-units. The energies are unsigned long long, the powers
-- unsigned int.
structure RaplDomain where
  type : DomainType
  maxEnergyRange : Nat
  maxEnergyRangeThreshold : Nat
  halfWay : Bool
  energyCumulativeCounter : Nat
  energyCounter : Nat
  power : Nat
  maxPower : Nat
  minPower : Nat
deriving DecidableEq

structure PowerMeter where
  domainList : List RaplDomain
  lastTime : Int
  enableMeasurement : Bool
deriving DecidableEq

namespace RaplPowerMeter
open Machine

-- What max_energy_range_uj and energy_uj of a domain give when they are read in one
-- call; a failed read is none.
structure DomainRead where
  maxEnergyRangeUj : Option Nat
  energyUj : Option Nat

def uint64 (n : Nat) : Nat := n % 18446744073709551616

def readRange (read : Option Nat) (d : RaplDomain) : RaplDomain :=
  if d.maxEnergyRange ≠ 0 then d
  else
    let range := match read with
      | some value => value/1000
      | none => d.maxEnergyRange
    {d with maxEnergyRange := range,maxEnergyRangeThreshold := range/2}

-- An unsigned long long divided by the seconds and kept in an unsigned int.
def quotient (energy : Int) (seconds : Nat) : Nat := (energy % 18446744073709551616).toNat/seconds % 4294967296

-- The power, where counter is not 0, and its extremes.
def updatePower (counter : Nat) (diff : Int) (seconds : Nat) (d : RaplDomain) : RaplDomain :=
  let d := if counter ≠ 0 then {d with power := quotient (d.energyCounter-counter+diff) seconds} else d
  let d := if d.power > d.maxPower then {d with maxPower := d.power} else d
  if d.minPower = 0 then {d with minPower := d.power}
  else if d.power < d.minPower then {d with minPower := d.power}
  else d

-- A successful read of energy_uj. A wrap around leaves 0 in counter.
def sample (seconds energyUj : Nat) (d : RaplDomain) : RaplDomain :=
  let counter := d.energyCounter
  let d := {d with energyCounter := energyUj/1000}
  if d.halfWay && decide (d.energyCounter < d.maxEnergyRangeThreshold) then
    updatePower 0 (d.maxEnergyRange-counter) seconds
      {d with
        energyCumulativeCounter := uint64 (d.energyCumulativeCounter+d.maxEnergyRange)
        halfWay := false}
  else updatePower counter 0 seconds (if d.energyCounter > d.maxEnergyRangeThreshold then {d with halfWay := true} else d)

def visit (seconds : Nat) (read : DomainRead) (d : RaplDomain) : RaplDomain :=
  let d := readRange read.maxEnergyRangeUj d
  match read.energyUj with
  | some energyUj => sample seconds energyUj d
  | none => d

-- A call of rapl_energy_loop: the clock, and what the files of each domain give.
structure Call where
  now : Int
  reads : Nat → DomainRead

def due (m : PowerMeter) (now : Int) : Bool := m.enableMeasurement && decide (0 < now-m.lastTime)

def raplEnergyLoop (call : Call) (m : PowerMeter) : PowerMeter × Bool :=
  if !m.enableMeasurement then (m,false)
  else if call.now-m.lastTime ≤ 0 then (m,true)
  else
    ({m with
      domainList := m.domainList.mapIdx (fun i d => visit (call.now-m.lastTime).toNat (call.reads i) d)
      lastTime := call.now},true)

-- One domain that has not been read.
def idle : PowerMeter := ⟨[⟨.package,0,0,false,0,0,0,0,0⟩],0,true⟩

def step (m : PowerMeter) (call : Call) : PowerMeter := (raplEnergyLoop call m).1

-- energy_counter + energy_cumulative_counter
def reported (d : RaplDomain) : Nat := uint64 (d.energyCounter+d.energyCumulativeCounter)

def energyValue (d : RaplDomain) : Nat := uint64 (reported d*1000)

def energyAt (m : PowerMeter) (i : Nat) : Nat := (m.domainList[i]?.map energyValue).getD 0

-- The first domain of a type, in micro-units; where it has counted nothing the loop
-- runs once more.
def raplActionGetEnergy (call : Call) (type : DomainType) (m : PowerMeter) : PowerMeter × Nat :=
  match m.domainList.findIdx? (fun d => d.type = type) with
  | none => (m,0)
  | some i => if energyAt m i = 0 then (step m call,energyAt (step m call) i) else (m,energyAt m i)

def countsNothing (m : PowerMeter) (type : DomainType) : Bool :=
  (m.domainList.findIdx? (fun d => d.type = type)).any (fun i => energyAt m i = 0)

section Calls
variable {m : PowerMeter} {call : Call} {i : Nat} {d : RaplDomain}

theorem step_idle (idle : due m call.now = false) : step m call = m := by
  unfold due at idle
  unfold step raplEnergyLoop
  cases enabled : m.enableMeasurement with
  | false => rfl
  | true =>
    have late : call.now-m.lastTime ≤ 0 := by simpa only [enabled,Bool.true_and,decide_eq_false_iff_not,Int.not_lt] using idle
    simp [late]

theorem step_due (ready : due m call.now = true) : step m call =
    {m with
      domainList := m.domainList.mapIdx (fun i d => visit (call.now-m.lastTime).toNat (call.reads i) d)
      lastTime := call.now} := by
  obtain ⟨enabled,later⟩ := Bool.and_eq_true_iff.mp ready
  have early : ¬call.now-m.lastTime ≤ 0 := Int.not_le.mpr (of_decide_eq_true later)
  simp only [step,raplEnergyLoop,enabled]
  rw [if_neg (by simp),if_neg early]

@[simp] theorem step_enabled : (step m call).enableMeasurement = m.enableMeasurement := by
  cases ready : due m call.now with
  | false => rw [step_idle ready]
  | true => rw [step_due ready]

theorem step_domain (ready : due m call.now = true) (domain : m.domainList[i]? = some d) :
    (step m call).domainList[i]? = some (visit (call.now-m.lastTime).toNat (call.reads i) d) := by
  rw [step_due ready,List.getElem?_mapIdx,domain]
  rfl

theorem energy_calls (type : DomainType) :
    (raplActionGetEnergy call type m).1 = if countsNothing m type then step m call else m := by
  unfold raplActionGetEnergy countsNothing
  cases m.domainList.findIdx? (fun d => d.type = type) with
  | none => rfl
  | some i => by_cases none : energyAt m i = 0 <;> simp [none]

end Calls

theorem updatePower_parts (counter : Nat) (diff : Int) (seconds : Nat) (d : RaplDomain) : ∃ high low,
    updatePower counter diff seconds d = {d with
      power := if counter ≠ 0 then quotient (d.energyCounter-counter+diff) seconds else d.power
      maxPower := high
      minPower := low} := by
  unfold updatePower
  dsimp only
  split_ifs <;> exact ⟨_,_,rfl⟩

-- Where the files give one range M, the range is M/1000 once it has been read.
section Ranges
variable {M energyUj seconds : Nat} {d : RaplDomain}

def RangeKnown (M : Nat) (d : RaplDomain) : Prop :=
  d.maxEnergyRange = 0 ∨ d.maxEnergyRange = M/1000 ∧ d.maxEnergyRangeThreshold = M/1000/2

def ranged (M : Nat) (d : RaplDomain) : RaplDomain :=
  {d with maxEnergyRange := M/1000,maxEnergyRangeThreshold := M/1000/2}

theorem readRange_known (known : RangeKnown M d) : readRange (some M) d = ranged M d := by
  unfold readRange
  split
  · rename_i set
    obtain ⟨range,threshold⟩ := known.resolve_left set
    rw [ranged,← threshold,← range]
  · rfl

theorem visit_sample (known : RangeKnown M d) : visit seconds ⟨some M,some energyUj⟩ d = sample seconds energyUj (ranged M d) := by
  rw [visit]
  dsimp only
  rw [readRange_known known]

theorem visit_failed (known : RangeKnown M d) : visit seconds ⟨some M,none⟩ d = ranged M d := by
  rw [visit]
  dsimp only
  rw [readRange_known known]

end Ranges

-- What a successful read makes of a domain.
section Sample
variable (seconds : Nat) {energyUj : Nat} {d : RaplDomain}

theorem sample_frame (energyUj : Nat) (d : RaplDomain) : (sample seconds energyUj d).energyCounter = energyUj/1000 ∧
    (sample seconds energyUj d).maxEnergyRange = d.maxEnergyRange ∧
    (sample seconds energyUj d).maxEnergyRangeThreshold = d.maxEnergyRangeThreshold := by
  unfold sample
  dsimp only
  split_ifs
  all_goals
    obtain ⟨high,low,parts⟩ := updatePower_parts _ _ _ _
    rw [parts]
    exact ⟨rfl,rfl,rfl⟩

theorem sample_wraps (half : d.halfWay = true) (under : energyUj/1000 < d.maxEnergyRangeThreshold) :
    (sample seconds energyUj d).halfWay = false ∧ (sample seconds energyUj d).power = d.power ∧
      (sample seconds energyUj d).energyCumulativeCounter = uint64 (d.energyCumulativeCounter+d.maxEnergyRange) := by
  have wrap : (d.halfWay && decide (energyUj/1000 < d.maxEnergyRangeThreshold)) = true := by simp [half,under]
  unfold sample
  dsimp only
  rw [if_pos wrap]
  obtain ⟨high,low,parts⟩ := updatePower_parts _ _ _ _
  rw [parts]
  exact ⟨rfl,rfl,rfl⟩

theorem sample_onward (onward : d.halfWay = true → d.maxEnergyRangeThreshold ≤ energyUj/1000) :
    (sample seconds energyUj d).halfWay = (d.halfWay || decide (d.maxEnergyRangeThreshold < energyUj/1000)) ∧
      (sample seconds energyUj d).energyCumulativeCounter = d.energyCumulativeCounter ∧
      (sample seconds energyUj d).power =
        if d.energyCounter ≠ 0 then quotient ((energyUj/1000 : Nat)-d.energyCounter) seconds else d.power := by
  have same : ¬(d.halfWay && decide (energyUj/1000 < d.maxEnergyRangeThreshold)) = true := by
    intro wrap
    obtain ⟨half,low⟩ := Bool.and_eq_true_iff.mp wrap
    have bound := onward half
    have under := of_decide_eq_true low
    omega
  unfold sample
  dsimp only
  rw [if_neg same]
  obtain ⟨high,low,parts⟩ := updatePower_parts _ _ _ _
  rw [parts]
  by_cases set : energyUj/1000 > d.maxEnergyRangeThreshold <;> simp [set]

end Sample

end RaplPowerMeter
end ChuwiMinibook
