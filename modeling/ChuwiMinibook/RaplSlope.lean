import ChuwiMinibook.RaplPowerMeter
import ChuwiMinibook.WrappedCounter

namespace ChuwiMinibook.RaplSlope
open Machine RaplPowerMeter WrappedCounter

-- A call when each domain has used some energy, in microjoules, unless its counter
-- cannot be read. The counter starts over at the range.
structure Probe where
  now : Int
  energy : Nat → Option Nat

def hardware (range : Nat → Nat) (p : Probe) : Call := ⟨p.now,fun i => ⟨some (range i),(p.energy i).map (· % range i)⟩⟩

-- The meter, and when and at which energy a domain was last sampled.
structure History where
  meter : PowerMeter
  last : Option (Int × Nat)

def advance (range : Nat → Nat) (i : Nat) (h : History) (p : Probe) : History :=
  ⟨step h.meter (hardware range p),if due h.meter p.now then (p.energy i).elim h.last (fun e => some (p.now,e)) else h.last⟩

-- What holds at every call of a run.
def Along (range : Nat → Nat) (i : Nat) (P : History → Probe → Prop) : History → List Probe → Prop
  | _,[] => True
  | h,p::rest => P h p ∧ Along range i P (advance range i h p) rest

-- A call that samples the domain, which was last sampled at t.
structure Sampled (i : Nat) (h : History) (p : Probe) (t : Int) (e e' : Nat) : Prop where
  due : due h.meter p.now = true
  read : p.energy i = some e'
  last : h.last = some (t,e)

-- Less than half the range is used between two samples.
def Paced (M i : Nat) (h : History) (p : Probe) : Prop := ∀ t e e', Sampled i h p t e e' → e ≤ e' ∧ 2*(e'-e) < M

-- The power is the energy counted since the last sample, over the seconds since then.
def Slope (range : Nat → Nat) (i : Nat) (h : History) (p : Probe) : Prop := ∀ t e e', Sampled i h p t e e' →
  ∀ d, (advance range i h p).meter.domainList[i]? = some d →
    (d.power : Int) =
      ((shown 1000 (range i) e' : Int)-shown 1000 (range i) e) % span 1000 (range i)/(p.now-t)

-- The last call that moved last_time sampled the domain, its counter was not 0 then
-- and has not started over since, and the quotient is an unsigned int.
def Steady (M i : Nat) (h : History) (p : Probe) : Prop := ∀ t e e', Sampled i h p t e e' →
  h.meter.lastTime = t ∧ shown 1000 M e ≠ 0 ∧ e'/M = e/M ∧
    ((shown 1000 M e' : Int)-shown 1000 M e)/(p.now-t) < 4294967296

-- The latch is set in no lower half, whichever reads have failed.
structure Kept (M : Nat) (last : Option (Int × Nat)) (d : RaplDomain) : Prop where
  known : RangeKnown M d
  half : d.halfWay = true → span 1000 M/2 ≤ d.energyCounter
  counter : ∀ t e, last = some (t,e) → d.energyCounter = shown 1000 M e

section Visits
variable {M seconds : Nat} {d : RaplDomain} {last : Option (Int × Nat)}

theorem ranged_kept (kept : Kept M last d) : Kept M last (ranged M d) := ⟨Or.inr ⟨rfl,rfl⟩,kept.half,kept.counter⟩

theorem sample_kept (now : Int) (e : Nat) :
    Kept M (some (now,e)) (sample seconds (e % M) (ranged M d)) := by
  obtain ⟨counter,range,threshold⟩ := sample_frame seconds (e % M) (ranged M d)
  refine ⟨Or.inr ⟨range,threshold⟩,?_,?_⟩
  · rw [counter]
    intro set
    by_contra low
    have under : e % M/1000 < (ranged M d).maxEnergyRangeThreshold := Nat.lt_of_not_le low
    cases half : (ranged M d).halfWay with
    | true => simp [(sample_wraps seconds half under).1] at set
    | false =>
      have upward : (ranged M d).halfWay = true → (ranged M d).maxEnergyRangeThreshold ≤ e % M/1000 := by simp [half]
      have onward := (sample_onward seconds upward).1
      rw [onward,half,Bool.false_or,decide_eq_true_iff] at set
      omega
  · rintro t e' same
    cases same
    exact counter

end Visits

section Runs
variable {range : Nat → Nat} {i : Nat} {h : History} {d : RaplDomain}

theorem advance_kept (p : Probe) (domain : h.meter.domainList[i]? = some d) (kept : Kept (range i) h.last d) :
    ∃ d', (advance range i h p).meter.domainList[i]? = some d' ∧ Kept (range i) (advance range i h p).last d' := by
  cases ready : due h.meter p.now with
  | false =>
    have idle : step h.meter (hardware range p) = h.meter := step_idle ready
    refine ⟨d,?_,?_⟩
    · rw [advance,idle]
      exact domain
    · simpa [advance,ready] using kept
  | true =>
    refine ⟨_,step_domain ready domain,?_⟩
    cases read : p.energy i with
    | none =>
      simp only [advance,hardware,ready,read,Option.map_none,Option.elim_none,if_true]
      rw [visit_failed kept.known]
      exact ranged_kept kept
    | some e =>
      simp only [advance,hardware,ready,read,Option.map_some,Option.elim_some,if_true]
      rw [visit_sample kept.known]
      exact sample_kept p.now e

theorem fresh_kept (unread : d.maxEnergyRange = 0) (unset : d.halfWay = false) : Kept (range i) none d := by
  refine ⟨Or.inl unread,?_,?_⟩
  · intro set
    rw [unset] at set
    cases set
  · intro t e same
    cases same

end Runs

section Slopes
variable {range : Nat → Nat} {i : Nat} {h : History} {d : RaplDomain} {p : Probe}

theorem quotient_exact {c c' seconds : Nat} (grows : c ≤ c') (fits : c' < 18446744073709551616)
    (small : (c'-c)/seconds < 4294967296) : quotient ((c' : Int)-c) seconds = (c'-c)/seconds := by
  unfold quotient
  rw [← Int.ofNat_sub grows,Int.emod_eq_of_lt (by omega) (by omega),Int.toNat_natCast]
  exact Nat.mod_eq_of_lt small

theorem steady_slope (domain : h.meter.domainList[i]? = some d) (kept : Kept (range i) h.last d)
    (fits : range i < 18446744073709551616) (paced : Paced (range i) i h p) (steady : Steady (range i) i h p) :
    Slope range i h p := by
  intro t e e' sampled d' after
  obtain ⟨grows,half⟩ := paced t e e' sampled
  obtain ⟨time,nonzero,lap,small⟩ := steady t e e' sampled
  have counted := kept.counter t e sampled.last
  have ahead : shown 1000 (range i) e ≤ shown 1000 (range i) e' := Nat.div_le_div_right (same_lap grows lap)
  have later : 0 < p.now-t := by
    have due := (Bool.and_eq_true_iff.mp sampled.due).2
    rw [← time]
    exact of_decide_eq_true due
  have sampling : (advance range i h p).meter.domainList[i]? =
      some (sample (p.now-t).toNat (e' % range i) (ranged (range i) d)) := by
    refine (step_domain sampled.due domain).trans ?_
    rw [← time,← visit_sample kept.known]
    simp only [hardware,sampled.read,Option.map_some]
  have onward : (ranged (range i) d).halfWay = true → (ranged (range i) d).maxEnergyRangeThreshold ≤ e' % range i/1000 := by
    intro set
    have low := kept.half set
    rw [counted] at low
    exact Nat.le_trans low ahead
  have power : d'.power = quotient ((shown 1000 (range i) e' : Int)-shown 1000 (range i) e) (p.now-t).toNat := by
    rw [sampling] at after
    cases after
    refine (sample_onward _ onward).2.2.trans ?_
    rw [if_pos (by simpa only [ranged,counted] using nonzero)]
    simp only [ranged,counted,shown]
  have positive : 0 < range i := Nat.zero_lt_of_lt half
  have inside : shown 1000 (range i) e' ≤ span 1000 (range i) := shown_le positive e'
  have seconds : ((p.now-t).toNat : Int) = p.now-t := Int.toNat_of_nonneg (Int.le_of_lt later)
  have remainder : ((shown 1000 (range i) e' : Int)-shown 1000 (range i) e) % span 1000 (range i) =
      (shown 1000 (range i) e' : Int)-shown 1000 (range i) e := Int.emod_eq_of_lt (by omega) (by omega)
  rw [power,remainder,quotient_exact ahead]
  · rw [Int.natCast_div,Int.ofNat_sub ahead,seconds]
  · unfold span at inside
    omega
  · have cast := small
    rw [← seconds,← Int.ofNat_sub ahead,← Int.natCast_div] at cast
    exact_mod_cast cast

theorem kept_slopes (probes : List Probe) (domain : h.meter.domainList[i]? = some d) (kept : Kept (range i) h.last d)
    (fits : range i < 18446744073709551616) (paced : Along range i (Paced (range i) i) h probes)
    (steady : Along range i (Steady (range i) i) h probes) : Along range i (Slope range i) h probes := by
  induction probes generalizing h d with
  | nil => exact trivial
  | cons p rest ih =>
    obtain ⟨d',after,next⟩ := advance_kept p domain kept
    exact ⟨steady_slope domain kept fits paced.1 steady.1,ih after next paced.2 steady.2⟩

theorem power_slopes (m : PowerMeter) (probes : List Probe) (domain : m.domainList[i]? = some d)
    (unread : d.maxEnergyRange = 0) (unset : d.halfWay = false) (fits : range i < 18446744073709551616)
    (paced : Along range i (Paced (range i) i) ⟨m,none⟩ probes)
    (steady : Along range i (Steady (range i) i) ⟨m,none⟩ probes) : Along range i (Slope range i) ⟨m,none⟩ probes :=
  kept_slopes probes domain (fresh_kept unread unset) fits paced steady

end Slopes

-- Three samples, and a call too early for one.
theorem power_slopes_three : Along (fun _ => 20000) 0 (Slope (fun _ => 20000) 0) ⟨idle,none⟩
    [⟨1,fun _ => some 5000⟩,⟨2,fun _ => some 9000⟩,⟨2,fun _ => none⟩,⟨4,fun _ => some 13000⟩] := by
  refine power_slopes idle _ rfl rfl rfl (by decide) ⟨?_,?_,?_,?_,trivial⟩ ⟨?_,?_,?_,?_,trivial⟩
  all_goals
    rintro t e e' ⟨due,read,last⟩
    cases read <;> cases last <;> decide

-- The counter starts over and the power stays that of the sample before.
theorem wrap_skips_power : ¬∀ (range : Nat → Nat) (i : Nat) (m : PowerMeter) (d : RaplDomain) (probes : List Probe),
    m.domainList[i]? = some d → d.maxEnergyRange = 0 → d.halfWay = false → range i < 18446744073709551616 →
    Along range i (Paced (range i) i) ⟨m,none⟩ probes → Along range i (Slope range i) ⟨m,none⟩ probes := by
  intro claim
  have slopes := claim (fun _ => 20000) 0 idle _
    [⟨1,fun _ => some 12000⟩,⟨2,fun _ => some 15000⟩,⟨3,fun _ => some 23000⟩] rfl rfl rfl (by decide) (by
      refine ⟨?_,?_,?_,trivial⟩
      all_goals
        rintro t e e' ⟨due,read,last⟩
        cases read
        cases last <;> decide)
  have power := slopes.2.2.1 2 15000 23000 ⟨rfl,rfl,rfl⟩ _ rfl
  revert power
  decide

end ChuwiMinibook.RaplSlope
