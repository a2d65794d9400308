import ChuwiMinibook.RaplPowerMeter
import ChuwiMinibook.WrappedCounter
import Mathlib.Data.List.Range

namespace ChuwiMinibook.RaplEnergy
open Machine RaplPowerMeter WrappedCounter

-- A call at a time when the domains have used some energies, in microjoules since
-- their counters were last 0 before the run, and every file can be read. The
-- counter of a domain starts over at its range. The loop is called by itself or
-- for a question after the energy of a type.
structure Tick where
  now : Int
  energy : Nat → Nat
  asked : Option DomainType

def hardware (range : Nat → Nat) (t : Tick) : Call := ⟨t.now,fun i => ⟨some (range i),some (t.energy i % range i)⟩⟩

def tick (range : Nat → Nat) (m : PowerMeter) (t : Tick) : PowerMeter :=
  match t.asked with
  | none => step m (hardware range t)
  | some type => (raplActionGetEnergy (hardware range t) type m).1

-- The calls that come after a second or more, and so take samples; a question is
-- one of them only where nothing has been counted.
def taken (m : PowerMeter) (t : Tick) : Bool := t.asked.all (countsNothing m) && due m t.now

def samples (range : Nat → Nat) : PowerMeter → List Tick → List Tick
  | _,[] => []
  | m,t::rest => if taken m t then t::samples range (tick range m t) rest else samples range (tick range m t) rest

def energies (range : Nat → Nat) (m : PowerMeter) (i : Nat) (ticks : List Tick) : List Nat :=
  (samples range m ticks).map (·.energy i)

structure Fresh (d : RaplDomain) : Prop where
  range : d.maxEnergyRange = 0
  half : d.halfWay = false
  counter : d.energyCounter = 0
  cumulative : d.energyCumulativeCounter = 0

-- The state of a domain whose last sample was taken at some energy. The latch is
-- set exactly in the upper half of a lap.
structure Tracks (M e : Nat) (d : RaplDomain) : Prop where
  range : d.maxEnergyRange = span 1000 M
  threshold : d.maxEnergyRangeThreshold = span 1000 M/2
  counter : d.energyCounter = shown 1000 M e
  cumulative : d.energyCumulativeCounter = uint64 (e/M*span 1000 M)
  half : d.halfWay = decide (span 1000 M/2 < shown 1000 M e)

section Visits
variable {M e e' seconds : Nat} {d : RaplDomain}

theorem visit_fresh (fresh : Fresh d) (first : e < M) : Tracks M e (visit seconds ⟨some M,some (e % M)⟩ d) := by
  obtain ⟨counter,range,threshold⟩ := sample_frame seconds (e % M) (ranged M d)
  have onward : (ranged M d).halfWay = true → (ranged M d).maxEnergyRangeThreshold ≤ e % M/1000 := by
    simp [ranged,fresh.half]
  obtain ⟨half,cumulative,-⟩ := sample_onward seconds onward
  rw [visit_sample (Or.inl fresh.range)]
  refine ⟨range,threshold,counter,?_,?_⟩
  · refine cumulative.trans ?_
    simp [ranged,fresh.cumulative,Nat.div_eq_of_lt first,uint64]
  · refine half.trans ?_
    change (d.halfWay || decide (span 1000 M/2 < shown 1000 M e)) = decide (span 1000 M/2 < shown 1000 M e)
    rw [fresh.half,Bool.false_or]

theorem visit_tracks (tracks : Tracks M e d) (grows : e ≤ e') (near : e'+1000 < e+1000*(span 1000 M/2)) :
    Tracks M e' (visit seconds ⟨some M,some (e' % M)⟩ d) := by
  obtain ⟨counter,range,threshold⟩ := sample_frame seconds (e' % M) (ranged M d)
  rw [visit_sample (Or.inr ⟨tracks.range,tracks.threshold⟩)]
  rcases next_lap grows near with same | next
  · have ahead : shown 1000 M e ≤ shown 1000 M e' := Nat.div_le_div_right (same_lap grows same)
    have onward : (ranged M d).halfWay = true → (ranged M d).maxEnergyRangeThreshold ≤ e' % M/1000 := by
      intro set
      have above := of_decide_eq_true (tracks.half.symm.trans set)
      exact Nat.le_trans (Nat.le_of_lt above) ahead
    obtain ⟨half,cumulative,-⟩ := sample_onward seconds onward
    refine ⟨range,threshold,counter,?_,?_⟩
    · rw [cumulative,same]
      exact tracks.cumulative
    · rw [half]
      change (d.halfWay || decide (span 1000 M/2 < shown 1000 M e')) = decide (span 1000 M/2 < shown 1000 M e')
      rw [tracks.half]
      by_cases set : span 1000 M/2 < shown 1000 M e
      · simp [set,Nat.lt_of_lt_of_le set ahead]
      · simp [set]
  · obtain ⟨upper,lower⟩ := lap_crossed grows near next
    have set : (ranged M d).halfWay = true := tracks.half.trans (decide_eq_true upper)
    have under : e' % M/1000 < (ranged M d).maxEnergyRangeThreshold := lower
    obtain ⟨half,-,cumulative⟩ := sample_wraps seconds set under
    refine ⟨range,threshold,counter,?_,?_⟩
    · rw [cumulative]
      change uint64 (d.energyCumulativeCounter+span 1000 M) = uint64 (e'/M*span 1000 M)
      rw [tracks.cumulative,next,Nat.add_one_mul]
      exact Nat.mod_add_mod _ _ _
    · rw [half]
      exact (decide_eq_false (by omega)).symm

end Visits

section Runs
variable {range : Nat → Nat} {m : PowerMeter} {i e M : Nat} {d : RaplDomain}

def run (range : Nat → Nat) (m : PowerMeter) (ticks : List Tick) : PowerMeter := ticks.foldl (tick range) m

theorem tick_idle {t : Tick} (early : taken m t = false) : tick range m t = m := by
  unfold tick
  cases asked : t.asked with
  | none =>
    rw [taken,asked] at early
    exact step_idle early
  | some type =>
    dsimp only
    rw [energy_calls]
    rw [taken,asked,Option.all_some] at early
    rcases Bool.and_eq_false_iff.mp early with counted | early
    · rw [counted]
      rfl
    · rw [step_idle early,ite_self]

theorem tick_taken {t : Tick} (ready : taken m t = true) :
    due m t.now = true ∧ tick range m t = step m (hardware range t) := by
  obtain ⟨asks,due⟩ := Bool.and_eq_true_iff.mp ready
  refine ⟨due,?_⟩
  unfold tick
  cases asked : t.asked with
  | none => rfl
  | some type =>
    dsimp only
    rw [asked,Option.all_some] at asks
    rw [energy_calls,if_pos asks]

theorem tick_domain {t : Tick} (ready : taken m t = true) (domain : m.domainList[i]? = some d) :
    (tick range m t).domainList[i]? =
      some (visit (t.now-m.lastTime).toNat ⟨some (range i),some (t.energy i % range i)⟩ d) := by
  obtain ⟨later,stepped⟩ := @tick_taken range m t ready
  rw [stepped]
  exact step_domain later domain

theorem energies_idle {t : Tick} {rest : List Tick} (early : taken m t = false) :
    energies range m i (t :: rest) = energies range m i rest := by
  have idle : tick range m t = m := tick_idle early
  simp [energies,samples,early,idle]

theorem energies_due {t : Tick} {rest : List Tick} (ready : taken m t = true) :
    energies range m i (t :: rest) = t.energy i :: energies range (tick range m t) i rest := by
  simp [energies,samples,ready]

theorem energies_append (range : Nat → Nat) (m : PowerMeter) (i : Nat) (ticks later : List Tick) :
    energies range m i (ticks++later) = energies range m i ticks++energies range (run range m ticks) i later := by
  induction ticks generalizing m with
  | nil => rfl
  | cons t rest ih =>
    cases ready : taken m t with
    | false =>
      have idle : tick range m t = m := tick_idle ready
      rw [List.cons_append,energies_idle ready,energies_idle ready,ih,run,run,List.foldl_cons,idle]
    | true =>
      rw [List.cons_append,energies_due ready,energies_due ready,ih]
      rfl

-- What a sample may have used since the sample before it.
def Near (M e e' : Nat) : Prop := e ≤ e' ∧ e'+1000 < e+1000*(span 1000 M/2)

instance : DecidableRel (Near M) := fun _ _ => inferInstanceAs (Decidable (_ ∧ _))

theorem run_tracks (ticks : List Tick) (domain : m.domainList[i]? = some d) (tracks : Tracks (range i) e d)
    (near : (e :: energies range m i ticks).IsChain (Near (range i))) :
    ∃ d', (run range m ticks).domainList[i]? = some d' ∧ Tracks (range i) ((energies range m i ticks).getLastD e) d' ∧
      e ≤ (energies range m i ticks).getLastD e := by
  induction ticks generalizing m e d with
  | nil => exact ⟨d,domain,tracks,Nat.le_refl _⟩
  | cons t rest ih =>
    cases ready : taken m t with
    | false =>
      have idle : tick range m t = m := tick_idle ready
      rw [energies_idle ready] at near ⊢
      obtain ⟨d',after,tracked⟩ := ih domain tracks near
      refine ⟨d',?_,tracked⟩
      rw [run,List.foldl_cons,idle]
      exact after
    | true =>
      rw [energies_due ready] at near ⊢
      rw [List.isChain_cons_cons] at near
      obtain ⟨⟨grows,close⟩,remaining⟩ := near
      obtain ⟨d',after,tracked,above⟩ := ih (tick_domain ready domain) (visit_tracks tracks grows close) remaining
      rw [List.getLastD_cons]
      exact ⟨d',after,tracked,Nat.le_trans grows above⟩

-- Before its first sample a domain is as it was.
theorem run_fresh (ticks : List Tick) (domain : m.domainList[i]? = some d) (fresh : Fresh d)
    (first : ∀ e ∈ (energies range m i ticks).head?, e < range i)
    (near : (energies range m i ticks).IsChain (Near (range i))) :
    ∃ d', (run range m ticks).domainList[i]? = some d' ∧
      ((energies range m i ticks = [] ∧ d' = d) ∨
        ∃ e, (energies range m i ticks).getLast? = some e ∧ Tracks (range i) e d') := by
  induction ticks with
  | nil => exact ⟨d,domain,Or.inl ⟨rfl,rfl⟩⟩
  | cons t rest ih =>
    cases ready : taken m t with
    | false =>
      have idle : tick range m t = m := tick_idle ready
      rw [energies_idle ready] at first near ⊢
      rw [run,List.foldl_cons,idle]
      exact ih first near
    | true =>
      rw [energies_due ready] at first near ⊢
      obtain ⟨d',after,tracked,-⟩ :=
        run_tracks rest (tick_domain ready domain) (visit_fresh fresh (first _ rfl)) near
      refine ⟨d',after,Or.inr ⟨_,?_,tracked⟩⟩
      rw [List.getLast?_cons,List.getLastD_eq_getLast?]

end Runs

section Totals
variable {M e : Nat} {d : RaplDomain}

theorem reported_fresh (fresh : Fresh d) : reported d = 0 := by
  rw [reported,fresh.counter,fresh.cumulative]
  rfl

theorem reported_tracks (tracks : Tracks M e d) : reported d = uint64 (total 1000 M e) := by
  unfold reported uint64
  rw [tracks.counter,tracks.cumulative,uint64,Nat.add_mod_mod]
  rfl

theorem reported_total (tracks : Tracks M e d) (small : e < 1000*18446744073709551616) : reported d = total 1000 M e := by
  have behind := total_le (u := 1000) (M := M) e
  rw [reported_tracks tracks]
  exact Nat.mod_eq_of_lt (by omega)

theorem cumulative_exact (tracks : Tracks M e d) (small : e < 1000*18446744073709551616) :
    d.energyCumulativeCounter = e/M*(M/1000) := by
  have behind := total_le (u := 1000) (M := M) e
  rw [tracks.cumulative]
  refine Nat.mod_eq_of_lt ?_
  unfold total at behind
  omega

end Totals

section Accounts
variable {range : Nat → Nat} {m : PowerMeter} {i : Nat} {d : RaplDomain} {ticks : List Tick}

-- From a sample on the reported total does not fall.
theorem reported_grows {e : Nat} {old new : RaplDomain} (domain : m.domainList[i]? = some old) (tracks : Tracks (range i) e old)
    (near : (e :: energies range m i ticks).IsChain (Near (range i))) (bound : e < 1000*18446744073709551616)
    (small : ∀ e' ∈ energies range m i ticks, e' < 1000*18446744073709551616)
    (after : (run range m ticks).domainList[i]? = some new) : reported old ≤ reported new := by
  obtain ⟨new',after',tracked,above⟩ := run_tracks ticks domain tracks near
  rw [after'] at after
  cases after
  have further : (energies range m i ticks).getLastD e < 1000*18446744073709551616 := by
    rcases List.mem_cons.mp List.getLastD_mem_cons with still | moved
    · rw [still]
      exact bound
    · exact small _ moved
  rw [reported_total tracks bound,reported_total tracked further]
  exact total_mono above

-- The lap of the energy of the last sample is the number of wraps.
theorem energy_accounted (domain : m.domainList[i]? = some d) (fresh : Fresh d)
    (first : ∀ e ∈ (energies range m i ticks).head?, e < range i)
    (near : (energies range m i ticks).IsChain (Near (range i)))
    (small : ∀ e ∈ energies range m i ticks, e < 1000*18446744073709551616) :
    ∀ before, before <+: ticks → ∃ old new,
      (run range m before).domainList[i]? = some old ∧ (run range m ticks).domainList[i]? = some new ∧
      reported old ≤ reported new ∧
      ∀ e, (energies range m i ticks).getLast? = some e →
        new.energyCumulativeCounter = e/range i*(range i/1000) ∧
        1000*reported new ≤ e ∧ e < 1000*(reported new+e/range i+1) := by
  rintro before ⟨later,rfl⟩
  have split := energies_append range m i before later
  have whole : run range m (before++later) = run range (run range m before) later := List.foldl_append
  obtain ⟨new,after,reached⟩ := run_fresh (before++later) domain fresh first near
  rw [split] at first near small
  have start : ∀ e ∈ (energies range m i before).head?, e < range i := by
    intro e head
    refine first e ?_
    rw [List.head?_append,Option.mem_def.mp head]
    rfl
  have part : (energies range m i before).IsChain (Near (range i)) := (List.isChain_append.mp near).1
  obtain ⟨old,half,started⟩ := run_fresh before domain fresh start part
  refine ⟨old,new,half,after,?_,?_⟩
  · rcases started with ⟨none,rfl⟩ | ⟨e,last,tracks⟩
    · rw [reported_fresh fresh]
      exact Nat.zero_le _
    · have present := List.mem_of_getLast? last
      obtain ⟨front,shape⟩ := List.getLast?_eq_some_iff.mp last
      rw [shape,List.append_assoc,List.singleton_append] at near
      rw [whole] at after
      exact reported_grows half tracks (List.isChain_append.mp near).2.1 (small _ (List.mem_append_left _ present))
        (fun e' member => small _ (List.mem_append_right _ member)) after
  · intro e last
    rcases reached with ⟨none,-⟩ | ⟨e',last',tracks⟩
    · rw [none] at last
      cases last
    · rw [last] at last'
      cases last'
      rw [split] at last
      have bound := small e (List.mem_of_getLast? last)
      rw [reported_total tracks bound]
      exact ⟨cumulative_exact tracks bound,total_le e,lt_total (by decide) e⟩

end Accounts

-- A sample for a question, one more in the first lap, a call too early for one, a
-- question that the counters answer, and two more samples.
theorem energy_accounted_wrap : let used := fun (now : Int) (e : Nat) => Tick.mk now (fun _ => e) none
    let asked := fun (now : Int) (e : Nat) => Tick.mk now (fun _ => e) (some .package)
    let ticks := [asked 1 3000,used 2 6500,used 2 6600,asked 3 7000,used 3 9800,used 4 12000]
    ∃ old new,
      (run (fun _ => 10000) idle [asked 1 3000]).domainList[0]? = some old ∧
      (run (fun _ => 10000) idle ticks).domainList[0]? = some new ∧
      reported old ≤ reported new ∧
      ∀ e, (energies (fun _ => 10000) idle 0 ticks).getLast? = some e →
        new.energyCumulativeCounter = e/10000*(10000/1000) ∧
        1000*reported new ≤ e ∧ e < 1000*(reported new+e/10000+1) :=
  @energy_accounted (fun _ => 10000) idle 0 _ _ rfl ⟨rfl,rfl,rfl,rfl⟩
    (by decide) (by decide) (by decide) _ (List.prefix_append [_] _)

-- A domain that uses 4·10^18 microjoules each second.
def surge (k : Nat) : Tick := ⟨k+1,fun _ => k*4000000000000000000,none⟩

def wide : Nat → Nat := fun _ => 9223372036854775807

theorem surge_tick (range : Nat → Nat) (m : PowerMeter) (k : Nat) :
    tick range m (surge k) = step m (hardware range (surge k)) := rfl

theorem surge_run (n : Nat) : (run wide idle ((List.range n).map surge)).lastTime = n ∧
    (run wide idle ((List.range n).map surge)).enableMeasurement = true := by
  induction n with
  | zero => exact ⟨rfl,rfl⟩
  | succ n ih =>
    obtain ⟨time,enabled⟩ := ih
    unfold run at time enabled ⊢
    rw [List.range_succ,List.map_append,List.foldl_append,List.map_singleton,List.foldl_cons,List.foldl_nil]
    rw [surge_tick]
    refine ⟨?_,by rw [step_enabled,enabled]⟩
    have ready : due ((List.range n).map surge |>.foldl (tick wide) idle) (surge n).now = true := by
      rw [due,enabled,time]
      simp [surge]
    rw [step_due ready]
    simp [surge,hardware]

theorem surge_energies (n : Nat) : energies wide idle 0 ((List.range n).map surge) =
    (List.range n).map (· * 4000000000000000000) := by
  induction n with
  | zero => rfl
  | succ n ih =>
    obtain ⟨time,enabled⟩ := surge_run n
    have ready : taken (run wide idle ((List.range n).map surge)) (surge n) = true := by
      rw [taken,due,enabled,time]
      simp [surge]
    rw [List.range_succ,List.map_append,energies_append,ih,List.map_append,List.map_singleton,List.map_singleton]
    rw [energies,samples,if_pos ready]
    rfl

theorem surge_first (n : Nat) : ∀ e ∈ (energies wide idle 0 ((List.range n).map surge)).head?, e < wide 0 := by
  intro e head
  rw [surge_energies] at head
  cases n with
  | zero => cases head
  | succ n =>
    rw [List.range_succ_eq_map,List.map_cons,List.head?_cons,Option.mem_some_iff,Nat.zero_mul] at head
    rw [← head]
    decide

theorem surge_near (n : Nat) : (energies wide idle 0 ((List.range n).map surge)).IsChain (Near (wide 0)) := by
  rw [surge_energies,List.isChain_map,List.isChain_range]
  intro k _
  simp only [Near,span,wide]
  omega

theorem idle_fresh : Fresh ⟨.package,0,0,false,0,0,0,0,0⟩ := ⟨rfl,rfl,rfl,rfl⟩

theorem surge_reported (n : Nat) : ∃ d, (run wide idle ((List.range (n+1)).map surge)).domainList[0]? = some d ∧
    reported d = uint64 (total 1000 (wide 0) (n*4000000000000000000)) := by
  have last : (energies wide idle 0 ((List.range (n+1)).map surge)).getLast? = some (n*4000000000000000000) := by
    rw [surge_energies,List.range_succ,List.map_append,List.map_singleton,List.getLast?_concat]
  obtain ⟨d,domain,started⟩ := run_fresh _ rfl idle_fresh (surge_first (n+1)) (surge_near (n+1))
  refine ⟨d,domain,?_⟩
  rcases started with ⟨none,-⟩ | ⟨e,final,tracks⟩
  · rw [none] at last
    cases last
  · rw [last] at final
    cases final
    exact reported_tracks tracks

-- After 4612 seconds the total has passed 2^64 millijoules and starts over.
theorem total_starts_over : ¬∀ (range : Nat → Nat) (m : PowerMeter) (i : Nat) (d : RaplDomain) (ticks : List Tick),
    m.domainList[i]? = some d → Fresh d → (∀ e ∈ (energies range m i ticks).head?, e < range i) →
    (energies range m i ticks).IsChain (Near (range i)) →
    ∀ before, before <+: ticks → ∀ old new,
      (run range m before).domainList[i]? = some old → (run range m ticks).domainList[i]? = some new →
      reported old ≤ reported new := by
  intro claim
  have rises : ∀ n, uint64 (total 1000 (wide 0) (n*4000000000000000000)) ≤
      uint64 (total 1000 (wide 0) ((n+1)*4000000000000000000)) := by
    intro n
    obtain ⟨old,before,low⟩ := surge_reported n
    obtain ⟨new,after,high⟩ := surge_reported (n+1)
    have next : (List.range (n+1)).map surge <+: (List.range (n+1+1)).map surge :=
      ⟨[surge (n+1)],by rw [List.range_succ (n := n+1),List.map_append,List.map_singleton]⟩
    rw [← low,← high]
    exact claim wide idle 0 _ _ rfl idle_fresh (surge_first _) (surge_near _) _ next old new before after
  have falls := rises 4611
  revert falls
  decide

end ChuwiMinibook.RaplEnergy
