import ChuwiMinibook.GddvTables
import ChuwiMinibook.VirtualSensor

namespace ChuwiMinibook.VirtualPeriod
open VirtualSensor

-- The backward search of periodic_callback; 0 is no entry.
def searchPeriod (lastTemp : Int) : List PollingTableEntry → Int
  | [] => 0
  | entry::before => if lastTemp ≥ entry.virtualTemp then entry.samplePeriod else searchPeriod lastTemp before

def storePeriod (v : VirtualSensor) : VirtualSensor :=
  let period := searchPeriod v.lastTemp v.pollingTable.reverse
  if period ≠ 0 then {v with pollingPeriod := period} else v

-- One iteration of periodic_callback.
def periodicCallback (temps : Readings) (v : VirtualSensor) : VirtualSensor := storePeriod (update v temps)

-- thd_engine_init hands the entries of the vault to the sensor.
def withPollingTable (g : Vault) (v : VirtualSensor) : VirtualSensor :=
  g.vspts.foldl (fun v entry =>
    {v with pollingTable := v.pollingTable++[⟨entry.virtualTemp,entry.samplePeriod⟩]}) v

theorem withPollingTable_entries (g : Vault) (v : VirtualSensor) : (withPollingTable g v).pollingTable =
    v.pollingTable++g.vspts.map (fun entry => ⟨entry.virtualTemp,entry.samplePeriod⟩) := by
  unfold withPollingTable
  induction g.vspts generalizing v with
  | nil => simp
  | cons entry rest ih =>
    rw [List.foldl_cons,ih]
    simp

-- The entries whose temperature, in degrees, is at most a given one.
def reached (table : List PollingTableEntry) (temp : Int) : List PollingTableEntry :=
  table.filter (fun entry => entry.virtualTemp ≤ temp)

-- The period of the last entry reached, else the one before.
def periodAt (table : List PollingTableEntry) (temp previous : Int) : Int :=
  ((reached table temp).getLast?.map PollingTableEntry.samplePeriod).getD previous

-- The virtual temperature of one update in degrees, and the number that is then in
-- last_temp: only weighted sensors store theirs, in millidegrees.
def degrees (temps : Readings) (v : VirtualSensor) : Int :=
  match v.linkSensors with
  | [] => 0
  | first::_ =>
    if isDirect first then Pid.ofDouble (toInt (temps (first.sensor.getD 0))*v.multiplier+v.offset)/1000
    else roundedInt (v.linkSensors.map (fun l => l.coeff*average (linkTemp temps l) l)).sum

def stored (temps : Readings) (v : VirtualSensor) : Int :=
  match v.linkSensors with
  | [] => v.lastTemp
  | first::_ => if isDirect first then v.lastTemp else toInt (degrees temps v*1000)

theorem update_stored (temps : Readings) (v : VirtualSensor) : (update v temps).lastTemp = stored temps v := by
  cases links : v.linkSensors with
  | nil => rw [update_empty links,stored,links]
  | cons first rest =>
    cases mode : isDirect first with
    | true =>
      rw [update_direct links mode,stored,links]
      simp [mode]
    | false =>
      have sum := foldl_weighted (v.linkSensors.map (updateLink temps)) 0
      rw [zero_add,List.map_map] at sum
      have weighted : degrees temps v =
          roundedInt ((v.linkSensors.map (updateLink temps)).foldl (fun sum l => sum+l.coeff*l.prevAvg) 0) := by
        rw [sum,degrees,links]
        simp [mode,Function.comp_def,updateLink]
      rw [update,update_weighted links mode,stored,weighted,links]
      simp [mode]

-- The entries between two temperatures.
def between (table : List PollingTableEntry) (low high : Int) : List PollingTableEntry :=
  table.filter (fun entry => low < entry.virtualTemp ∧ entry.virtualTemp ≤ high)

section Search
variable {table : List PollingTableEntry}

-- The search finds the last entry reached, wherever it stands.
theorem searchPeriod_reverse (lastTemp : Int) : searchPeriod lastTemp table.reverse = periodAt table lastTemp 0 := by
  induction table using List.reverseRecOn with
  | nil => rfl
  | append_singleton table entry ih =>
    rw [List.reverse_append,List.reverse_singleton,List.singleton_append,searchPeriod,ih]
    unfold periodAt reached
    rw [List.filter_append]
    by_cases low : entry.virtualTemp ≤ lastTemp <;> simp [low]

theorem periodAt_zero_iff (periods : ∀ entry ∈ table,entry.samplePeriod ≠ 0) (temp : Int) :
    periodAt table temp 0 = 0 ↔ reached table temp = [] := by
  unfold periodAt
  cases last : (reached table temp).getLast? with
  | none => simpa using List.getLast?_eq_none_iff.mp last
  | some entry =>
    have listed := List.mem_of_getLast? last
    have inside := (List.mem_filter.mp listed).1
    have some : reached table temp ≠ [] := List.ne_nil_of_mem listed
    simp [periods entry inside,some]

theorem storePeriod_period {v : VirtualSensor} (periods : ∀ entry ∈ v.pollingTable,entry.samplePeriod ≠ 0) :
    (storePeriod v).pollingPeriod = periodAt v.pollingTable v.lastTemp v.pollingPeriod := by
  unfold storePeriod
  dsimp only
  rw [searchPeriod_reverse]
  by_cases none : reached v.pollingTable v.lastTemp = []
  · have zero := (periodAt_zero_iff periods v.lastTemp).mpr none
    rw [if_neg (by simp [zero])]
    simp [periodAt,none]
  · have some := fun zero => none ((periodAt_zero_iff periods v.lastTemp).mp zero)
    obtain ⟨entry,last⟩ := Option.ne_none_iff_exists'.mp (fun missing => none (List.getLast?_eq_none_iff.mp missing))
    rw [if_pos some]
    simp [periodAt,last]

-- In a table with increasing temperatures the entries reached grow at the end.
theorem reached_split (increasing : table.Pairwise (fun a b => a.virtualTemp < b.virtualTemp)) {low high : Int}
    (below : low ≤ high) : reached table high = reached table low++between table low high := by
  induction table with
  | nil => rfl
  | cons entry rest ih =>
    obtain ⟨first,later⟩ := List.pairwise_cons.mp increasing
    unfold reached between at ih ⊢
    by_cases here : entry.virtualTemp ≤ low
    · have up : entry.virtualTemp ≤ high := Int.le_trans here below
      have strict : ¬low < entry.virtualTemp := by omega
      simp [here,up,strict,ih later]
    · have none : rest.filter (fun entry => entry.virtualTemp ≤ low) = [] := by
        rw [List.filter_eq_nil_iff]
        intro other listed
        have above := first other listed
        simp
        omega
      have rest' := ih later
      rw [none,List.nil_append] at rest'
      have strict : low < entry.virtualTemp := by omega
      by_cases up : entry.virtualTemp ≤ high
      · simp [here,up,strict,none,rest']
      · simp [here,up,none,rest']

-- Two temperatures choose the same period when none or an equal one lies between.
theorem periodAt_same_iff (increasing : table.Pairwise (fun a b => a.virtualTemp < b.virtualTemp)) {low high : Int}
    (below : low ≤ high) (previous : Int) : periodAt table high previous = periodAt table low previous ↔
      ∀ entry,(between table low high).getLast? = some entry → entry.samplePeriod = periodAt table low previous := by
  have split := reached_split increasing below
  unfold periodAt at *
  rw [split,List.getLast?_append]
  cases (between table low high).getLast? with
  | none => simp
  | some entry => simp

end Search

theorem update_table (v : VirtualSensor) (temps : Readings) : (update v temps).pollingTable = v.pollingTable ∧
    (update v temps).pollingPeriod = v.pollingPeriod := by
  unfold update readTemperatureNow
  split
  · exact ⟨rfl,rfl⟩
  · split <;> exact ⟨rfl,rfl⟩

-- One iteration chooses by the stored number, not by the degrees.
theorem periodicCallback_period {v : VirtualSensor} (periods : ∀ entry ∈ v.pollingTable,entry.samplePeriod ≠ 0)
    (temps : Readings) : (periodicCallback temps v).pollingPeriod =
      periodAt v.pollingTable (stored temps v) v.pollingPeriod := by
  obtain ⟨table,period⟩ := update_table v temps
  rw [periodicCallback,storePeriod_period (by simpa only [table] using periods),table,period,update_stored]

-- The period follows the table exactly when no entry with another period lies
-- between the two numbers.
theorem period_follows_table_iff {v : VirtualSensor}
    (increasing : v.pollingTable.Pairwise (fun a b => a.virtualTemp < b.virtualTemp))
    (periods : ∀ entry ∈ v.pollingTable,entry.samplePeriod ≠ 0) (temps : Readings) :
    (periodicCallback temps v).pollingPeriod = periodAt v.pollingTable (degrees temps v) v.pollingPeriod ↔
      ∀ entry,(between v.pollingTable (min (degrees temps v) (stored temps v))
          (max (degrees temps v) (stored temps v))).getLast? = some entry →
        entry.samplePeriod =
          periodAt v.pollingTable (min (degrees temps v) (stored temps v)) v.pollingPeriod := by
  rw [periodicCallback_period periods]
  rcases Int.le_total (degrees temps v) (stored temps v) with up | down
  · rw [min_eq_left up,max_eq_right up]
    exact periodAt_same_iff increasing up v.pollingPeriod
  · rw [min_eq_right down,max_eq_left down,eq_comm]
    exact periodAt_same_iff increasing down v.pollingPeriod

-- A table of two entries, 40 and 60 degrees, and a sensor at 50 degrees.
def vsptVault : Vault := {Vault.new with vspts := [⟨40,30⟩,⟨60,5⟩]}

def warmSensor : VirtualSensor := withPollingTable vsptVault {weightedSensor with pollingPeriod := 100}

theorem later_entry_chosen : warmSensor.pollingTable = [⟨40,30⟩,⟨60,5⟩] ∧
    periodAt warmSensor.pollingTable (degrees fifty warmSensor) warmSensor.pollingPeriod = 30 ∧
    (periodicCallback fifty warmSensor).pollingPeriod = 5 ∧
    ¬(periodicCallback fifty warmSensor).pollingPeriod =
      periodAt warmSensor.pollingTable (degrees fifty warmSensor) warmSensor.pollingPeriod := by
  refine ⟨rfl,?_,?_,?_⟩ <;> decide +kernel

def seventy : Readings := fun _ => 70000

theorem period_follows_table_above : (periodicCallback seventy warmSensor).pollingPeriod =
    periodAt warmSensor.pollingTable (degrees seventy warmSensor) warmSensor.pollingPeriod := by
  have empty : between warmSensor.pollingTable (min (degrees seventy warmSensor) (stored seventy warmSensor))
      (max (degrees seventy warmSensor) (stored seventy warmSensor)) = [] := by decide +kernel
  refine (period_follows_table_iff (by decide) (by decide) seventy).mpr fun entry last => ?_
  rw [empty] at last
  cases last

end ChuwiMinibook.VirtualPeriod
