import ChuwiMinibook.Machine
import ChuwiMinibook.StdString
import Mathlib.Data.List.Range

namespace ChuwiMinibook.SensorIdentity
open Machine StdString

-- The members of cthd_sensor that the engine's tables of sensors use.
structure Sensor where
  index : Nat
  path : String
  typeStr : String
  virtualSensor : Bool
deriving DecidableEq

structure Registry where
  sensors : List Sensor
  currentSensorIndex : Nat
deriving DecidableEq

-- An entry thermal_zone<number> of the directory and what sensor_update finds in it.
structure ZoneEntry where
  number : Nat
  type : String
  updates : Bool
deriving DecidableEq

def zonePath (number : Nat) : String := "/sys/class/thermal/thermal_zone" ++ toString number ++ "/"

def maxIndex (listing : List ZoneEntry) : Nat :=
  listing.foldl (fun max_index entry => if entry.number > max_index then entry.number else max_index) 0

def zoneSensor (entry : ZoneEntry) : Sensor := ⟨entry.number,zonePath entry.number,entry.type,false⟩

def updated (listing : List ZoneEntry) : List ZoneEntry := listing.filter (·.updates)

def thdReadDefaultThermalSensors (listing : List ZoneEntry) : Registry :=
  let sensors := (updated listing).map zoneSensor
  ⟨sensors,if sensors.length = 0 then 0 else maxIndex listing+1⟩

def Registry.push (r : Registry) (path typeStr : String) (virtualSensor : Bool) : Registry :=
  ⟨r.sensors++[⟨r.currentSensorIndex,path,typeStr,virtualSensor⟩],r.currentSensorIndex+1⟩

-- The temp*_input files under one base path; a failed sensor_update ends the daemon.
structure Input where
  path : String
  updates : Bool
deriving DecidableEq

def readInputs (r : Registry) : List Input → Option Registry
  | [] => some r
  | input::rest => if input.updates then readInputs (r.push input.path "hwmon" false) rest else none

-- What read_thermal_sensors finds: the zones, the inputs under the two base paths, and
-- whether a RAPL power sensor is added for debugging. No XML configuration matches.
structure Hardware where
  listing : List ZoneEntry
  platform : List Input
  hwmon : List Input
  raplPower : Bool

def readThermalSensors (h : Hardware) : Option Registry :=
  let r := thdReadDefaultThermalSensors h.listing
  (readInputs r h.platform).bind (fun first =>
    -- "if (index != current_sensor_index) break;"
    (if first.currentSensorIndex ≠ r.currentSensorIndex then some first else readInputs first h.hwmon).map (fun second =>
      if h.raplPower then second.push "" "rapl_pkg_power" false else second))

inductive Request where
  | addSensor (name path : String) (updates : Bool)
  | addVirtualSensor (name depSensor : String)
deriving DecidableEq

def Registry.position (r : Registry) (name : String) : Option Nat := r.sensors.findIdx? (·.typeStr == name)

def userAddSensor (r : Registry) (name path : String) (updates : Bool) : Registry :=
  if ¬startsWith path "/sys/" then r
  else match r.position name with
    | some i => {r with sensors := r.sensors.modify i (fun sensor => {sensor with path := path})}
    | none => if updates then r.push path name false else r

-- The linked sensor and its parameters are no part of the table.
def userAddVirtualSensor (r : Registry) (name : String) : Registry :=
  match r.position name with
  | some _ => r
  | none => r.push "none" name true

def request (r : Registry) : Request → Registry
  | .addSensor name path updates => userAddSensor r name path updates
  | .addVirtualSensor name _ => userAddVirtualSensor r name

-- The slot whose sensor get_sensor returns, and the sensor in it.
def getSensor (r : Registry) (index : Nat) : Option (Nat × Sensor) :=
  (r.sensors[index]?).map (fun sensor => (index,sensor))

-- Every registered sensor is found again under its own index.
def Identified (r : Registry) : Prop :=
  ∀ slot sensor,r.sensors[slot]? = some sensor → getSensor r sensor.index = some (slot,sensor)

def Adds (r : Registry) : Request → Prop
  | .addSensor name path updates => startsWith path "/sys/" = true ∧ updates = true ∧ r.position name = none
  | .addVirtualSensor name _ => r.position name = none

instance (r : Registry) : (q : Request) → Decidable (Adds r q)
  | .addSensor _ _ _ => inferInstanceAs (Decidable (_ ∧ _ ∧ _))
  | .addVirtualSensor _ _ => inferInstanceAs (Decidable (_ = _))

def indices (r : Registry) : List Nat := r.sensors.map Sensor.index

theorem identified_iff (r : Registry) : Identified r ↔ indices r = List.range r.sensors.length := by
  constructor
  · intro identified
    apply List.ext_getElem (by simp [indices])
    intro slot bound _
    have inside : slot < r.sensors.length := by simpa [indices] using bound
    have found := identified slot r.sensors[slot] (List.getElem?_eq_getElem inside)
    simp only [getSensor,Option.map_eq_some_iff,Prod.mk.injEq] at found
    obtain ⟨_,-,same,-⟩ := found
    simpa [indices] using same
  · intro equal slot sensor present
    have place : (indices r)[slot]? = some sensor.index := by simp [indices,present]
    obtain ⟨inside,-⟩ := List.getElem?_eq_some_iff.mp present
    rw [equal,List.getElem?_range inside,Option.some.injEq] at place
    rw [getSensor,← place,present,Option.map_some]

-- The sensors added on the way from one table to a later one carry the numbers that follow.
structure Grown (r later : Registry) (added : Nat) : Prop where
  numbers : indices later = indices r++List.range' r.currentSensorIndex added
  next : later.currentSensorIndex = r.currentSensorIndex+added

theorem Grown.refl (r : Registry) : Grown r r 0 := ⟨by simp,rfl⟩

theorem Grown.trans {r middle later : Registry} {first second : Nat} (early : Grown r middle first)
    (late : Grown middle later second) : Grown r later (first+second) := by
  refine ⟨?_,?_⟩
  · rw [late.numbers,early.numbers,early.next,List.append_assoc,List.range'_append_1]
  · rw [late.next,early.next,Nat.add_assoc]

theorem grown_push (r : Registry) (path typeStr : String) (virtualSensor : Bool) :
    Grown r (r.push path typeStr virtualSensor) 1 :=
  ⟨by simp [indices,Registry.push],rfl⟩

theorem indices_modify (r : Registry) (i : Nat) (path : String) :
    indices {r with sensors := r.sensors.modify i (fun sensor => {sensor with path := path})} = indices r := by
  simp only [indices]
  apply List.ext_getElem?
  intro slot
  rw [List.getElem?_map,List.getElem?_map,List.getElem?_modify]
  cases r.sensors[slot]? with
  | none => rfl
  | some sensor => by_cases here : i = slot <;> simp [here]

theorem grown_readInputs {inputs : List Input} {r later : Registry} (done : readInputs r inputs = some later) :
    Grown r later inputs.length := by
  induction inputs generalizing r with
  | nil =>
    obtain rfl : r = later := by simpa [readInputs] using done
    exact Grown.refl r
  | cons input rest ih =>
    rw [readInputs] at done
    split at done
    · have joined := (grown_push r input.path "hwmon" false).trans (ih done)
      rwa [Nat.add_comm] at joined
    · cases done

theorem grown_adds {r : Registry} {q : Request} (adds : Adds r q) : Grown r (request r q) 1 := by
  cases q with
  | addSensor name path updates =>
    obtain ⟨allowed,works,free⟩ := adds
    simpa [request,userAddSensor,allowed,works,free] using grown_push r path name false
  | addVirtualSensor name depSensor =>
    change r.position name = none at adds
    simpa [request,userAddVirtualSensor,adds] using grown_push r "none" name true

theorem grown_idle {r : Registry} {q : Request} (idle : ¬Adds r q) : Grown r (request r q) 0 := by
  cases q with
  | addSensor name path updates =>
    simp only [request,userAddSensor]
    split
    · exact Grown.refl r
    · rename_i allowed
      split
      · rename_i i place
        exact ⟨by rw [indices_modify]; simp,rfl⟩
      · rename_i free
        split
        · rename_i works
          exact absurd ⟨by simpa using allowed,works,free⟩ idle
        · exact Grown.refl r
  | addVirtualSensor name depSensor =>
    simp only [request,userAddVirtualSensor]
    split
    · exact Grown.refl r
    · rename_i free
      exact absurd free idle

theorem grown_run (r : Registry) (requests : List Request) : ∃ added,Grown r (run request r requests) added ∧
    (added = 0 ↔ Meets request (fun r q => ¬Adds r q) r requests) := by
  induction requests generalizing r with
  | nil => exact ⟨0,Grown.refl r,by simp [Meets]⟩
  | cons q rest ih =>
    obtain ⟨added,grown,quiet⟩ := ih (request r q)
    by_cases adds : Adds r q
    · exact ⟨1+added,(grown_adds adds).trans grown,by simp [Meets,adds]⟩
    · exact ⟨0+added,(grown_idle adds).trans grown,by simpa [Meets,adds] using quiet⟩

-- No sensor is registered behind those of the thermal zones.
def Alone (h : Hardware) : Prop := h.platform = [] ∧ h.hwmon = [] ∧ h.raplPower = false

theorem grown_readThermalSensors {h : Hardware} {r : Registry} (start : readThermalSensors h = some r) :
    ∃ added,Grown (thdReadDefaultThermalSensors h.listing) r added ∧ (added = 0 ↔ Alone h) := by
  simp only [readThermalSensors,Option.bind_eq_some_iff,Option.map_eq_some_iff] at start
  obtain ⟨first,platform,second,hwmon,rfl⟩ := start
  have early := grown_readInputs platform
  have inputs : ∃ added,Grown (thdReadDefaultThermalSensors h.listing) second added ∧
      (added = 0 ↔ h.platform = [] ∧ h.hwmon = []) := by
    by_cases moved : first.currentSensorIndex ≠ (thdReadDefaultThermalSensors h.listing).currentSensorIndex
    · rw [if_pos moved,Option.some.injEq] at hwmon
      have some_read : h.platform ≠ [] := by
        intro empty
        rw [early.next,empty] at moved
        exact moved rfl
      exact ⟨h.platform.length,hwmon ▸ early,by simp [some_read]⟩
    · rw [if_neg moved] at hwmon
      refine ⟨_,early.trans (grown_readInputs hwmon),?_⟩
      rw [Nat.add_eq_zero_iff,List.length_eq_zero_iff,List.length_eq_zero_iff]
  obtain ⟨added,grown,none_read⟩ := inputs
  by_cases rapl : h.raplPower = true
  · rw [if_pos rapl]
    exact ⟨added+1,grown.trans (grown_push _ _ _ _),by simp [Alone,rapl]⟩
  · rw [if_neg rapl]
    refine ⟨added,grown,none_read.trans ?_⟩
    simp [Alone,rapl]

theorem range'_inj {start other count : Nat} :
    List.range' start count = List.range' other count ↔ count = 0 ∨ start = other := by
  constructor
  · intro equal
    cases count with
    | zero => exact .inl rfl
    | succ count =>
      rw [List.range'_succ,List.range'_succ,List.cons.injEq] at equal
      exact .inr equal.1
  · rintro (rfl | rfl) <;> rfl

theorem identified_grown {r later : Registry} {added : Nat} (grown : Grown r later added) :
    Identified later ↔ Identified r ∧ (added = 0 ∨ r.currentSensorIndex = r.sensors.length) := by
  have size : later.sensors.length = r.sensors.length+added := by
    have lengths := congrArg List.length grown.numbers
    simpa [indices] using lengths
  have split : List.range (r.sensors.length+added) =
      List.range r.sensors.length++List.range' r.sensors.length added := by
    rw [List.range_eq_range',List.range_eq_range',← List.range'_append_1,Nat.zero_add]
  rw [identified_iff,identified_iff,grown.numbers,size,split,← range'_inj]
  constructor
  · intro equal
    exact List.append_inj equal (by simp [indices])
  · intro given
    obtain ⟨old,new⟩ := given
    rw [old,new]

theorem maxIndex_le (listing : List ZoneEntry) (start bound : Nat) :
    listing.foldl (fun top entry => if entry.number > top then entry.number else top) start ≤ bound ↔
      start ≤ bound ∧ ∀ entry ∈ listing,entry.number ≤ bound := by
  induction listing generalizing start with
  | nil => simp
  | cons entry rest ih =>
    rw [List.foldl_cons,ih,List.forall_mem_cons]
    split
    · rename_i larger
      constructor
      · exact fun both => ⟨by omega,both⟩
      · exact fun both => both.2
    · rename_i smaller
      constructor
      · exact fun both => ⟨both.1,by omega,both.2⟩
      · exact fun both => ⟨both.1,both.2.2⟩

-- The zones with a sensor are numbered from 0 in the order of the directory.
def InOrder (listing : List ZoneEntry) : Prop :=
  (updated listing).map ZoneEntry.number = List.range (updated listing).length

theorem identified_zones (listing : List ZoneEntry) :
    Identified (thdReadDefaultThermalSensors listing) ↔ InOrder listing := by
  rw [identified_iff]
  simp [indices,thdReadDefaultThermalSensors,InOrder,zoneSensor,Function.comp_def]

-- Behind numbered zones, the next index is the next position unless a zone
-- without a sensor, or with a higher number, comes first.
theorem index_follows {listing : List ZoneEntry} (order : InOrder listing) :
    (thdReadDefaultThermalSensors listing).currentSensorIndex = (thdReadDefaultThermalSensors listing).sensors.length ↔
      updated listing = [] ∨ ∀ entry ∈ listing,entry.number < (updated listing).length := by
  simp only [thdReadDefaultThermalSensors,List.length_map]
  by_cases empty : updated listing = []
  · simp [empty]
  · have some_zone : (updated listing).length ≠ 0 := fun zero => empty (List.length_eq_zero_iff.mp zero)
    rw [if_neg some_zone,or_iff_right empty]
    have bounds := maxIndex_le listing 0
    constructor
    · intro equal entry listed
      have below := ((bounds _).mp (Nat.le_refl _)).2 entry listed
      rw [← maxIndex] at below
      omega
    · intro all
      have above := (bounds ((updated listing).length-1)).mpr ⟨Nat.zero_le _,fun entry listed => by
        have := all entry listed
        omega⟩
      rw [← maxIndex] at above
      have last : (updated listing).length-1 ∈ (updated listing).map ZoneEntry.number := by
        rw [order,List.mem_range]
        omega
      obtain ⟨entry,present,number⟩ := List.mem_map.mp last
      have below := ((bounds _).mp (Nat.le_refl _)).2 entry (List.mem_filter.mp present).1
      rw [← maxIndex] at below
      omega

theorem sensors_identified_iff {h : Hardware} {r : Registry} (start : readThermalSensors h = some r)
    (requests : List Request) :
    Identified (run request r requests) ↔ InOrder h.listing ∧
      (updated h.listing = [] ∨ (∀ entry ∈ h.listing,entry.number < (updated h.listing).length) ∨
        (Alone h ∧ Meets request (fun r q => ¬Adds r q) r requests)) := by
  obtain ⟨first,grown,alone⟩ := grown_readThermalSensors start
  obtain ⟨second,later,quiet⟩ := grown_run r requests
  rw [identified_grown (grown.trans later),identified_zones,Nat.add_eq_zero_iff,alone,quiet]
  apply and_congr_right
  intro order
  rw [index_follows order,or_comm,or_assoc]

-- The directory lists zone 1 before zone 0, as readdir may.
def swapped : Hardware := ⟨[⟨1,"x86_pkg_temp",true⟩,⟨0,"acpitz",true⟩],[],[],false⟩

theorem sensor_taken_for_another : ∃ r,readThermalSensors swapped = some r ∧ ¬Identified r := by
  refine ⟨_,rfl,?_⟩
  intro identified
  exact absurd (identified 0 ⟨1,zonePath 1,"x86_pkg_temp",false⟩ rfl) (by decide)

-- Zones 0 and 1 in order, one coretemp input and one sensor of the user.
def ordered : Hardware :=
  ⟨[⟨0,"acpitz",true⟩,⟨1,"x86_pkg_temp",true⟩],[⟨"/sys/devices/platform/coretemp.0/temp1_input",true⟩],[],false⟩

theorem sensors_identified_in_order : ∃ r,readThermalSensors ordered = some r ∧
    Identified (run request r [.addSensor "skin" "/sys/class/hwmon/hwmon3/temp1_input" true]) := by
  refine ⟨_,rfl,(sensors_identified_iff (h := ordered) rfl _).mpr ⟨rfl,.inr (.inl (by decide))⟩⟩

end ChuwiMinibook.SensorIdentity
