import ChuwiMinibook.AdaptiveEngine
import ChuwiMinibook.PollingTrips

namespace ChuwiMinibook

namespace Zone

variable (srt : StdSort) (typeOf : Nat → String) (sensors : List Sensor)

-- What read_cdev_trip_points attaches: a binding by the index of its trip.
def attach (trips : List TripPoint) (links : List (Nat × TripPtCdev)) : List TripPoint :=
  links.foldl (fun trips link => trips.modify link.1 (fun t => TripPoint.tripCdevAdd srt typeOf t link.2)) trips

-- zone_update for the trips that read_trip_points appends; none is an index
-- past the end in update_highest_trip_temp.
def zoneUpdate (z : Zone) (fresh : List TripPoint) (usrPsvTemp : Int) (links : List (Nat × TripPtCdev)) : Option Zone :=
  let z := {z with tripPoints := z.tripPoints ++ fresh}
  let updated := if usrPsvTemp > 0 then
      updateHighestTripTemp srt sensors z
        (TripPoint.new 0 .passive usrPsvTemp.toNat 0 z.index defaultSensorId .parallel)
    else some z
  updated.map (fun z => sortAndUpdatePollTrip srt sensors {z with tripPoints := attach srt typeOf z.tripPoints links})

-- The one trip of a cthd_zone_dynamic.
def dynamicTrip (z : Zone) (type : TripPointType) (tripTemp : Nat) (sensor : Sensor) (cdev : Nat) : TripPoint :=
  TripPoint.thdTripPointAddCdev srt typeOf (TripPoint.new 0 type tripTemp 0 z.index sensor.index .parallel)
    cdev AdaptiveEngine.defaultInfluence 0 false tripPtInvalidTargetState false 0 0

-- user_add_zone, for the zone it creates.
def userAddZone (z : Zone) (tripTemp : Nat) (sensor : Sensor) (cdev : Nat) (usrPsvTemp : Int) : Option Zone :=
  zoneUpdate srt typeOf sensors z [dynamicTrip srt typeOf z .passive tripTemp sensor cdev] usrPsvTemp []

-- The trip that bind_cooling_device finds; temperature 0 asks for any.
def bindable (type : TripPointType) (tripTemp : Nat) (t : TripPoint) : Bool :=
  t.type = type ∧ t.temp > 0 ∧ (tripTemp = 0 ∨ t.temp = tripTemp)

def bindCoolingDevice (z : Zone) (type : TripPointType) (tripTemp : Nat) (cdev : Nat) (influence : Int) : Zone :=
  match z.tripPoints.findIdx? (bindable type tripTemp) with
  | none => z
  | some j => {z with
      tripPoints := z.tripPoints.modify j (fun t =>
        TripPoint.thdTripPointAddCdev srt typeOf t cdev influence 0 false 0 false 0 0)
      zoneCdevBinded := true}

def processorThermalMinPassive : Nat := 90000

def needsCorrection (critical : Nat) (t : TripPoint) : Bool :=
  critical ≠ 0 ∧ (t.temp+5000) % 4294967296 ≥ critical

-- The unsigned set point 15 degrees below the critical trip.
def newPassive (critical : Nat) : Nat := (critical+4294967296-15000) % 4294967296

def correctSetPoint (critical : Nat) (t : TripPoint) : TripPoint :=
  if needsCorrection critical t then {t with temp := newPassive critical} else t

def hotPassive (t : TripPoint) : Bool := t.type = .passive ∧ t.temp > processorThermalMinPassive

def criticalTemp (acpiThermal : List TripPoint) : Nat :=
  ((acpiThermal.find? (fun t => t.type = .critical)).map (·.temp)).getD 0

-- add_int340x_processor_dev on the zone of the processor; acpiThermal are the
-- trips of acpitz, cdevs the devices found of the four it binds.
def addInt340xProcessorDev (z : Zone) (acpiThermal : List TripPoint) (cdevs : List Nat) : Zone :=
  match z.tripPoints.findIdx? hotPassive with
  | none => z
  | some j =>
    let z := {z with tripPoints := z.tripPoints.modify j (correctSetPoint (criticalTemp acpiThermal))}
    cdevs.foldl (fun z k => bindCoolingDevice srt typeOf z .passive 0 k AdaptiveEngine.defaultInfluence) z.setZoneActive

end Zone

namespace ZoneUpdate
open Zone ZoneTrips

-- What a change of the trips leaves alone for the polling trips.
structure Retimed (trips trips' : List TripPoint) : Prop where
  polling : polling trips' = polling trips
  above : ∀ t ∈ nonPolling trips',(∃ u ∈ nonPolling trips,t.temp = u.temp) ∨ ∀ p ∈ ZoneTrips.polling trips,p.temp < t.temp
  filled : nonPolling trips' = [] ↔ nonPolling trips = []

theorem Retimed.refl (trips : List TripPoint) : Retimed trips trips :=
  ⟨rfl,fun t inside => .inl ⟨t,inside,rfl⟩,Iff.rfl⟩

theorem Retimed.trans {a b c : List TripPoint} (one : Retimed a b) (two : Retimed b c) : Retimed a c := by
  refine ⟨two.polling.trans one.polling,?_,two.filled.trans one.filled⟩
  intro t inside
  rcases two.above t inside with ⟨u,within,same⟩ | high
  · rcases one.above u within with ⟨v,first,equal⟩ | high
    · exact .inl ⟨v,first,same.trans equal⟩
    · exact .inr (fun p polls => same ▸ high p polls)
  · exact .inr (fun p polls => high p (one.polling ▸ polls))

theorem mem_modify {trips : List TripPoint} {j : Nat} {f : TripPoint → TripPoint} {t : TripPoint}
    (inside : t ∈ trips.modify j f) : t ∈ trips ∨ ∃ u,trips[j]? = some u ∧ t = f u := by
  obtain ⟨i,bound,same⟩ := List.mem_iff_getElem.mp inside
  have here := List.getElem?_eq_getElem bound
  rw [same,List.getElem?_modify] at here
  split at here
  · rename_i target
    rw [← target] at here
    cases found : trips[j]? with
    | none =>
      rw [found] at here
      cases here
    | some u =>
      rw [found] at here
      exact .inr ⟨u,rfl,(Option.some.inj here).symm⟩
  · cases found : trips[i]? with
    | none =>
      rw [found] at here
      cases here
    | some u =>
      rw [found] at here
      cases here
      exact .inl (List.mem_of_getElem? found)

theorem polling_modify {trips : List TripPoint} {j : Nat} {f : TripPoint → TripPoint}
    (real : ∀ u,trips[j]? = some u → u.type ≠ .polling) (keeps : ∀ u,(f u).type = u.type) :
    polling (trips.modify j f) = polling trips := by
  induction trips generalizing j with
  | nil => rw [List.modify_nil]
  | cons t rest ih =>
    cases j with
    | zero =>
      have first : t.type ≠ .polling := real t rfl
      have second : (f t).type ≠ .polling := (keeps t).symm ▸ first
      rw [List.modify_zero_cons]
      unfold polling
      rw [List.filter_cons_of_neg (by simpa using second),List.filter_cons_of_neg (by simpa using first)]
    | succ j =>
      have later := ih (j := j) (fun u found => real u (by rw [List.getElem?_cons_succ]; exact found))
      rw [List.modify_succ_cons]
      unfold polling at later ⊢
      rw [List.filter_cons,List.filter_cons,later]

theorem nonPolling_filled {trips trips' : List TripPoint} (same : types trips' = types trips) :
    nonPolling trips' = [] ↔ nonPolling trips = [] := by
  have byTypes (trips : List TripPoint) : nonPolling trips = [] ↔ ∀ type ∈ types trips,type = .polling := by
    simp [nonPolling,types]
  rw [byTypes,byTypes,same]

-- One trip that is no polling trip gets a temperature above them, or keeps its own.
theorem retimed_modify {trips : List TripPoint} {j : Nat} {f : TripPoint → TripPoint}
    (real : ∀ u,trips[j]? = some u → u.type ≠ .polling) (keeps : ∀ u,(f u).type = u.type)
    (high : ∀ u,trips[j]? = some u → (f u).temp = u.temp ∨ ∀ p ∈ polling trips,p.temp < (f u).temp) :
    Retimed trips (trips.modify j f) := by
  refine ⟨polling_modify real keeps,?_,nonPolling_filled (types_modify keeps trips j)⟩
  intro t inside
  obtain ⟨listed,kind⟩ := mem_nonPolling.mp inside
  rcases mem_modify listed with old | ⟨u,found,rfl⟩
  · exact .inl ⟨t,mem_nonPolling.mpr ⟨old,kind⟩,rfl⟩
  · rcases high u found with same | above
    · exact .inl ⟨u,mem_nonPolling.mpr ⟨List.mem_of_getElem? found,real u found⟩,same⟩
    · exact .inr above

theorem found_real {trips : List TripPoint} {f : TripPoint → Bool} {j : Nat} (found : trips.findIdx? f = some j)
    (only : ∀ t,f t = true → t.type ≠ .polling) (u : TripPoint) (here : trips[j]? = some u) : u.type ≠ .polling := by
  obtain ⟨inside,chosen,_⟩ := List.findIdx?_eq_some_iff_getElem.mp found
  rw [List.getElem?_eq_getElem inside] at here
  cases here
  exact only _ chosen

theorem retimed_bind (srt : StdSort) (typeOf : Nat → String) (z : Zone) (cdev : Nat) (influence : Int) :
    Retimed z.tripPoints (bindCoolingDevice srt typeOf z .passive 0 cdev influence).tripPoints := by
  unfold bindCoolingDevice
  cases found : z.tripPoints.findIdx? (bindable .passive 0) with
  | none => exact Retimed.refl _
  | some j =>
    refine retimed_modify (found_real found ?_) (fun u => rfl) (fun u _ => .inl rfl)
    intro t chosen polls
    simp [bindable,polls] at chosen

theorem retimed_binds (srt : StdSort) (typeOf : Nat → String) (cdevs : List Nat) (influence : Int) (z : Zone) :
    Retimed z.tripPoints
      (cdevs.foldl (fun z k => bindCoolingDevice srt typeOf z .passive 0 k influence) z).tripPoints := by
  induction cdevs generalizing z with
  | nil => exact Retimed.refl _
  | cons k rest ih => exact (retimed_bind srt typeOf z k influence).trans (ih _)

theorem bind_sensors (srt : StdSort) (typeOf : Nat → String) (cdevs : List Nat) (influence : Int) (z : Zone) :
    (cdevs.foldl (fun z k => bindCoolingDevice srt typeOf z .passive 0 k influence) z).sensors = z.sensors := by
  induction cdevs generalizing z with
  | nil => rfl
  | cons k rest ih =>
    rw [List.foldl_cons,ih]
    unfold bindCoolingDevice
    split <;> rfl

end ZoneUpdate
end ChuwiMinibook
