import ChuwiMinibook.Machine
import ChuwiMinibook.ZoneTrips

namespace ChuwiMinibook.PollingTrips
open Zone ZoneTrips Machine

inductive Call where
  | addTrip (trip : TripPoint) (force : Bool)
  | updateTripTemp (trip : TripPoint)
  | updateHighestTripTemp (trip : TripPoint)

variable (srt : StdSort) (sensors : List Sensor)

def call (z : Zone) : Call → Option Zone
  | .addTrip trip force => some (addTripForce srt sensors z trip force)
  | .updateTripTemp trip => some (updateTripTemp srt sensors z trip)
  | .updateHighestTripTemp trip => updateHighestTripTemp srt sensors z trip

def step (z : Zone) (c : Call) : Zone := (call srt sensors z c).getD z

-- An update names the type of a trip of the zone.
def Present (z : Zone) : Call → Prop
  | .addTrip _ _ => True
  | .updateTripTemp trip => ∃ t ∈ z.tripPoints,t.type = trip.type
  | .updateHighestTripTemp trip => ∃ t ∈ z.tripPoints,t.type = trip.type

instance (z : Zone) : (c : Call) → Decidable (Present z c)
  | .addTrip _ _ => inferInstanceAs (Decidable True)
  | .updateTripTemp trip => inferInstanceAs (Decidable (∃ t ∈ z.tripPoints,t.type = trip.type))
  | .updateHighestTripTemp trip => inferInstanceAs (Decidable (∃ t ∈ z.tripPoints,t.type = trip.type))

def retemperLast (trips : List TripPoint) (trip : TripPoint) : List TripPoint :=
  match searchBack trip.type trips (trips.length-1) with
  | some j => trips.modify j (retemper trip)
  | none => trips

-- The trips of the zone as the call itself changes them, before the polling
-- trips are looked after.
def edit (trips : List TripPoint) : Call → List TripPoint
  | .addTrip trip true => trips ++ [trip]
  | .addTrip trip false => replaceTrip trips trip
  | .updateTripTemp trip => retemperFirst trips trip
  | .updateHighestTripTemp trip => retemperLast trips trip

structure Represents (z w : Zone) (left : List TripPoint) : Prop where
  onePerSensor : ((polling w.tripPoints).map (·.sensorId)).Perm (boundIds sensors z.sensors)
  kept : (nonPolling w.tripPoints).Perm (nonPolling left)
  ordered : (nonPolling w.tripPoints).Pairwise (fun a b => a.temp ≤ b.temp)
  behind : w.tripPoints = nonPolling w.tripPoints++polling w.tripPoints

def Represented (z : Zone) (c : Call) : Prop :=
  ∃ w,call srt sensors z c = some w ∧ Represents sensors z w (edit z.tripPoints c)

-- The one polling trip that is erased is the only one, and a trip is left.
def Manageable (z : Zone) (c : Call) : Prop :=
  (polling (edit z.tripPoints c)).length ≤ 1 ∧ nonPolling (edit z.tripPoints c) ≠ []

instance (z : Zone) (c : Call) : Decidable (Manageable z c) :=
  inferInstanceAs (Decidable ((polling (edit z.tripPoints c)).length ≤ 1 ∧ nonPolling (edit z.tripPoints c) ≠ []))

theorem call_edits {z : Zone} {c : Call} (present : Present z c) :
    call srt sensors z c = some (sortAndUpdatePollTrip srt sensors {z with tripPoints := edit z.tripPoints c}) := by
  cases c with
  | addTrip trip force => cases force <;> rfl
  | updateTripTemp trip => rfl
  | updateHighestTripTemp trip =>
    obtain ⟨t,inside,same⟩ := present
    have filled : z.tripPoints ≠ [] := List.ne_nil_of_mem inside
    rcases searchBack_spec trip.type filled with ⟨front,u,back,_,search⟩ | ⟨none,_⟩
    · simp [call,updateHighestTripTemp,edit,retemperLast,filled,search]
    · exact absurd same (none t inside)

theorem length_boundIds {bound : List Nat} (valid : ∀ s ∈ bound,s < sensors.length) :
    (boundIds sensors bound).length = bound.length := by
  induction bound with
  | nil => rfl
  | cons s rest ih =>
    have present : s < sensors.length := valid s List.mem_cons_self
    have later := ih (fun s inside => valid s (List.mem_cons_of_mem _ inside))
    unfold boundIds at later ⊢
    rw [List.filterMap_cons,List.getElem?_eq_getElem present]
    simp [later]

theorem remaining_real {trips : List TripPoint} (few : (polling trips).length ≤ 1) : polling (remaining trips) = [] := by
  have count := length_polling_eraseP trips
  apply List.length_eq_zero_iff.mp
  change (polling (trips.eraseP (fun t => t.type = .polling))).length = 0
  omega

theorem nonPolling_real {trips : List TripPoint} (none : polling trips = []) : nonPolling trips = trips := by
  apply List.filter_eq_self.mpr
  intro t inside
  have other := List.filter_eq_nil_iff.mp none t inside
  simpa using other

theorem sorted_polling {srt : StdSort} {trips sorted : List TripPoint} (shape : srt.sort tripSort trips = sorted) :
    (polling sorted).length = (polling trips).length := by
  have perm := (srt.perm tripSort trips).filter (fun t => t.type = .polling)
  rw [shape] at perm
  exact perm.length_eq

-- With one old polling trip at most, the sorted trips and the new polling trips
-- are the two parts of the result.
theorem sorted_parts {srt : StdSort} {trips : List TripPoint} (few : (polling trips).length ≤ 1)
    {sorted appended : List TripPoint} (shape : srt.sort tripSort (remaining trips) = sorted) {index : Int} {temp : Nat}
    {ids : List Int} (given : Appended index temp ids appended) :
    nonPolling (sorted++appended) = sorted ∧ polling (sorted++appended) = appended := by
  have none : polling sorted = [] := by
    apply List.length_eq_zero_iff.mp
    rw [sorted_polling shape,remaining_real few]
    rfl
  constructor
  · rw [nonPolling_append,nonPolling_appended given,List.append_nil,nonPolling_real none]
  · rw [polling_append,none,polling_appended given,List.nil_append]

theorem represents_of_few {z : Zone} {left : List TripPoint} (few : (polling left).length ≤ 1)
    (real : nonPolling left ≠ []) :
    Represents sensors z (sortAndUpdatePollTrip srt sensors {z with tripPoints := left}) left := by
  have result := sortAndUpdate_sorted srt sensors {z with tripPoints := left}
  have kept := nonPolling_sortAndUpdate srt sensors {z with tripPoints := left}
  generalize (sortAndUpdatePollTrip srt sensors {z with tripPoints := left}) = w at result kept ⊢
  obtain ⟨_,_,trips,_,_,_,_⟩ := w
  change Sorted srt sensors _ trips at result
  cases result with
  | empty none => exact absurd (by rw [← nonPolling_eraseP left,← remaining,none]; rfl) real
  | trips lowest rest appended shape given =>
    obtain ⟨front,back⟩ := sorted_parts few shape given
    refine ⟨?_,kept,?_,?_⟩
    · rw [back,given.ids]
    · rw [front,← shape]
      exact sort_ordered srt _
    · rw [front,back]

theorem few_of_represents {z : Zone} {left : List TripPoint} (valid : ∀ s ∈ z.sensors,s < sensors.length)
    (some_ : z.sensors ≠ [])
    (given : Represents sensors z (sortAndUpdatePollTrip srt sensors {z with tripPoints := left}) left) :
    (polling left).length ≤ 1 ∧ nonPolling left ≠ [] := by
  have result := sortAndUpdate_sorted srt sensors {z with tripPoints := left}
  have count := given.onePerSensor.length_eq
  rw [List.length_map,length_boundIds sensors valid] at count
  have several : 0 < z.sensors.length := List.length_pos_iff.mpr some_
  generalize (sortAndUpdatePollTrip srt sensors {z with tripPoints := left}).tripPoints = trips at result count
  cases result with
  | empty none =>
    change 0 = _ at count
    omega
  | trips lowest rest appended shape given =>
    have ids := congrArg List.length given.ids
    rw [List.length_map,length_boundIds sensors valid] at ids
    rw [polling_append,polling_appended given,List.length_append] at count
    have none : (polling (lowest::rest)).length = 0 := by omega
    have before := length_polling_eraseP left
    rw [sorted_polling shape] at none
    refine ⟨?_,?_⟩
    · change (polling (left.eraseP (fun t => t.type = .polling))).length = 0 at none
      omega
    · intro empty
      rw [← nonPolling_eraseP,← remaining,nonPolling_real (List.length_eq_zero_iff.mp none)] at empty
      have perm := srt.perm tripSort (remaining left)
      change srt.sort tripSort (remaining left) = _ at shape
      rw [shape,empty] at perm
      exact List.cons_ne_nil _ _ (List.perm_nil.mp perm)

theorem represented_iff {z : Zone} {c : Call} (valid : ∀ s ∈ z.sensors,s < sensors.length) (some_ : z.sensors ≠ [])
    (present : Present z c) : Represented srt sensors z c ↔ Manageable z c := by
  unfold Represented
  rw [call_edits srt sensors present]
  constructor
  · rintro ⟨w,same,given⟩
    cases same
    exact few_of_represents srt sensors valid some_ given
  · rintro ⟨few,real⟩
    exact ⟨_,rfl,represents_of_few srt sensors few real⟩

theorem step_sensors (z : Zone) (c : Call) : (step srt sensors z c).sensors = z.sensors := by
  have kept (z : Zone) : (sortAndUpdatePollTrip srt sensors z).sensors = z.sensors := by
    unfold sortAndUpdatePollTrip
    dsimp only
    split <;> rfl
  cases c with
  | addTrip trip force =>
    cases force with
    | true => exact kept {z with tripPoints := _}
    | false => exact kept {z with tripPoints := _}
  | updateTripTemp trip => exact kept {z with tripPoints := _}
  | updateHighestTripTemp trip =>
    unfold step call updateHighestTripTemp
    dsimp only
    split
    · rfl
    · cases searchBack trip.type z.tripPoints (z.tripPoints.length-1) with
      | none => rfl
      | some j => exact kept {z with tripPoints := _}

theorem run_sensors (z : Zone) (calls : List Call) : (run (step srt sensors) z calls).sensors = z.sensors := by
  induction calls generalizing z with
  | nil => rfl
  | cons c rest ih => rw [run_cons,ih,step_sensors]

-- For the trips that callers pass, the condition is one on the zone alone: a
-- second polling trip must not be there yet.
def Call.trip : Call → TripPoint
  | .addTrip trip _ => trip
  | .updateTripTemp trip => trip
  | .updateHighestTripTemp trip => trip

theorem length_polling_types (trips : List TripPoint) : (polling trips).length = (types trips).count .polling := by
  unfold polling types
  rw [← List.countP_eq_length_filter,List.count,List.countP_map]
  apply List.countP_congr
  intro t _
  simp

theorem types_set {trips : List TripPoint} {trip : TripPoint} {j : Nat} (same : (types trips)[j]? = some trip.type) :
    types (trips.set j trip) = types trips := by
  unfold types at same ⊢
  rw [List.map_set]
  apply List.ext_getElem?
  intro i
  rw [List.getElem?_set]
  split
  · rename_i here
    split
    · rw [← here,same]
    · rename_i outside
      rw [← here,List.getElem?_eq_none (Nat.not_lt.mp outside)]
  · rfl

theorem edit_types (trips : List TripPoint) (c : Call) :
    types (edit trips c) = types trips ∨ types (edit trips c) = types trips++[c.trip.type] := by
  cases c with
  | addTrip trip force =>
    cases force with
    | true => exact .inr (List.map_append)
    | false =>
      change types (replaceTrip trips trip) = _ ∨ types (replaceTrip trips trip) = _
      unfold replaceTrip
      cases found : trips.findIdx? (fun t => t.type = trip.type) with
      | none => exact .inr (List.map_append)
      | some j =>
        obtain ⟨inside,same,_⟩ := List.findIdx?_eq_some_iff_getElem.mp found
        refine .inl (types_set ?_)
        unfold types
        rw [List.getElem?_map,List.getElem?_eq_getElem inside]
        exact congrArg some (of_decide_eq_true same)
  | updateTripTemp trip =>
    change types (retemperFirst trips trip) = _ ∨ _
    unfold retemperFirst
    split
    · exact .inl (types_modify (f := retemper trip) (fun _ => rfl) trips _)
    · exact .inl rfl
  | updateHighestTripTemp trip =>
    change types (retemperLast trips trip) = _ ∨ _
    unfold retemperLast
    split
    · exact .inl (types_modify (f := retemper trip) (fun _ => rfl) trips _)
    · exact .inl rfl

theorem edit_trip {z : Zone} {c : Call} (present : Present z c) : c.trip.type ∈ types (edit z.tripPoints c) := by
  cases edit_types z.tripPoints c with
  | inr appended =>
    rw [appended]
    exact List.mem_append_right _ (List.mem_singleton.mpr rfl)
  | inl kept =>
    cases c with
    | addTrip trip force =>
      cases force with
      | true =>
        change trip.type ∈ types (z.tripPoints++[trip])
        exact List.mem_map_of_mem (List.mem_append_right _ (List.mem_singleton.mpr rfl))
      | false =>
        change trip.type ∈ types (replaceTrip z.tripPoints trip)
        unfold replaceTrip
        cases found : z.tripPoints.findIdx? (fun t => t.type = trip.type) with
        | none => exact List.mem_map_of_mem (List.mem_append_right _ (List.mem_singleton.mpr rfl))
        | some j =>
          obtain ⟨inside,_⟩ := List.findIdx?_eq_some_iff_getElem.mp found
          exact List.mem_map_of_mem (List.mem_set inside trip)
    | updateTripTemp trip =>
      obtain ⟨t,inside,same⟩ := present
      rw [kept]
      exact List.mem_map.mpr ⟨t,inside,same⟩
    | updateHighestTripTemp trip =>
      obtain ⟨t,inside,same⟩ := present
      rw [kept]
      exact List.mem_map.mpr ⟨t,inside,same⟩

theorem manageable_iff_real {z : Zone} {c : Call} (real : c.trip.type ≠ .polling) (present : Present z c) :
    Manageable z c ↔ (polling z.tripPoints).length ≤ 1 := by
  have count : (polling (edit z.tripPoints c)).length = (polling z.tripPoints).length := by
    rw [length_polling_types,length_polling_types]
    cases edit_types z.tripPoints c with
    | inl kept => rw [kept]
    | inr appended =>
      rw [appended,List.count_append,List.count_singleton,if_neg (by simpa using real)]
      rfl
  unfold Manageable
  rw [count]
  refine ⟨And.left,fun few => ⟨few,?_⟩⟩
  obtain ⟨t,inside,same⟩ := List.mem_map.mp (edit_trip present)
  exact List.ne_nil_of_mem (mem_nonPolling.mpr ⟨inside,same ▸ real⟩)

section Runs
variable {z : Zone} {calls : List Call}

theorem represented_runs_iff (valid : ∀ s ∈ z.sensors,s < sensors.length) (some_ : z.sensors ≠ [])
    (present : Meets (step srt sensors) Present z calls) :
    Stepwise (fun before c => Represented srt sensors (run (step srt sensors) z before) c) calls ↔
      Meets (step srt sensors) Manageable z calls := by
  rw [meets_iff_stepwise] at present ⊢
  refine stepwise_congr ?_
  intro before c after split
  have kept := run_sensors srt sensors z before
  exact represented_iff srt sensors (kept ▸ valid) (kept ▸ some_) (present before c after split)

theorem manageable_runs_real (real : ∀ c ∈ calls,c.trip.type ≠ .polling) (present : Meets (step srt sensors) Present z calls) :
    Meets (step srt sensors) Manageable z calls ↔
      Meets (step srt sensors) (fun w _ => (polling w.tripPoints).length ≤ 1) z calls := by
  rw [meets_iff_stepwise] at present
  rw [meets_iff_stepwise,meets_iff_stepwise]
  refine stepwise_congr ?_
  intro before c after split
  exact manageable_iff_real (real c (split ▸ List.mem_append_right _ List.mem_cons_self)) (present before c after split)

-- Calls with other trips only meet the condition where the zone has at most one
-- polling trip.
theorem polling_bookkeeping_iff (valid : ∀ s ∈ z.sensors,s < sensors.length) (some_ : z.sensors ≠ [])
    (present : Meets (step srt sensors) Present z calls) :
    (Stepwise (fun before c => Represented srt sensors (run (step srt sensors) z before) c) calls ↔
      Meets (step srt sensors) Manageable z calls) ∧
    ((∀ c ∈ calls,c.trip.type ≠ .polling) → (Meets (step srt sensors) Manageable z calls ↔
      Meets (step srt sensors) (fun w _ => (polling w.tripPoints).length ≤ 1) z calls)) :=
  ⟨represented_runs_iff srt sensors valid some_ present,fun real => manageable_runs_real srt sensors real present⟩

end Runs

def pairSensors : List Sensor := [⟨0,"TCPU",false,false⟩,⟨1,"SEN1",false,false⟩]

def pairZone (bound : List Nat) : Zone := ⟨0,"TCPU",[],false,false,bound,.independent⟩

def passiveTrip (temp : Nat) : TripPoint := TripPoint.new 0 .passive temp 0 0 0 .parallel

-- One sensor: any number of calls.
theorem polling_bookkeeping_single :
    Stepwise (fun before c => Represented .insertion pairSensors (run (step .insertion pairSensors) (pairZone [0]) before) c)
      [.addTrip (passiveTrip 70000) false,.addTrip (passiveTrip 60000) true,.updateHighestTripTemp (passiveTrip 65000)] := by
  refine (polling_bookkeeping_iff .insertion pairSensors ?_ ?_ ?_).1.mpr ?_
  · decide
  · decide
  · exact ⟨trivial,trivial,by decide +kernel,trivial⟩
  · refine ⟨by decide +kernel,by decide +kernel,by decide +kernel,trivial⟩

-- Two sensors: the second call leaves three polling trips.
theorem second_call_duplicates :
    ¬ Stepwise (fun before c => Represented .insertion pairSensors (run (step .insertion pairSensors) (pairZone [0,1]) before) c)
      [.addTrip (passiveTrip 70000) false,.addTrip (passiveTrip 80000) true] := by
  intro all
  obtain ⟨w,called,given⟩ := all [.addTrip (passiveTrip 70000) false] (.addTrip (passiveTrip 80000) true) [] rfl
  have count := given.onePerSensor.length_eq
  cases called
  revert count
  decide +kernel

end ChuwiMinibook.PollingTrips
