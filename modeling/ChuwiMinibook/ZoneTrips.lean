import Mathlib.Data.List.Induction
import ChuwiMinibook.Zone

namespace ChuwiMinibook

namespace TripPoint

def updateTripTemp (t : TripPoint) (temp : Nat) : TripPoint := {t with temp := temp}
def updateTripHyst (t : TripPoint) (hyst : Nat) : TripPoint := {t with hyst := hyst}

end TripPoint

namespace Zone

-- The pair of calls that updating an existing trip makes.
def retemper (trip t : TripPoint) : TripPoint := (t.updateTripTemp trip.temp).updateTripHyst trip.hyst

-- add_trip without force overwrites the first trip of the type.
def replaceTrip (trips : List TripPoint) (trip : TripPoint) : List TripPoint :=
  match trips.findIdx? (fun t => t.type = trip.type) with
  | some j => trips.set j trip
  | none => trips ++ [trip]

def retemperFirst (trips : List TripPoint) (trip : TripPoint) : List TripPoint :=
  match trips.findIdx? (fun t => t.type = trip.type) with
  | some j => trips.modify j (retemper trip)
  | none => trips

-- The loop of update_highest_trip_temp from index j down. It has no lower
-- bound: after index 0 the unsigned index is past the end of every vector, and
-- none stands for that access.
def searchBack (type : TripPointType) (trips : List TripPoint) : Nat → Option Nat
  | 0 => if trips[0]?.any (fun t => t.type = type) then some 0 else none
  | j+1 => if trips[j+1]?.any (fun t => t.type = type) then some (j+1) else searchBack type trips j

variable (srt : StdSort) (sensors : List Sensor) (z : Zone) (trip : TripPoint)

def addTripForce (force : Bool) : Zone :=
  if force then addTrip srt sensors z trip
  else sortAndUpdatePollTrip srt sensors {z with tripPoints := replaceTrip z.tripPoints trip}

def updateTripTemp : Zone :=
  sortAndUpdatePollTrip srt sensors {z with tripPoints := retemperFirst z.tripPoints trip}

def updateHighestTripTemp : Option Zone :=
  if z.tripPoints.isEmpty then some z
  else (searchBack trip.type z.tripPoints (z.tripPoints.length-1)).map (fun j =>
    sortAndUpdatePollTrip srt sensors {z with tripPoints := z.tripPoints.modify j (retemper trip)})

end Zone

namespace ZoneTrips
open Zone

def nonPolling (trips : List TripPoint) : List TripPoint := trips.filter (fun t => t.type ≠ .polling)

def polling (trips : List TripPoint) : List TripPoint := trips.filter (fun t => t.type = .polling)

def types (trips : List TripPoint) : List TripPointType := trips.map (·.type)

theorem types_modify {f : TripPoint → TripPoint} (keeps : ∀ u,(f u).type = u.type) (trips : List TripPoint) (j : Nat) :
    types (trips.modify j f) = types trips := by
  unfold types
  apply List.ext_getElem?
  intro i
  rw [List.getElem?_map,List.getElem?_map,List.getElem?_modify]
  split <;> cases trips[i]? <;> simp [keeps]

theorem nonPolling_append (first second : List TripPoint) :
    nonPolling (first++second) = nonPolling first++nonPolling second :=
  List.filter_append first second

theorem polling_append (first second : List TripPoint) : polling (first++second) = polling first++polling second :=
  List.filter_append first second

theorem mem_nonPolling {t : TripPoint} {trips : List TripPoint} : t ∈ nonPolling trips ↔ t ∈ trips ∧ t.type ≠ .polling := by
  simp [nonPolling]

theorem mem_polling {t : TripPoint} {trips : List TripPoint} : t ∈ polling trips ↔ t ∈ trips ∧ t.type = .polling := by
  simp [polling]

theorem nonPolling_eraseP (trips : List TripPoint) :
    nonPolling (trips.eraseP (fun t => t.type = .polling)) = nonPolling trips := by
  induction trips with
  | nil => rfl
  | cons t rest ih =>
    by_cases given : t.type = .polling
    · simp [given,nonPolling]
    · rw [List.eraseP_cons_of_neg (by simpa using given)]
      unfold nonPolling at ih ⊢
      rw [List.filter_cons,List.filter_cons,ih]

theorem length_polling_eraseP (trips : List TripPoint) :
    (polling (trips.eraseP (fun t => t.type = .polling))).length = (polling trips).length-1 := by
  induction trips with
  | nil => rfl
  | cons t rest ih =>
    by_cases given : t.type = .polling
    · simp [given,polling]
    · rw [List.eraseP_cons_of_neg (by simpa using given)]
      unfold polling at ih ⊢
      rw [List.filter_cons_of_neg (by simpa using given),List.filter_cons_of_neg (by simpa using given),ih]

-- The polling trips that sort_and_update_poll_trip appends.
structure Appended (index : Int) (temp : Nat) (ids : List Int) (trips : List TripPoint) : Prop where
  each : ∀ p ∈ trips,p.type = .polling ∧ p.temp = temp ∧ p.zoneId = index ∧ p.cdevs = []
  ids : trips.map (·.sensorId) = ids

-- The numbers of the sensors a zone is bound to.
def boundIds (sensors : List Sensor) (bound : List Nat) : List Int := bound.filterMap (fun s => sensors[s]?.map (·.index))

theorem pushPolling_appended (index : Int) (temp : Nat) (sensors : List Sensor) (bound : List Nat)
    (trips : List TripPoint) :
    ∃ appended,bound.foldl (fun trips s => match sensors[s]? with
      | none => trips
      | some sensor => pushPolling index temp sensor.index trips) trips = trips++appended ∧
      Appended index temp (boundIds sensors bound) appended := by
  induction bound generalizing trips with
  | nil => exact ⟨[],(List.append_nil trips).symm,⟨fun p inside => absurd inside List.not_mem_nil,rfl⟩⟩
  | cons s rest ih =>
    rw [List.foldl_cons]
    cases present : sensors[s]? with
    | none =>
      obtain ⟨appended,shape,given⟩ := ih trips
      refine ⟨appended,shape,given.each,?_⟩
      rw [given.ids]
      simp [boundIds,present]
    | some sensor =>
      obtain ⟨appended,shape,given⟩ := ih (pushPolling index temp sensor.index trips)
      refine ⟨TripPoint.new trips.length .polling temp 0 index sensor.index .parallel::appended,?_,?_,?_⟩
      · dsimp only
        rw [shape,pushPolling,List.append_assoc,List.singleton_append]
      · intro p inside
        rcases List.mem_cons.mp inside with rfl | later
        · exact ⟨rfl,rfl,rfl,rfl⟩
        · exact given.each p later
      · rw [List.map_cons,given.ids]
        simp [boundIds,present,TripPoint.new]

def remaining (trips : List TripPoint) : List TripPoint := trips.eraseP (fun t => t.type = .polling)

-- sort_and_update_poll_trip: nothing is left, or the rest is sorted and the
-- polling trips stand behind it.
inductive Sorted (srt : StdSort) (sensors : List Sensor) (z : Zone) : List TripPoint → Prop where
  | empty : remaining z.tripPoints = [] → Sorted srt sensors z []
  | trips (lowest : TripPoint) (rest appended : List TripPoint) :
    srt.sort tripSort (remaining z.tripPoints) = lowest::rest →
    Appended z.index (pollingTemp lowest.temp) (boundIds sensors z.sensors) appended →
    Sorted srt sensors z (lowest::rest++appended)

theorem sortAndUpdate_sorted (srt : StdSort) (sensors : List Sensor) (z : Zone) :
    Sorted srt sensors z (sortAndUpdatePollTrip srt sensors z).tripPoints := by
  have perm := srt.perm tripSort (remaining z.tripPoints)
  unfold sortAndUpdatePollTrip
  dsimp only
  cases shape : srt.sort tripSort (z.tripPoints.eraseP (fun t => t.type = .polling)) with
  | nil =>
    have none : remaining z.tripPoints = [] := by
      rw [remaining,shape] at perm
      exact List.nil_perm.mp perm
    rw [remaining] at none
    rw [none]
    exact .empty none
  | cons lowest rest =>
    obtain ⟨appended,all,given⟩ := pushPolling_appended z.index (pollingTemp lowest.temp) sensors z.sensors (lowest::rest)
    have built := Sorted.trips lowest rest appended shape given
    rw [← all] at built
    exact built

theorem nonPolling_appended {index : Int} {temp : Nat} {ids : List Int} {trips : List TripPoint}
    (given : Appended index temp ids trips) : nonPolling trips = [] := by
  apply List.filter_eq_nil_iff.mpr
  intro p inside
  simp [(given.each p inside).1]

theorem polling_appended {index : Int} {temp : Nat} {ids : List Int} {trips : List TripPoint}
    (given : Appended index temp ids trips) : polling trips = trips := by
  apply List.filter_eq_self.mpr
  intro p inside
  simp [(given.each p inside).1]

theorem nonPolling_sortAndUpdate (srt : StdSort) (sensors : List Sensor) (z : Zone) :
    (nonPolling (sortAndUpdatePollTrip srt sensors z).tripPoints).Perm (nonPolling z.tripPoints) := by
  have result := sortAndUpdate_sorted srt sensors z
  generalize (sortAndUpdatePollTrip srt sensors z).tripPoints = trips at result ⊢
  rw [← nonPolling_eraseP z.tripPoints]
  cases result with
  | empty none =>
    rw [remaining] at none
    rw [none]
  | trips lowest rest appended shape given =>
    have perm := (srt.perm tripSort (remaining z.tripPoints)).filter (fun t => t.type ≠ .polling)
    rw [shape] at perm
    rw [nonPolling_append,nonPolling_appended given,List.append_nil]
    exact perm

theorem sort_ordered (srt : StdSort) (trips : List TripPoint) :
    (srt.sort tripSort trips).Pairwise (fun a b => a.temp ≤ b.temp) := by
  refine (srt.sorted tripSort trips ?_ ?_).imp ?_
  · intro a b less
    simp only [tripSort,decide_eq_true_eq,decide_eq_false_iff_not] at less ⊢
    omega
  · intro a b c first second
    simp only [tripSort,decide_eq_false_iff_not] at first second ⊢
    omega
  · intro a b ordered
    simp only [tripSort,decide_eq_false_iff_not] at ordered
    omega

-- The trip of a type that update_highest_trip_temp comes to first.
structure LastOfType (type : TripPointType) (trips front : List TripPoint) (u : TripPoint) (back : List TripPoint) :
    Prop where
  split : trips = front++u::back
  kind : u.type = type
  last : ∀ v ∈ back,v.type ≠ type

theorem searchBack_append (type : TripPointType) (trips : List TripPoint) (t : TripPoint) {j : Nat}
    (inside : j < trips.length) : searchBack type (trips++[t]) j = searchBack type trips j := by
  induction j with
  | zero => rw [searchBack,searchBack,List.getElem?_append_left inside]
  | succ j ih => rw [searchBack,searchBack,List.getElem?_append_left inside,ih (Nat.lt_of_succ_lt inside)]

theorem searchBack_snoc (type : TripPointType) (trips : List TripPoint) (t : TripPoint) :
    searchBack type (trips++[t]) trips.length =
      if t.type = type then some trips.length
      else if trips = [] then none else searchBack type trips (trips.length-1) := by
  cases trips with
  | nil => simp [searchBack]
  | cons first rest =>
    have here : (first::rest++[t])[rest.length+1]? = some t := List.getElem?_concat_length
    have below := searchBack_append type (first::rest) t (Nat.lt_succ_self rest.length)
    rw [List.length_cons,searchBack,here,below]
    by_cases same : t.type = type <;> simp [same]

-- The search ends at the last trip of the type, or runs out of the vector.
theorem searchBack_spec (type : TripPointType) {trips : List TripPoint} (some_ : trips ≠ []) :
    (∃ front u back,LastOfType type trips front u back ∧ searchBack type trips (trips.length-1) = some front.length) ∨
      (∀ u ∈ trips,u.type ≠ type) ∧ searchBack type trips (trips.length-1) = none := by
  induction trips using List.reverseRecOn with
  | nil => exact absurd rfl some_
  | append_singleton trips t ih =>
    rw [List.length_append,List.length_singleton,Nat.add_sub_cancel,searchBack_snoc]
    by_cases same : t.type = type
    · rw [if_pos same]
      exact .inl ⟨trips,t,[],⟨rfl,same,fun v inside => absurd inside List.not_mem_nil⟩,rfl⟩
    · rw [if_neg same]
      by_cases empty : trips = []
      · rw [if_pos empty,empty]
        refine .inr ⟨?_,rfl⟩
        intro u inside
        cases List.mem_singleton.mp inside
        exact same
      · rw [if_neg empty]
        cases ih empty with
        | inl found =>
          obtain ⟨front,u,back,given,search⟩ := found
          refine .inl ⟨front,u,back++[t],⟨?_,given.kind,?_⟩,search⟩
          · rw [given.split,List.append_assoc,List.cons_append]
          · intro v inside
            rcases List.mem_append.mp inside with before | final
            · exact given.last v before
            · cases List.mem_singleton.mp final
              exact same
        | inr none =>
          refine .inr ⟨?_,none.2⟩
          intro u inside
          rcases List.mem_append.mp inside with before | final
          · exact none.1 u before
          · cases List.mem_singleton.mp final
            exact same

theorem modify_middle (front : List TripPoint) (u : TripPoint) (back : List TripPoint) (f : TripPoint → TripPoint) :
    (front++u::back).modify front.length f = front++f u::back := by
  induction front with
  | nil => rfl
  | cons t front ih => rw [List.cons_append,List.length_cons,List.modify_succ_cons,ih,List.cons_append]

end ZoneTrips
end ChuwiMinibook
