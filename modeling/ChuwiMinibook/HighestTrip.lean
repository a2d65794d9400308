import ChuwiMinibook.ZoneTrips

namespace ChuwiMinibook.HighestTrip
open Zone ZoneTrips

-- What update_highest_trip_temp is for: one trip of the type with the highest
-- temperature is changed, and without such a trip nothing is.
structure Retempered (trip : TripPoint) (before after : List TripPoint) : Prop where
  present : (∃ u ∈ before,u.type = trip.type) → ∃ front u back,before = front++u::back ∧ u.type = trip.type ∧
    (∀ v ∈ before,v.type = trip.type → v.temp ≤ u.temp) ∧
    (nonPolling after).Perm (nonPolling (front++retemper trip u::back))
  absent : (¬ ∃ u ∈ before,u.type = trip.type) → (nonPolling after).Perm (nonPolling before)

-- The call returns, and what it leaves is that.
def UpdatesHighest (srt : StdSort) (sensors : List Sensor) (z : Zone) (trip : TripPoint) : Prop :=
  ∃ w,updateHighestTripTemp srt sensors z trip = some w ∧ Retempered trip z.tripPoints w.tripPoints

def LastIsHighest (type : TripPointType) (trips : List TripPoint) : Prop :=
  ∃ front u back,LastOfType type trips front u back ∧ ∀ v ∈ trips,v.type = type → v.temp ≤ u.temp

theorem last_front {type : TripPointType} {trips front front' back back' : List TripPoint} {u v : TripPoint}
    (one : LastOfType type trips front u back) (two : LastOfType type trips front' v back')
    (extends_ : ∃ between,front' = front++between ∧ u::back = between++v::back') : u = v := by
  obtain ⟨between,_,shape⟩ := extends_
  cases between with
  | nil => exact (List.cons.inj shape).1
  | cons t between =>
    have behind : v ∈ back := by
      rw [(List.cons.inj shape).2]
      exact List.mem_append_right _ List.mem_cons_self
    exact absurd two.kind (one.last v behind)

theorem last_unique {type : TripPointType} {trips front front' back back' : List TripPoint} {u v : TripPoint}
    (one : LastOfType type trips front u back) (two : LastOfType type trips front' v back') : u = v := by
  have both : front++u::back = front'++v::back' := one.split.symm.trans two.split
  rcases List.append_eq_append_iff.mp both with later | earlier
  · exact last_front one two later
  · exact (last_front two one earlier).symm

theorem nonPolling_middle {u : TripPoint} (real : u.type ≠ .polling) (front back : List TripPoint) :
    (nonPolling (front++u::back)).Perm (u::nonPolling (front++back)) := by
  unfold nonPolling
  rw [List.filter_append,List.filter_cons_of_pos (by simpa using real),List.filter_append]
  exact List.perm_middle

-- Two ways of changing one trip agree only if they change the same trip to the
-- same trip, or each change to what the other one's trip was.
theorem exchange {rest rest' : List TripPoint} {u u' w w' : TripPoint} (old : (u::rest).Perm (w::rest'))
    (new : (u'::rest).Perm (w'::rest')) : u = w ∨ u' = u := by
  by_cases same : u = w
  · exact .inl same
  · right
    have count : ∀ a,(u::rest).count a = (w::rest').count a := fun a => old.count_eq a
    have changed : ∀ a,(u'::rest).count a = (w'::rest').count a := fun a => new.count_eq a
    have one := count u
    have two := changed u
    rw [List.count_cons,List.count_cons] at one two
    simp only [beq_self_eq_true,if_true,beq_iff_eq] at one two
    rw [if_neg (Ne.symm same)] at one
    by_contra other
    rw [if_neg other] at two
    split at two <;> omega

theorem updateHighest_some {srt : StdSort} {sensors : List Sensor} {z : Zone} {trip : TripPoint}
    {front back : List TripPoint} {u : TripPoint} (last : LastOfType trip.type z.tripPoints front u back)
    (search : searchBack trip.type z.tripPoints (z.tripPoints.length-1) = some front.length) :
    updateHighestTripTemp srt sensors z trip =
      some (sortAndUpdatePollTrip srt sensors {z with tripPoints := front++retemper trip u::back}) := by
  unfold updateHighestTripTemp
  rw [search,if_neg (by rw [last.split]; simp)]
  have middle := modify_middle front u back (retemper trip)
  rw [← last.split] at middle
  rw [Option.map_some,middle]

variable {srt : StdSort} {sensors : List Sensor} {z : Zone} {trip : TripPoint}

theorem highest_of_exact (read : ∀ t ∈ z.tripPoints,t.type ≠ .polling) (filled : z.tripPoints ≠ [])
    (exact_ : UpdatesHighest srt sensors z trip) : LastIsHighest trip.type z.tripPoints := by
  obtain ⟨w,updated,retempered⟩ := exact_
  rcases searchBack_spec trip.type filled with ⟨front,u,back,last,search⟩ | ⟨_,search⟩
  · refine ⟨front,u,back,last,?_⟩
    have uIn : u ∈ z.tripPoints := by rw [last.split]; simp
    rw [updateHighest_some last search] at updated
    cases updated
    obtain ⟨front',v,back',split,vType,highest,after⟩ := retempered.present ⟨u,uIn,last.kind⟩
    have vIn : v ∈ z.tripPoints := by rw [split]; simp
    -- both changes as permutations with the trip in front
    have old : (u::nonPolling (front++back)).Perm (v::nonPolling (front'++back')) := by
      have both : nonPolling (front++u::back) = nonPolling (front'++v::back') := by rw [← last.split,split]
      exact ((nonPolling_middle (read u uIn) front back).symm.trans (.of_eq both)).trans
        (nonPolling_middle (read v vIn) front' back')
    have sorted := (nonPolling_sortAndUpdate srt sensors {z with tripPoints := front++retemper trip u::back}).symm.trans after
    have new := ((nonPolling_middle (u := retemper trip u) (read u uIn) front back).symm.trans sorted).trans
      (nonPolling_middle (u := retemper trip v) (read v vIn) front' back')
    rcases exchange old new with same | unchanged
    · rw [same]
      exact highest
    · rcases exchange old.symm new.symm with same | unchanged'
      · rw [← same]
        exact highest
      · have uTemp : trip.temp = u.temp := congrArg (·.temp) unchanged
        have vTemp : trip.temp = v.temp := congrArg (·.temp) unchanged'
        rw [← uTemp,vTemp]
        exact highest
  · unfold updateHighestTripTemp at updated
    rw [search,if_neg (by simpa using filled)] at updated
    cases updated

theorem exact_of_highest (highest : LastIsHighest trip.type z.tripPoints) : UpdatesHighest srt sensors z trip := by
  obtain ⟨front,u,back,last,bound⟩ := highest
  have uIn : u ∈ z.tripPoints := by rw [last.split]; simp
  have filled : z.tripPoints ≠ [] := List.ne_nil_of_mem uIn
  rcases searchBack_spec trip.type filled with ⟨front',u',back',last',search⟩ | ⟨none,_⟩
  · have updated := @updateHighest_some srt sensors _ _ _ _ _ last' search
    refine ⟨_,updated,?_,?_⟩
    · intro _
      refine ⟨front',u',back',last'.split,last'.kind,?_,nonPolling_sortAndUpdate srt sensors _⟩
      exact last_unique last last' ▸ bound
    · intro none
      exact absurd ⟨u,uIn,last.kind⟩ none
  · exact absurd last.kind (none u uIn)

theorem updates_highest_iff (read : ∀ t ∈ z.tripPoints,t.type ≠ .polling) :
    UpdatesHighest srt sensors z trip ↔ z.tripPoints = [] ∨ LastIsHighest trip.type z.tripPoints := by
  constructor
  · intro exact_
    by_cases empty : z.tripPoints = []
    · exact .inl empty
    · exact .inr (highest_of_exact read empty exact_)
  · rintro (empty | highest)
    · refine ⟨z,by unfold updateHighestTripTemp; rw [empty]; rfl,?_,fun _ => .refl _⟩
      rintro ⟨u,inside,_⟩
      rw [empty] at inside
      cases inside
    · exact exact_of_highest highest

def firmwareTrip (index : Int) (type : TripPointType) (temp : Nat) : TripPoint :=
  TripPoint.new index type temp 1000 0 defaultSensorId .parallel

def firmwareZone (trips : List TripPoint) : Zone := ⟨0,"acpitz",trips,false,false,[0],.independent⟩

def userPassive (temp : Nat) : TripPoint := TripPoint.new 0 .passive temp 0 0 defaultSensorId .parallel

def firmwareSensors : List Sensor := [⟨0,"acpitz",false,false⟩]

theorem updates_highest_iff_sorted :
    UpdatesHighest .insertion firmwareSensors (firmwareZone [firmwareTrip 0 .passive 60000,firmwareTrip 1 .passive 70000])
      (userPassive 65000) := by
  refine (updates_highest_iff (by decide)).mpr (.inr ⟨[firmwareTrip 0 .passive 60000],_,[],⟨rfl,rfl,?_⟩,by decide⟩)
  intro v inside
  cases inside

-- A zone with a critical trip alone: the search leaves the vector.
theorem critical_zone_overruns :
    ¬ UpdatesHighest .insertion firmwareSensors (firmwareZone [firmwareTrip 0 .critical 100000]) (userPassive 65000) := by
  rintro ⟨w,updated,_⟩
  have fault : updateHighestTripTemp .insertion firmwareSensors (firmwareZone [firmwareTrip 0 .critical 100000])
      (userPassive 65000) = none := by decide
  rw [fault] at updated
  cases updated

end ChuwiMinibook.HighestTrip
