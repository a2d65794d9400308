import ChuwiMinibook.PolicyZones
import ChuwiMinibook.ZoneUpdate

namespace ChuwiMinibook.PollingStart
open Zone ZoneTrips ZoneUpdate Machine AdaptiveEngine PsvtLoop

-- The ways the trips of a zone come into being and change.
inductive Op where
  | zoneUpdate (fresh : List TripPoint) (usrPsvTemp : Int) (links : List (Nat × TripPtCdev))
  | userAddZone (tripTemp : Nat) (sensor : Sensor) (cdev : Nat) (usrPsvTemp : Int)
  | call (c : PollingTrips.Call)
  | processorDev (acpiThermal : List TripPoint) (cdevs : List Nat)
  | consolidate
  | setTrip (temp : Nat)

variable (srt : StdSort) (typeOf : Nat → String) (minState : Nat → Int) (sensors : List Sensor)

def act (z : Zone) : Op → Option Zone
  | .zoneUpdate fresh usrPsvTemp links => Zone.zoneUpdate srt typeOf sensors z fresh usrPsvTemp links
  | .userAddZone tripTemp sensor cdev usrPsvTemp =>
    Zone.userAddZone srt typeOf sensors z tripTemp sensor cdev usrPsvTemp
  | .call c => PollingTrips.call srt sensors z c
  | .processorDev acpiThermal cdevs => some (addInt340xProcessorDev srt typeOf z acpiThermal cdevs)
  | .consolidate => some (consolidateZone srt typeOf minState sensors z)
  | .setTrip temp => some (updateFirstPassive temp z)

-- A call that leaves its vector has no next state.
def step (z : Zone) (op : Op) : Zone := (act srt typeOf minState sensors z op).getD z

def temps (trips : List TripPoint) : List Nat := (nonPolling trips).map (·.temp)

def Lowest (low : Nat) (trips : List TripPoint) : Prop := low ∈ temps trips ∧ ∀ x ∈ temps trips,low ≤ x

def offset (low : Nat) : Nat := max (low*defAsyncTripOffsetPct/100) defAsyncTripOffset

-- The threshold as a number, when nothing in it wraps around.
def Computes (low temp : Nat) : Prop := low*defAsyncTripOffsetPct < 4294967296 ∧ offset low ≤ low ∧ temp = low-offset low

-- What a step has to leave: one polling trip below all other trips, the one of
-- before or a new one computed from the lowest trip.
structure Starts (z w : Zone) : Prop where
  one : nonPolling w.tripPoints ≠ [] → (polling w.tripPoints).length = 1
  below : ∀ p ∈ polling w.tripPoints,∀ t ∈ nonPolling w.tripPoints,p.temp < t.temp
  exactly : ∀ p ∈ polling w.tripPoints,p ∈ polling z.tripPoints ∨ ∃ low,Lowest low w.tripPoints ∧ Computes low p.temp

-- Trips that a polling trip can start below.
def Startable (trips : List TripPoint) : Prop :=
  (polling trips).length ≤ 1 ∧ ∀ low,Lowest low trips → 5000 ≤ low ∧ low ≤ 429496729

instance (trips : List TripPoint) : Decidable (Startable trips) :=
  decidable_of_iff ((polling trips).length ≤ 1 ∧
      ∀ low ∈ temps trips,(∀ x ∈ temps trips,low ≤ x) → 5000 ≤ low ∧ low ≤ 429496729)
    ⟨fun given => ⟨given.1,fun low lowest => given.2 low lowest.1 lowest.2⟩,
      fun given => ⟨given.1,fun low inside least => given.2 low ⟨inside,least⟩⟩⟩

-- The trips of zone_update once the user's passive temperature is in.
def readTrips (z : Zone) (fresh : List TripPoint) (usrPsvTemp : Int) : List TripPoint :=
  if usrPsvTemp > 0 then
    PollingTrips.retemperLast (z.tripPoints++fresh)
      (TripPoint.new 0 .passive usrPsvTemp.toNat 0 z.index defaultSensorId .parallel)
  else z.tripPoints++fresh

-- The trip behind a MAX trip that psvt_consolidate takes the middle with.
def partner (t : TripPoint) (next : Option TripPoint) : Option TripPoint :=
  next.filter fun u => t.sensorId = u.sensorId ∧ getFirstCdev u ≠ none ∧ getFirstCdev t = getFirstCdev u ∧ isTargetValid u ≠ none

-- The sum of temperatures that psvt_consolidate makes for a MAX trip does not wrap.
def Unwrapped (t : TripPoint) (next : Option TripPoint) : Prop :=
  isTargetValid t = some tripPtInvalidTargetState →
    (partner t next = none → t.temp+1000 < 4294967296) ∧ ∀ u ∈ partner t next,u.temp+t.temp < 4294967296

instance (t : TripPoint) (next : Option TripPoint) : Decidable (Unwrapped t next) :=
  inferInstanceAs (Decidable (_ → (_ → _) ∧ ∀ u ∈ partner t next,u.temp+t.temp < 4294967296))

def AllUnwrapped : List TripPoint → Prop
  | [] => True
  | t::rest => Unwrapped t rest.head? ∧ AllUnwrapped rest

instance decidableAllUnwrapped : (trips : List TripPoint) → Decidable (AllUnwrapped trips)
  | [] => inferInstanceAs (Decidable True)
  | t::rest =>
    have := decidableAllUnwrapped rest
    inferInstanceAs (Decidable (Unwrapped t rest.head? ∧ AllUnwrapped rest))

-- Two trips of which the first has a target: a third is added.
def TakesThird : List TripPoint → Prop
  | [t,_] => isTargetValid t ≠ none
  | _ => False

instance : (trips : List TripPoint) → Decidable (TakesThird trips)
  | [] => inferInstanceAs (Decidable False)
  | [_] => inferInstanceAs (Decidable False)
  | [t,_] => inferInstanceAs (Decidable (isTargetValid t ≠ none))
  | _::_::_::_ => inferInstanceAs (Decidable False)

def Cond (z : Zone) : Op → Prop
  | .zoneUpdate fresh usrPsvTemp _ => Startable (readTrips z fresh usrPsvTemp)
  | .userAddZone tripTemp sensor cdev usrPsvTemp =>
    Startable (readTrips z [dynamicTrip srt typeOf z .passive tripTemp sensor cdev] usrPsvTemp)
  | .call c => Startable (PollingTrips.edit z.tripPoints c)
  | .processorDev acpiThermal _ => ∀ t,z.tripPoints.find? hotPassive = some t →
    needsCorrection (criticalTemp acpiThermal) t = true →
      ∀ p ∈ polling z.tripPoints,p.temp < newPassive (criticalTemp acpiThermal)
  | .consolidate => if TakesThird z.tripPoints then Startable z.tripPoints else AllUnwrapped z.tripPoints
  | .setTrip temp => ∀ p ∈ polling z.tripPoints,p.temp < temp

structure Ready (trips : List TripPoint) : Prop where
  few : (polling trips).length ≤ 1
  one : nonPolling trips ≠ [] → (polling trips).length = 1
  below : ∀ p ∈ polling trips,∀ t ∈ nonPolling trips,p.temp < t.temp
  bare : ∀ p ∈ polling trips,p.cdevs = []

theorem pollingTemp_computes {low : Nat} (high : 5000 ≤ low) (fits : low ≤ 429496729) :
    Computes low (pollingTemp low) ∧ pollingTemp low < low := by
  unfold Computes pollingTemp offset defAsyncTripOffset defAsyncTripOffsetPct
  have product : low*10 % 4294967296 = low*10 := Nat.mod_eq_of_lt (by omega)
  dsimp only
  have part : low*10/100 ≤ low := by omega
  rw [product]
  generalize low*10/100 = share at part ⊢
  by_cases small : share < 5000
  · rw [if_pos small,Nat.max_eq_right (Nat.le_of_lt small)]
    omega
  · rw [if_neg small,Nat.max_eq_left (Nat.not_lt.mp small)]
    omega

theorem lowest_perm {trips trips' : List TripPoint} (same : (temps trips).Perm (temps trips')) (low : Nat) :
    Lowest low trips ↔ Lowest low trips' := by
  unfold Lowest
  simp only [same.mem_iff]

theorem first_least {trips : List TripPoint} {lowest : TripPoint} {rest : List TripPoint}
    (shape : srt.sort tripSort trips = lowest::rest) : ∀ t ∈ lowest::rest,lowest.temp ≤ t.temp := by
  have ordered := sort_ordered srt trips
  rw [shape,List.pairwise_cons] at ordered
  intro t inside
  rcases List.mem_cons.mp inside with rfl | later
  · exact Nat.le_refl _
  · exact ordered.1 t later

-- What sort_and_update_poll_trip leaves for a zone with one sensor.
theorem sort_ready {z : Zone} (single : (boundIds sensors z.sensors).length = 1) (startable : Startable z.tripPoints) :
    Ready (sortAndUpdatePollTrip srt sensors z).tripPoints ∧
      ∀ p ∈ polling (sortAndUpdatePollTrip srt sensors z).tripPoints,
        ∃ low,Lowest low (sortAndUpdatePollTrip srt sensors z).tripPoints ∧ Computes low p.temp := by
  obtain ⟨few,fits⟩ := startable
  have sorted := sortAndUpdate_sorted srt sensors z
  have kept := nonPolling_sortAndUpdate srt sensors z
  generalize (sortAndUpdatePollTrip srt sensors z).tripPoints = after at sorted kept ⊢
  cases sorted with
  | empty none =>
    exact ⟨⟨Nat.zero_le 1,fun filled => absurd rfl filled,fun p inside => absurd inside List.not_mem_nil,
      fun p inside => absurd inside List.not_mem_nil⟩,fun p inside => absurd inside List.not_mem_nil⟩
  | trips lowest rest appended shape given =>
    obtain ⟨front,back⟩ := PollingTrips.sorted_parts few shape given
    have count : appended.length = 1 := by
      rw [← List.length_map (f := (·.sensorId)),given.ids,single]
    have least := first_least srt shape
    have low : Lowest lowest.temp (lowest::rest++appended) := by
      unfold Lowest temps
      rw [front]
      refine ⟨List.mem_map_of_mem List.mem_cons_self,?_⟩
      intro x inside
      obtain ⟨t,listed,rfl⟩ := List.mem_map.mp inside
      exact least t listed
    obtain ⟨high,bound⟩ := fits lowest.temp ((lowest_perm (kept.map _) _).mp low)
    obtain ⟨computes,under⟩ := pollingTemp_computes high bound
    refine ⟨⟨?_,?_,?_,?_⟩,?_⟩
    · rw [back,count]
    · rw [back]
      exact fun _ => count
    · rw [front,back]
      intro p appends t inside
      rw [(given.each p appends).2.1]
      exact Nat.lt_of_lt_of_le under (least t inside)
    · rw [back]
      exact fun p appends => (given.each p appends).2.2.2
    · rw [back]
      intro p appends
      rw [(given.each p appends).2.1]
      exact ⟨lowest.temp,low,computes⟩

theorem retimed_ready {trips trips' : List TripPoint} (ready : Ready trips) (retimed : Retimed trips trips') :
    Ready trips' := by
  refine ⟨retimed.polling ▸ ready.few,?_,?_,retimed.polling ▸ ready.bare⟩
  · intro filled
    rw [retimed.polling]
    exact ready.one (fun empty => filled (retimed.filled.mpr empty))
  · rw [retimed.polling]
    intro p polls t inside
    rcases retimed.above t inside with ⟨u,within,same⟩ | high
    · exact same ▸ ready.below p polls u within
    · exact high p polls

-- Recomputing and changing in place, as steps.
theorem starts_sorted {z w : Zone} (ready : Ready w.tripPoints)
    (computed : ∀ p ∈ polling w.tripPoints,∃ low,Lowest low w.tripPoints ∧ Computes low p.temp) : Starts z w :=
  ⟨ready.one,ready.below,fun p polls => .inr (computed p polls)⟩

theorem starts_retimed {z w : Zone} (ready : Ready z.tripPoints) (retimed : Retimed z.tripPoints w.tripPoints) :
    Starts z w :=
  have after := retimed_ready ready retimed
  ⟨after.one,after.below,fun _ polls => .inl (retimed.polling ▸ polls)⟩

-- Changing bindings changes neither types nor temperatures.
theorem attach_keys (links : List (Nat × TripPtCdev)) (trips : List TripPoint) :
    (attach srt typeOf trips links).map (fun t => (t.type,t.temp)) = trips.map (fun t => (t.type,t.temp)) := by
  induction links generalizing trips with
  | nil => rfl
  | cons link rest ih =>
    change (attach srt typeOf (trips.modify link.1 _) rest).map _ = _
    rw [ih]
    apply List.ext_getElem?
    intro i
    rw [List.getElem?_map,List.getElem?_map,List.getElem?_modify]
    split <;> cases trips[i]? <;> rfl

theorem temps_keys (trips : List TripPoint) :
    temps trips = ((trips.map (fun t => (t.type,t.temp))).filter (fun key => key.1 ≠ .polling)).map (·.2) := by
  rw [List.filter_map,List.map_map]
  rfl

theorem startable_keys {trips trips' : List TripPoint}
    (same : trips'.map (fun t => (t.type,t.temp)) = trips.map (fun t => (t.type,t.temp))) (startable : Startable trips) :
    Startable trips' := by
  have both : types trips' = types trips := by
    have first := congrArg (List.map (·.1)) same
    rwa [List.map_map,List.map_map] at first
  refine ⟨?_,?_⟩
  · rw [PollingTrips.length_polling_types,both,← PollingTrips.length_polling_types]
    exact startable.1
  · intro low given
    refine startable.2 low ?_
    unfold Lowest at given ⊢
    rw [temps_keys,same,← temps_keys] at given
    exact given

theorem startable_sorted {z : Zone} (single : (boundIds sensors z.sensors).length = 1) (startable : Startable z.tripPoints) :
    Startable (sortAndUpdatePollTrip srt sensors z).tripPoints := by
  refine ⟨(sort_ready srt sensors single startable).1.few,?_⟩
  intro low given
  exact startable.2 low ((lowest_perm ((nonPolling_sortAndUpdate srt sensors z).map _) low).mp given)

theorem sort_sensors (z : Zone) : (sortAndUpdatePollTrip srt sensors z).sensors = z.sensors := by
  rw [PolicyZones.sortAndUpdate_fields]

theorem highest_startable {z w : Zone} {trip : TripPoint} (single : (boundIds sensors z.sensors).length = 1)
    (startable : Startable (PollingTrips.retemperLast z.tripPoints trip))
    (done : updateHighestTripTemp srt sensors z trip = some w) : w.sensors = z.sensors ∧ Startable w.tripPoints := by
  unfold updateHighestTripTemp at done
  unfold PollingTrips.retemperLast at startable
  split at done
  · rename_i empty
    cases done
    rw [List.isEmpty_iff.mp empty] at startable ⊢
    exact ⟨rfl,startable⟩
  · cases search : searchBack trip.type z.tripPoints (z.tripPoints.length-1) with
    | none =>
      rw [search] at done
      cases done
    | some j =>
      rw [search] at done startable
      cases done
      exact ⟨sort_sensors srt sensors _,startable_sorted srt sensors (z := {z with tripPoints := _}) single startable⟩

theorem zoneUpdate_ready {z w : Zone} {fresh : List TripPoint} {usrPsvTemp : Int} {links : List (Nat × TripPtCdev)}
    (single : (boundIds sensors z.sensors).length = 1) (startable : Startable (readTrips z fresh usrPsvTemp))
    (done : zoneUpdate srt typeOf sensors z fresh usrPsvTemp links = some w) :
    w.sensors = z.sensors ∧ Ready w.tripPoints ∧
      ∀ p ∈ polling w.tripPoints,∃ low,Lowest low w.tripPoints ∧ Computes low p.temp := by
  have finish (u : Zone) (same : u.sensors = z.sensors) (given : Startable u.tripPoints)
      (last : sortAndUpdatePollTrip srt sensors {u with tripPoints := attach srt typeOf u.tripPoints links} = w) :
      w.sensors = z.sensors ∧ Ready w.tripPoints ∧
        ∀ p ∈ polling w.tripPoints,∃ low,Lowest low w.tripPoints ∧ Computes low p.temp := by
    rw [← last]
    refine ⟨(sort_sensors srt sensors _).trans same,?_⟩
    apply sort_ready srt sensors
    · rw [same,single]
    · exact startable_keys (attach_keys srt typeOf links u.tripPoints) given
  unfold zoneUpdate at done
  unfold readTrips at startable
  dsimp only at done
  split at done
  · rename_i positive
    rw [if_pos positive] at startable
    cases updated : updateHighestTripTemp srt sensors {z with tripPoints := z.tripPoints++fresh}
        (TripPoint.new 0 .passive usrPsvTemp.toNat 0 z.index defaultSensorId .parallel) with
    | none =>
      rw [updated] at done
      cases done
    | some u =>
      rw [updated] at done
      obtain ⟨same,given⟩ := highest_startable srt sensors (z := {z with tripPoints := z.tripPoints++fresh}) single startable updated
      exact finish u same given (Option.some.inj done)
  · rename_i unset
    rw [if_neg unset] at startable
    exact finish {z with tripPoints := z.tripPoints++fresh} rfl startable (Option.some.inj done)

theorem call_ready {z w : Zone} {c : PollingTrips.Call} (single : (boundIds sensors z.sensors).length = 1)
    (startable : Startable (PollingTrips.edit z.tripPoints c)) (done : PollingTrips.call srt sensors z c = some w) :
    Ready w.tripPoints ∧ (∀ p ∈ polling w.tripPoints,∃ low,Lowest low w.tripPoints ∧ Computes low p.temp) ∨ w = z := by
  cases c with
  | addTrip trip force =>
    cases done
    cases force with
    | true => exact .inl (sort_ready srt sensors (z := {z with tripPoints := _}) single startable)
    | false => exact .inl (sort_ready srt sensors (z := {z with tripPoints := _}) single startable)
  | updateTripTemp trip =>
    cases done
    exact .inl (sort_ready srt sensors (z := {z with tripPoints := _}) single startable)
  | updateHighestTripTemp trip =>
    change updateHighestTripTemp srt sensors z trip = some w at done
    change Startable (PollingTrips.retemperLast z.tripPoints trip) at startable
    unfold updateHighestTripTemp at done
    unfold PollingTrips.retemperLast at startable
    split at done
    · exact .inr (Option.some.inj done).symm
    · cases search : searchBack trip.type z.tripPoints (z.tripPoints.length-1) with
      | none =>
        rw [search] at done
        cases done
      | some j =>
        rw [search] at done startable
        cases done
        exact .inl (sort_ready srt sensors (z := {z with tripPoints := _}) single startable)

theorem find_of_findIdx {trips : List TripPoint} {f : TripPoint → Bool} {j : Nat} (found : trips.findIdx? f = some j)
    {u : TripPoint} (here : trips[j]? = some u) : trips.find? f = some u := by
  rw [List.findIdx?_eq_some_iff_getElem] at found
  obtain ⟨inside,chosen,earlier⟩ := found
  rw [List.getElem?_eq_getElem inside] at here
  cases here
  refine List.find?_eq_some_iff_getElem.mpr ⟨chosen,j,inside,rfl,?_⟩
  intro i before
  have other := earlier i before
  simpa using other

theorem processorDev_retimed {z : Zone} {acpiThermal : List TripPoint} (cdevs : List Nat)
    (fits : Cond srt typeOf z (.processorDev acpiThermal cdevs)) :
    Retimed z.tripPoints (addInt340xProcessorDev srt typeOf z acpiThermal cdevs).tripPoints := by
  unfold addInt340xProcessorDev
  cases found : z.tripPoints.findIdx? hotPassive with
  | none => exact Retimed.refl _
  | some j =>
    have corrected : Retimed z.tripPoints (z.tripPoints.modify j (correctSetPoint (criticalTemp acpiThermal))) := by
      refine retimed_modify (found_real found ?_) ?_ ?_
      · intro t chosen polls
        simp [hotPassive,polls] at chosen
      · intro u
        unfold correctSetPoint
        split <;> rfl
      · intro u here
        unfold correctSetPoint
        by_cases needed : needsCorrection (criticalTemp acpiThermal) u = true
        · rw [if_pos needed]
          exact .inr (fits u (find_of_findIdx found here) needed)
        · rw [if_neg needed]
          exact .inl rfl
    exact corrected.trans (retimed_binds srt typeOf cdevs defaultInfluence (setZoneActive {z with
      tripPoints := z.tripPoints.modify j (correctSetPoint (criticalTemp acpiThermal))}))

theorem setTrip_retimed {z : Zone} {temp : Nat} (fits : ∀ p ∈ polling z.tripPoints,p.temp < temp) :
    Retimed z.tripPoints (updateFirstPassive temp z).tripPoints := by
  unfold updateFirstPassive
  cases found : z.tripPoints.findIdx? (fun t => t.type == .passive) with
  | none => exact Retimed.refl _
  | some j =>
    refine retimed_modify (found_real found ?_) (fun _ => rfl) (fun _ _ => .inr fits)
    intro t chosen polls
    simp [polls] at chosen

theorem partner_iff {t u : TripPoint} {next : Option TripPoint} (sentinel : isTargetValid t = some tripPtInvalidTargetState) :
    partner t next = some u ↔ next = some u ∧ ∃ k target,Halved t u k target := by
  rw [partner,Option.filter_eq_some_iff]
  refine and_congr_right fun _ => ?_
  rw [decide_eq_true_iff]
  constructor
  · rintro ⟨sensor,some,same,target⟩
    obtain ⟨k,device⟩ := Option.ne_none_iff_exists'.mp some
    obtain ⟨n,valid⟩ := Option.ne_none_iff_exists'.mp target
    exact ⟨k,n,sentinel,sensor,same.trans device,device,valid⟩
  · rintro ⟨k,target,halved⟩
    exact ⟨halved.sensor,by rw [halved.same]; exact Option.some_ne_none k,halved.device.trans halved.same.symm,
      by rw [halved.target]; exact Option.some_ne_none target⟩

-- The temperatures psvt_consolidate can give a trip.
theorem consolidateTrip_temp (t : TripPoint) (next : Option TripPoint) :
    (consolidateTrip minState t next).temp = t.temp ∨ isTargetValid t = some tripPtInvalidTargetState ∧
      (partner t next = none ∧ (consolidateTrip minState t next).temp = (t.temp+1000) % 4294967296 ∨
        ∃ u,partner t next = some u ∧ next = some u ∧ u.cdevs ≠ [] ∧
          (consolidateTrip minState t next).temp = (u.temp+t.temp) % 4294967296/2) := by
  by_cases sentinel : isTargetValid t = some tripPtInvalidTargetState
  case neg =>
    rw [consolidateTrip_settled minState sentinel]
    exact .inl rfl
  case pos =>
    right
    refine ⟨sentinel,?_⟩
    cases found : partner t next with
    | some u =>
      obtain ⟨rfl,k,target,halved⟩ := (partner_iff sentinel).mp found
      refine .inr ⟨u,rfl,rfl,?_,by rw [consolidateTrip_halved minState halved]⟩
      intro bare
      have targeted := halved.target
      rw [bare_untargeted bare] at targeted
      cases targeted
    | none =>
      rcases consolidateTrip_cases minState t next with ⟨settled,_⟩ | ⟨_,raised⟩ | ⟨u,k,target,given,halved,_⟩
      · exact absurd sentinel settled
      · exact .inl ⟨rfl,by rw [raised]; rfl⟩
      · rw [(partner_iff sentinel).mpr ⟨given,k,target,halved⟩] at found
        cases found

theorem consolidateTrip_bare {p : TripPoint} (bare : p.cdevs = []) (next : Option TripPoint) :
    consolidateTrip minState p next = p :=
  consolidateTrip_settled minState (untargeted_settled (bare_untargeted bare)) next

theorem consolidateTrip_type (t : TripPoint) (next : Option TripPoint) : (consolidateTrip minState t next).type = t.type :=
  congrArg (·.2.2) (PolicyZones.consolidateTrip_tag minState t next)

theorem consolidateTrips_polling {trips : List TripPoint} (bare : ∀ p ∈ polling trips,p.cdevs = []) :
    polling (consolidateTrips minState trips) = polling trips := by
  induction trips with
  | nil => rfl
  | cons t rest ih =>
    have later := ih (fun p inside => bare p (by
      rw [mem_polling] at inside ⊢
      exact ⟨List.mem_cons_of_mem _ inside.1,inside.2⟩))
    rw [consolidateTrips]
    by_cases polls : t.type = .polling
    · rw [consolidateTrip_bare minState (bare t (mem_polling.mpr ⟨List.mem_cons_self,polls⟩))]
      unfold polling at later ⊢
      rw [List.filter_cons,List.filter_cons,later]
    · have changed : (consolidateTrip minState t rest.head?).type ≠ .polling := by
        rw [consolidateTrip_type]
        exact polls
      unfold polling at later ⊢
      rw [List.filter_cons_of_neg (by simpa using changed),List.filter_cons_of_neg (by simpa using polls),later]

theorem mem_consolidateTrips {trips : List TripPoint} (unwrapped : AllUnwrapped trips) {t : TripPoint}
    (inside : t ∈ consolidateTrips minState trips) :
    ∃ u next,u ∈ trips ∧ (∀ v,next = some v → v ∈ trips) ∧ Unwrapped u next ∧ t = consolidateTrip minState u next := by
  induction trips with
  | nil => cases inside
  | cons first rest ih =>
    rcases List.mem_cons.mp inside with rfl | later
    · refine ⟨first,rest.head?,List.mem_cons_self,?_,unwrapped.1,rfl⟩
      intro v given
      exact List.mem_cons_of_mem _ (List.mem_of_mem_head? given)
    · obtain ⟨u,next,listed,nexts,fits,same⟩ := ih unwrapped.2 later
      exact ⟨u,next,List.mem_cons_of_mem _ listed,fun v given => List.mem_cons_of_mem _ (nexts v given),fits,same⟩

theorem consolidate_retimed {trips : List TripPoint} (ready : Ready trips) (unwrapped : AllUnwrapped trips) :
    Retimed trips (consolidateTrips minState trips) := by
  refine ⟨consolidateTrips_polling minState ready.bare,?_,nonPolling_filled ?_⟩
  · intro t inside
    obtain ⟨listed,real⟩ := mem_nonPolling.mp inside
    obtain ⟨u,next,within,nexts,fits,rfl⟩ := mem_consolidateTrips minState unwrapped listed
    rw [consolidateTrip_type] at real
    have uReal := mem_nonPolling.mpr ⟨within,real⟩
    rcases consolidateTrip_temp minState u next with same | ⟨valid,changed⟩
    · exact .inl ⟨u,uReal,same⟩
    · obtain ⟨degree,sums⟩ := fits valid
      right
      intro p polls
      have under := ready.below p polls u uReal
      rcases changed with ⟨alone,up⟩ | ⟨v,both,rfl,bound,middle⟩
      · rw [up,Nat.mod_eq_of_lt (degree alone)]
        omega
      · have vReal : v.type ≠ .polling := fun given =>
          bound (ready.bare v (mem_polling.mpr ⟨nexts v rfl,given⟩))
        have vUnder := ready.below p polls v (mem_nonPolling.mpr ⟨nexts v rfl,vReal⟩)
        rw [middle,Nat.mod_eq_of_lt (sums v both)]
        omega
  · have tags := congrArg (List.map (·.2.2)) (PolicyZones.consolidateTrips_tags minState trips)
    rwa [List.map_map,List.map_map] at tags

theorem secondTrip_key (z : Zone) (t : TripPoint) (k : Nat) :
    (secondTrip srt typeOf z t k).type = .passive ∧ (secondTrip srt typeOf z t k).temp = (t.temp+1000) % 4294967296 :=
  ⟨rfl,rfl⟩

-- The trip added a degree above does not lower the lowest one.
theorem startable_second {z : Zone} {t p : TripPoint} (shape : z.tripPoints = [t,p]) (real : t.type ≠ .polling)
    (polls : p.type = .polling) (startable : Startable z.tripPoints) (k : Nat) : Startable (z.tripPoints++[secondTrip srt typeOf z t k]) := by
  obtain ⟨type,temp⟩ := secondTrip_key srt typeOf z t k
  generalize secondTrip srt typeOf z t k = second at type temp ⊢
  have passive : nonPolling [second] = [second] := by simp [nonPolling,type]
  have unpolled : polling [second] = [] := by simp [polling,type]
  have alone : temps z.tripPoints = [t.temp] := by
    rw [shape]
    simp [temps,nonPolling,real,polls]
  have bound : t.temp ≤ 429496729 := by
    refine (startable.2 t.temp ?_).2
    unfold Lowest
    rw [alone]
    simp
  refine ⟨?_,?_⟩
  · rw [polling_append,unpolled,List.append_nil]
    exact startable.1
  · rintro low ⟨inside,least⟩
    have all : temps (z.tripPoints++[second]) = temps z.tripPoints++[second.temp] := by
      rw [temps,nonPolling_append,passive,List.map_append]
      rfl
    rw [all,alone] at inside least
    have under : low ≤ t.temp := least t.temp (List.mem_append_left _ (List.mem_singleton.mpr rfl))
    have same : low = t.temp := by
      rcases List.mem_append.mp inside with old | new
      · exact List.mem_singleton.mp old
      · -- it would be a degree above itself
        have up := List.mem_singleton.mp new
        rw [temp,Nat.mod_eq_of_lt (by omega)] at up
        omega
    refine startable.2 low ?_
    unfold Lowest
    rw [alone,same]
    simp

-- A valid target is one of the first cooling device.
theorem targeted_device {t : TripPoint} {state : Int} (valid : isTargetValid t = some state) : ∃ k,getFirstCdev t = some k := by
  cases shape : t.cdevs with
  | nil =>
    rw [bare_untargeted shape] at valid
    cases valid
  | cons b rest => exact ⟨b.cdev,by rw [getFirstCdev,shape]; rfl⟩

theorem consolidate_starts {z : Zone} (single : (boundIds sensors z.sensors).length = 1) (ready : Ready z.tripPoints)
    (fits : Cond srt typeOf z .consolidate) :
    Ready (consolidateZone srt typeOf minState sensors z).tripPoints ∧
      Starts z (consolidateZone srt typeOf minState sensors z) := by
  have loop (plain : ¬TakesThird z.tripPoints) : Ready (consolidateTrips minState z.tripPoints) ∧
      Starts z {z with tripPoints := consolidateTrips minState z.tripPoints} := by
    have retimed := consolidate_retimed minState ready ((if_neg plain).mp fits)
    exact ⟨retimed_ready ready retimed,starts_retimed ready retimed⟩
  unfold consolidateZone
  split
  · rename_i t p shape
    split
    · rename_i state k valid device
      have real : t.type ≠ .polling := by
        intro given
        have bare := ready.bare t (mem_polling.mpr ⟨shape ▸ List.mem_cons_self,given⟩)
        rw [bare_untargeted bare] at valid
        cases valid
      have polls : p.type = .polling := by
        by_contra other
        have both : nonPolling z.tripPoints = [t,p] := by
          rw [shape]
          simp [nonPolling,real,other]
        have one := ready.one (by rw [both]; exact List.cons_ne_nil _ _)
        rw [shape] at one
        simp [polling,real,other] at one
      have third : TakesThird z.tripPoints := by
        rw [shape,TakesThird,valid]
        exact Option.some_ne_none state
      have startable := startable_second srt typeOf shape real polls ((if_pos third).mp fits) k
      obtain ⟨after,computed⟩ := sort_ready srt sensors (z := {z with
        tripPoints := z.tripPoints++[secondTrip srt typeOf z t k]}) single startable
      exact ⟨after,starts_sorted after computed⟩
    · rename_i missing
      refine loop fun third => ?_
      rw [shape] at third
      obtain ⟨state,valid⟩ := Option.ne_none_iff_exists'.mp third
      obtain ⟨k,device⟩ := targeted_device valid
      exact missing state k valid device
  · rename_i other
    refine loop fun third => ?_
    unfold TakesThird at third
    split at third
    · rename_i t p shape
      exact other t p shape
    · exact third

theorem highest_sensors {z w : Zone} {trip : TripPoint} (done : updateHighestTripTemp srt sensors z trip = some w) :
    w.sensors = z.sensors := by
  have kept := PollingTrips.step_sensors srt sensors z (.updateHighestTripTemp trip)
  change ((updateHighestTripTemp srt sensors z trip).getD z).sensors = z.sensors at kept
  rw [done] at kept
  exact kept

theorem zoneUpdate_sensors {z w : Zone} {fresh : List TripPoint} {usrPsvTemp : Int} {links : List (Nat × TripPtCdev)}
    (done : zoneUpdate srt typeOf sensors z fresh usrPsvTemp links = some w) : w.sensors = z.sensors := by
  unfold zoneUpdate at done
  dsimp only at done
  obtain ⟨u,updated,last⟩ := Option.map_eq_some_iff.mp done
  rw [← last,sort_sensors]
  change u.sensors = z.sensors
  split at updated
  · exact highest_sensors srt sensors (z := {z with tripPoints := z.tripPoints++fresh}) updated
  · cases updated
    rfl

theorem consolidateZone_sensors (z : Zone) : (consolidateZone srt typeOf minState sensors z).sensors = z.sensors := by
  unfold consolidateZone
  split
  · split
    · exact sort_sensors srt sensors _
    · rfl
  · rfl

theorem step_sensors (z : Zone) (op : Op) : (step srt typeOf minState sensors z op).sensors = z.sensors := by
  cases op with
  | zoneUpdate fresh usrPsvTemp links =>
    change ((zoneUpdate srt typeOf sensors z fresh usrPsvTemp links).getD z).sensors = z.sensors
    cases done : zoneUpdate srt typeOf sensors z fresh usrPsvTemp links with
    | none => rfl
    | some w => exact zoneUpdate_sensors srt typeOf sensors done
  | userAddZone tripTemp sensor cdev usrPsvTemp =>
    change ((userAddZone srt typeOf sensors z tripTemp sensor cdev usrPsvTemp).getD z).sensors = z.sensors
    cases done : userAddZone srt typeOf sensors z tripTemp sensor cdev usrPsvTemp with
    | none => rfl
    | some w => exact zoneUpdate_sensors srt typeOf sensors done
  | call c => exact PollingTrips.step_sensors srt sensors z c
  | processorDev acpiThermal cdevs =>
    change (addInt340xProcessorDev srt typeOf z acpiThermal cdevs).sensors = z.sensors
    unfold addInt340xProcessorDev
    split
    · rfl
    · exact bind_sensors srt typeOf cdevs _ _
  | consolidate => exact consolidateZone_sensors srt typeOf minState sensors z
  | setTrip temp =>
    change (updateFirstPassive temp z).sensors = z.sensors
    unfold updateFirstPassive
    split <;> rfl

theorem step_starts {z : Zone} {op : Op} (single : (boundIds sensors z.sensors).length = 1) (ready : Ready z.tripPoints)
    (fits : Cond srt typeOf z op) :
    Ready (step srt typeOf minState sensors z op).tripPoints ∧ Starts z (step srt typeOf minState sensors z op) := by
  have stay : Ready z.tripPoints ∧ Starts z z := ⟨ready,starts_retimed ready (Retimed.refl _)⟩
  unfold step
  cases done : act srt typeOf minState sensors z op with
  | none => exact stay
  | some w =>
    change Ready w.tripPoints ∧ Starts z w
    cases op with
    | zoneUpdate fresh usrPsvTemp links =>
      obtain ⟨_,after,computed⟩ := zoneUpdate_ready srt typeOf sensors single fits done
      exact ⟨after,starts_sorted after computed⟩
    | userAddZone tripTemp sensor cdev usrPsvTemp =>
      obtain ⟨_,after,computed⟩ := zoneUpdate_ready srt typeOf sensors single fits done
      exact ⟨after,starts_sorted after computed⟩
    | call c =>
      rcases call_ready srt sensors single fits done with ⟨after,computed⟩ | rfl
      · exact ⟨after,starts_sorted after computed⟩
      · exact stay
    | processorDev acpiThermal cdevs =>
      cases done
      have retimed := processorDev_retimed srt typeOf cdevs fits
      exact ⟨retimed_ready ready retimed,starts_retimed ready retimed⟩
    | consolidate =>
      cases done
      exact consolidate_starts srt typeOf minState sensors single ready fits
    | setTrip temp =>
      cases done
      have retimed := setTrip_retimed fits
      exact ⟨retimed_ready ready retimed,starts_retimed ready retimed⟩

theorem run_ready {z : Zone} (single : (boundIds sensors z.sensors).length = 1) (ready : Ready z.tripPoints)
    {ops : List Op} (fits : Meets (step srt typeOf minState sensors) (Cond srt typeOf) z ops) :
    (boundIds sensors (run (step srt typeOf minState sensors) z ops).sensors).length = 1 ∧
      Ready (run (step srt typeOf minState sensors) z ops).tripPoints := by
  refine @run_invariant _ _ _ _ (fun z => (boundIds sensors z.sensors).length = 1 ∧ Ready z.tripPoints) ?_ z ops
    ⟨single,ready⟩ fits
  rintro s op ⟨one,given⟩ cond
  refine ⟨?_,(step_starts srt typeOf minState sensors one given cond).1⟩
  rw [step_sensors,one]

theorem polling_starts_below_every_trip {z : Zone} {s : Nat} (single : z.sensors = [s]) (valid : s < sensors.length)
    (fresh : z.tripPoints = []) {ops : List Op}
    (fits : Meets (step srt typeOf minState sensors) (Cond srt typeOf) z ops) :
    Stepwise (fun before op => Starts (run (step srt typeOf minState sensors) z before)
      (run (step srt typeOf minState sensors) z (before++[op]))) ops := by
  intro before op after split
  have one : (boundIds sensors z.sensors).length = 1 := by
    rw [single]
    exact PollingTrips.length_boundIds sensors (by simpa using valid)
  have ready : Ready z.tripPoints := by
    rw [fresh]
    exact ⟨Nat.zero_le 1,fun filled => absurd rfl filled,fun p inside => absurd inside List.not_mem_nil,
      fun p inside => absurd inside List.not_mem_nil⟩
  rw [split,meets_append] at fits
  obtain ⟨one',ready'⟩ := run_ready srt typeOf minState sensors one ready fits.1
  rw [run_snoc]
  exact (step_starts srt typeOf minState sensors one' ready' fits.2.1).2

def oneSensor : List Sensor := [⟨0,"TCPU",false,false⟩]

def plainZone : Zone := ⟨0,"TCPU",[],false,false,[0],.independent⟩

def firmwarePassive (temp : Nat) : TripPoint := TripPoint.new 0 .passive temp 1000 0 0 .parallel

def anyName (_ : Nat) : String := ""

def noState (_ : Nat) : Int := 0

theorem polling_starts_below_every_trip_firmware :
    Stepwise (fun before op => Starts (run (step .insertion anyName noState oneSensor) plainZone before)
      (run (step .insertion anyName noState oneSensor) plainZone (before++[op])))
      [.zoneUpdate [firmwarePassive 95000,firmwarePassive 105000] 0 [],.setTrip 90000,
        .call (.addTrip (firmwarePassive 88000) true),.consolidate] := by
  refine polling_starts_below_every_trip .insertion anyName noState oneSensor rfl (by decide) rfl ⟨?_,?_,?_,?_,trivial⟩
  · change Startable _
    decide +kernel
  · change ∀ p ∈ _,_
    decide +kernel
  · change Startable _
    decide +kernel
  · rw [Cond]
    decide +kernel

-- A zone that the user adds at a thousandth of a degree.
theorem user_zone_at_one_wraps :
    ¬ Stepwise (fun before op => Starts (run (step .insertion anyName noState oneSensor) plainZone before)
      (run (step .insertion anyName noState oneSensor) plainZone (before++[op])))
      [.userAddZone 1 ⟨0,"TCPU",false,false⟩ 0 0] := by
  intro all
  have starts := all [] _ [] rfl
  have below := starts.below
  revert below
  decide +kernel

end ChuwiMinibook.PollingStart
