import ChuwiMinibook.PsvtConsolidation

namespace ChuwiMinibook.TripIds
open Zone ZoneTrips AdaptiveEngine
open EcPolicy (ecEngine ecHost)

-- The numbers of the trips that can ask for cooling.
def ids (trips : List TripPoint) : List Int := (nonPolling trips).map (·.index)

def Bound (sensors : List Sensor) (z : Zone) : Prop := boundIds sensors z.sensors ≠ []

-- What add_trip relies on: every number was a count of trips, and a zone with its
-- first trip and one polling trip has used no number but 0.
structure Numbered (trips : List TripPoint) : Prop where
  size : trips = [] ∨ 2 ≤ trips.length
  range : ∀ i ∈ ids trips,0 ≤ i ∧ i < trips.length
  pair : trips.length = 2 → ∀ i ∈ ids trips,i = 0
  distinct : (ids trips).Nodup

theorem numbered_empty : Numbered [] where
  size := .inl rfl
  range i inside := by cases inside
  pair two := by cases two
  distinct := List.nodup_nil

section Zones
variable {srt : StdSort} {sensors : List Sensor} {z : Zone} {t : TripPoint}

theorem addTrip_sensors : (addTrip srt sensors z t).sensors = z.sensors := by
  rw [addTrip,PolicyZones.sortAndUpdate_fields]

theorem addTrip_ids (real : t.type ≠ .polling) :
    (ids (addTrip srt sensors z t).tripPoints).Perm (ids z.tripPoints++[t.index]) := by
  have kept := nonPolling_sortAndUpdate srt sensors {z with tripPoints := z.tripPoints++[t]}
  rw [nonPolling_append] at kept
  have single : nonPolling [t] = [t] := by simp [nonPolling,real]
  rw [single] at kept
  have numbers := kept.map (·.index)
  rwa [List.map_append,List.map_singleton] at numbers

-- At most one polling trip is erased, and each sensor brings one: the list grows.
theorem addTrip_grows (bound : Bound sensors z) (real : t.type ≠ .polling) :
    z.tripPoints.length < (addTrip srt sensors z t).tripPoints.length ∧ 2 ≤ (addTrip srt sensors z t).tripPoints.length := by
  have stays : t ∈ remaining (z.tripPoints++[t]) :=
    (List.mem_eraseP_of_neg (by simpa using real)).mpr (List.mem_append_right _ (List.mem_singleton_self t))
  have length := (PsvtConsolidation.sorted_keeps srt sensors
    (sortAndUpdate_sorted srt sensors {z with tripPoints := z.tripPoints++[t]}) (List.ne_nil_of_mem stays)).1
  have polls : 0 < (boundIds sensors z.sensors).length := List.length_pos_iff.mpr bound
  have some : 0 < (remaining (z.tripPoints++[t])).length := List.length_pos_of_mem stays
  have less : z.tripPoints.length ≤ (remaining (z.tripPoints++[t])).length := by
    rw [remaining,List.length_eraseP]
    split <;> simp
  rw [addTrip,length]
  dsimp only
  omega

theorem addTrip_numbered (bound : Bound sensors z) (numbered : Numbered z.tripPoints) (real : t.type ≠ .polling)
    (fresh : t.index ∉ ids z.tripPoints) (low : 0 ≤ t.index) (high : t.index ≤ z.tripPoints.length) :
    Numbered (addTrip srt sensors z t).tripPoints := by
  have perm : (ids (addTrip srt sensors z t).tripPoints).Perm (ids z.tripPoints++[t.index]) := addTrip_ids real
  obtain ⟨grows,two⟩ : z.tripPoints.length < (addTrip srt sensors z t).tripPoints.length ∧
    2 ≤ (addTrip srt sensors z t).tripPoints.length := addTrip_grows bound real
  refine ⟨.inr two,?_,?_,?_⟩
  · intro i inside
    rcases List.mem_append.mp (perm.mem_iff.mp inside) with old | new
    · have range := numbered.range i old
      omega
    · rw [List.mem_singleton.mp new]
      omega
  · intro count i inside
    have first : z.tripPoints = [] := by
      rcases numbered.size with none | more
      · exact none
      · omega
    rw [first] at high
    rcases List.mem_append.mp (perm.mem_iff.mp inside) with old | new
    · rw [first] at old
      cases old
    · rw [List.mem_singleton.mp new]
      simp at high
      omega
  · refine perm.nodup_iff.mpr (List.nodup_append.mpr ⟨numbered.distinct,List.nodup_singleton _,?_⟩)
    intro i old j new same
    rw [List.mem_singleton.mp new] at same
    exact fresh (same ▸ old)

-- The count of the trips is a new number.
theorem count_fresh (numbered : Numbered z.tripPoints) : (z.getTripCount : Int) ∉ ids z.tripPoints := by
  intro used
  have range := (numbered.range _ used).2
  unfold getTripCount at range
  omega

theorem counted_numbered (bound : Bound sensors z) (numbered : Numbered z.tripPoints) (index : t.index = z.getTripCount)
    (type : t.type = .passive) : Numbered (addTrip srt sensors z t).tripPoints := by
  refine addTrip_numbered bound numbered (by rw [type]; decide) ?_ ?_ ?_
  · rw [index]
    exact count_fresh numbered
  · omega
  · exact index.le

theorem install_numbered (bound : Bound sensors z) (numbered : Numbered z.tripPoints) (index : t.index = z.getTripCount)
    (type : t.type = .passive) : Numbered (install srt sensors z t).tripPoints :=
  counted_numbered (t := t) bound numbered index type

end Zones

section Consolidation
variable {sensors : List Sensor} {z : Zone} (minState : Nat → Int)

def ident (t : TripPoint) : Int × TripPointType := (t.index,t.type)

theorem ids_ident (trips : List TripPoint) :
    ids trips = ((trips.map ident).filter (fun i => i.2 ≠ .polling)).map (·.1) := by
  rw [List.filter_map,List.map_map]
  rfl

theorem consolidateTrip_ident (t : TripPoint) (next : Option TripPoint) : ident (consolidateTrip minState t next) = ident t := by
  rcases PsvtLoop.consolidateTrip_cases minState t next with ⟨_,same⟩ | ⟨_,raised⟩ | ⟨u,k,target,_,_,stored⟩
  · rw [same]
  · rw [raised]
    simp only [ident,oneDegreeUp,setFirstTargetInvalid]
  · rw [stored]
    simp only [ident,setFirstTarget]

theorem consolidateTrips_ident (trips : List TripPoint) : (consolidateTrips minState trips).map ident = trips.map ident := by
  induction trips with
  | nil => rfl
  | cons t rest ih => simp only [consolidateTrips,List.map_cons,consolidateTrip_ident,ih]

theorem consolidateTrips_numbered {trips : List TripPoint} (numbered : Numbered trips) :
    Numbered (consolidateTrips minState trips) := by
  have same := consolidateTrips_ident minState trips
  have length : (consolidateTrips minState trips).length = trips.length := by
    simpa using congrArg List.length same
  have numbers : ids (consolidateTrips minState trips) = ids trips := by rw [ids_ident,ids_ident,same]
  refine ⟨?_,?_,?_,?_⟩
  · rcases numbered.size with none | more
    · rw [none]
      exact .inl rfl
    · rw [length]
      exact .inr more
  · rw [numbers,length]
    exact numbered.range
  · rw [numbers,length]
    exact numbered.pair
  · rw [numbers]
    exact numbered.distinct

-- The constant 1 of the second trip: of two trips the only real one has the number 0.
theorem consolidateZone_numbered (srt : StdSort) (typeOf : Nat → String) (bound : Bound sensors z)
    (numbered : Numbered z.tripPoints) : Numbered (consolidateZone srt typeOf minState sensors z).tripPoints := by
  unfold consolidateZone
  split
  · rename_i t u shape
    split
    · rename_i k _ _
      have two : z.tripPoints.length = 2 := by rw [shape]; rfl
      have index : (secondTrip srt typeOf z t k).index = 1 := rfl
      have type : (secondTrip srt typeOf z t k).type = .passive := rfl
      refine addTrip_numbered bound numbered (by rw [type]; decide) ?_ (by rw [index]; decide) (by rw [index,two]; decide)
      rw [index]
      intro used
      exact absurd (numbered.pair two 1 used) (by decide)
    · exact consolidateTrips_numbered minState numbered
  · exact consolidateTrips_numbered minState numbered

theorem consolidateZone_sensors (srt : StdSort) (typeOf : Nat → String) :
    (consolidateZone srt typeOf minState sensors z).sensors = z.sensors :=
  (PolicyZones.extends_consolidateZone srt typeOf minState sensors z).sensors

end Consolidation

section Steps
variable {σ : Type} (host : Host σ)

-- The zone at a position has a sensor and its trips are numbered.
def At (e : Engine σ) (i : Nat) : Prop := ∃ z,e.zones[i]? = some z ∧ Bound e.sensors z ∧ Numbered z.tripPoints

theorem at_modify {e : Engine σ} {i : Nat} (here : At e i) (j : Nat) {f : Zone → Zone} (same : ∀ z,(f z).sensors = z.sensors)
    (each : ∀ z,Bound e.sensors z → Numbered z.tripPoints → Numbered (f z).tripPoints) :
    At {e with zones := e.zones.modify j f} i := by
  obtain ⟨z,present,bound,numbered⟩ := here
  by_cases it : j = i
  · refine ⟨f z,?_,?_,each z bound numbered⟩
    · simp [present,it]
    · unfold Bound
      rw [same]
      exact bound
  · exact ⟨z,by simp [present,it],bound,numbered⟩

theorem at_rowed {e e' : Engine σ} {i : Nat} {target : String} (rowed : PolicyZones.Rowed host e target e') (here : At e i) :
    At e' i := by
  cases rowed with
  | skipped => exact here
  | installed j zone temp hyst sensor k period valid state minMax low high found =>
    apply at_modify here
    · exact fun z => addTrip_sensors
    · exact fun z bound numbered => install_numbered bound numbered rfl rfl

theorem at_consolidate {e : Engine σ} {i : Nat} (here : At e i) : At (psvtConsolidate host e) i := by
  obtain ⟨z,present,bound,numbered⟩ := here
  refine ⟨_,?_,?_,consolidateZone_numbered (minStateOf e) host.sort e.cdevType bound numbered⟩
  · simp [psvtConsolidate,present]
  · unfold Bound
    rw [consolidateZone_sensors]
    exact bound

theorem ecZone_numbered (e : Engine σ) (sensor : Sensor) (k temp : Nat) {z : Zone} (bound : Bound e.sensors z)
    (numbered : Numbered z.tripPoints) : Numbered (ecZone host e sensor k temp z).tripPoints := by
  have first : Numbered (addTrip host.sort e.sensors z (ecTrip host.sort e.cdevType sensor k temp z)).tripPoints :=
    counted_numbered bound numbered rfl rfl
  refine counted_numbered (z := addTrip host.sort e.sensors z _) ?_ first rfl rfl
  unfold Bound
  rw [addTrip_sensors]
  exact bound

theorem at_installEcZone {e : Engine σ} {i : Nat} (here : At e i) (k : Nat) (zone : String × Nat) :
    At (installEcZone host k e zone) i := by
  unfold installEcZone
  split
  · exact here
  split
  · exact here
  · rename_i sensor _
    apply at_modify here
    · exact fun z => (PolicyZones.extends_ecZone host e sensor k zone.2 z).sensors
    · exact fun z bound numbered => ecZone_numbered host e sensor k zone.2 bound numbered

theorem at_installEc {e : Engine σ} {i : Nat} (here : At e i) : At (installMinibookEcZones host e) i := by
  unfold installMinibookEcZones
  split
  · exact here
  · rename_i k _
    have all (zones : List (String × Nat)) : ∀ e : Engine σ,At e i → At (zones.foldl (installEcZone host k) e) i := by
      induction zones with
      | nil => exact fun e here => here
      | cons zone rest ih => exact fun e here => ih _ (at_installEcZone host here k zone)
    exact all ecZones e here

-- The steps that add or rewrite trips, in any order.
inductive Step where
  | installPassive (psv : Psv)
  | installItmt (entry : ItmtEntry)
  | psvtConsolidate
  | installMinibookEcZones

def act (e : Engine σ) : Step → Engine σ
  | .installPassive psv => installPassive host e psv
  | .installItmt entry => installItmt host e entry
  | .psvtConsolidate => psvtConsolidate host e
  | .installMinibookEcZones => installMinibookEcZones host e

theorem at_act {e : Engine σ} {i : Nat} (here : At e i) (step : Step) : At (act host e step) i := by
  cases step with
  | installPassive psv => exact at_rowed host (PolicyZones.installPassive_rowed host e psv) here
  | installItmt entry => exact at_rowed host (PolicyZones.installItmt_rowed host e entry) here
  | psvtConsolidate => exact at_consolidate host here
  | installMinibookEcZones => exact at_installEc host here

theorem at_run {e : Engine σ} {i : Nat} (here : At e i) (steps : List Step) : At (steps.foldl (act host) e) i := by
  induction steps generalizing e with
  | nil => exact here
  | cons step rest ih => exact ih (at_act host here step)

-- From no trips on, no two trips of a zone other than its polling trips share a number.
theorem trip_ids_unique (e : Engine σ) (steps : List Step) {i : Nat} {z w : Zone} (here : e.zones[i]? = some z)
    (empty : z.tripPoints = []) (bound : ∃ s ∈ z.sensors,∃ sensor,e.sensors[s]? = some sensor)
    (after : (steps.foldl (act host) e).zones[i]? = some w) :
    (w.tripPoints.filter (fun t => t.type ≠ .polling)).Pairwise (fun t u => t.index ≠ u.index) := by
  obtain ⟨s,listed,sensor,present⟩ := bound
  have polled : Bound e.sensors z := List.ne_nil_of_mem (List.mem_filterMap.mpr ⟨s,listed,by rw [present]; rfl⟩)
  have start : At e i := ⟨z,here,polled,empty ▸ numbered_empty⟩
  obtain ⟨w',same,_,numbered⟩ := at_run host start steps
  cases after.symm.trans same
  exact List.pairwise_map.mp numbered.distinct

end Steps

-- A single trip with a target, its second trip, and the two trips of the EC.
def ecSteps : List Step := [.installPassive (PsvtConsolidation.row 3332 "15000"),.psvtConsolidate,.installMinibookEcZones]

theorem trip_ids_unique_ec : ∃ w,(ecSteps.foldl (act ecHost) ecEngine).zones[0]? = some w ∧
    (w.tripPoints.filter (fun t => t.type ≠ .polling)).Pairwise (fun t u => t.index ≠ u.index) := by
  have some : ((ecSteps.foldl (act ecHost) ecEngine).zones[0]?).isSome = true := by decide +kernel
  obtain ⟨w,after⟩ := Option.isSome_iff_exists.mp some
  exact ⟨w,after,trip_ids_unique ecHost ecEngine ecSteps (i := 0) rfl rfl ⟨0,by decide,_,rfl⟩ after⟩

end ChuwiMinibook.TripIds
