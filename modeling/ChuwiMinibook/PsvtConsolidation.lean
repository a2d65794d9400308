import ChuwiMinibook.EcPolicy
import ChuwiMinibook.PollingStart

namespace ChuwiMinibook.PsvtConsolidation
open Zone ZoneTrips AdaptiveEngine PsvtLoop
open EcPolicy (ecEngine ecHost)

-- A zone whose trips install_passive has added.
structure Installed (sensors : List Sensor) (z : Zone) : Prop where
  single : ∀ t ∈ z.tripPoints,t.cdevs.length ≤ 1
  bare : ∀ t ∈ z.tripPoints,t.type = .polling → t.cdevs = []
  bound : (∃ t ∈ z.tripPoints,t.type = .polling) → boundIds sensors z.sensors ≠ []

section Zones
variable (srt : StdSort) (sensors : List Sensor)

theorem installed_empty {z : Zone} (none : z.tripPoints = []) : Installed sensors z := by
  have out : ∀ t,t ∉ z.tripPoints := fun t inside => List.not_mem_nil (none ▸ inside)
  exact ⟨fun t inside => absurd inside (out t),fun t inside => absurd inside (out t),
    fun ⟨t,inside,_⟩ => absurd inside (out t)⟩

theorem mem_remaining {trips : List TripPoint} {t : TripPoint} (inside : t ∈ remaining trips) : t ∈ trips :=
  List.mem_of_mem_eraseP inside

-- A trip after sort_and_update_poll_trip was there before or is a polling trip.
theorem mem_sorted {z : Zone} {trips : List TripPoint} (sorted : Sorted srt sensors z trips) {t : TripPoint}
    (inside : t ∈ trips) :
    t ∈ z.tripPoints ∨ t.type = .polling ∧ t.cdevs = [] ∧ boundIds sensors z.sensors ≠ [] := by
  cases sorted with
  | empty none => cases inside
  | trips lowest rest appended shape given =>
    rcases List.mem_append.mp inside with before | new
    · rw [← shape] at before
      exact .inl (mem_remaining ((srt.perm tripSort _).mem_iff.mp before))
    · obtain ⟨polls,_,_,bare⟩ := given.each t new
      refine .inr ⟨polls,bare,?_⟩
      rw [← given.ids]
      exact List.ne_nil_of_mem (List.mem_map_of_mem new)

-- What is left of the trips stays, and a polling trip comes for each sensor.
theorem sorted_keeps {z : Zone} {trips : List TripPoint} (sorted : Sorted srt sensors z trips)
    (filled : remaining z.tripPoints ≠ []) :
    trips.length = (remaining z.tripPoints).length+(boundIds sensors z.sensors).length ∧
      ∀ v ∈ remaining z.tripPoints,v ∈ trips := by
  cases sorted with
  | empty none => exact absurd none filled
  | trips lowest rest appended order given =>
    have perm := srt.perm tripSort (remaining z.tripPoints)
    rw [order] at perm
    have polled := congrArg List.length given.ids
    rw [List.length_map] at polled
    refine ⟨?_,fun v inside => List.mem_append_left _ (perm.mem_iff.mpr inside)⟩
    rw [List.length_append,perm.length_eq,polled]

theorem addTrip_installed {z : Zone} {t : TripPoint} (installed : Installed sensors z) (single : t.cdevs.length ≤ 1)
    (real : t.type ≠ .polling) : Installed sensors (addTrip srt sensors z t) := by
  let w : Zone := {z with tripPoints := z.tripPoints++[t]}
  have fields := PolicyZones.sortAndUpdate_fields srt sensors w
  have old : ∀ u ∈ w.tripPoints,u.cdevs.length ≤ 1 ∧ (u.type = .polling → u.cdevs = [] ∧ boundIds sensors z.sensors ≠ []) := by
    intro u inside
    rcases List.mem_append.mp inside with before | new
    · exact ⟨installed.single u before,fun polls => ⟨installed.bare u before polls,installed.bound ⟨u,before,polls⟩⟩⟩
    · rw [List.mem_singleton.mp new]
      exact ⟨single,fun polls => absurd polls real⟩
  have all : ∀ u ∈ (addTrip srt sensors z t).tripPoints,
      u.cdevs.length ≤ 1 ∧ (u.type = .polling → u.cdevs = [] ∧ boundIds sensors z.sensors ≠ []) := by
    intro u inside
    rcases mem_sorted srt sensors (sortAndUpdate_sorted srt sensors w) inside with before | ⟨_,bare,bound⟩
    · exact old u before
    · exact ⟨by rw [bare]; exact Nat.zero_le 1,fun _ => ⟨bare,bound⟩⟩
  refine ⟨fun u inside => (all u inside).1,fun u inside polls => ((all u inside).2 polls).1,?_⟩
  rintro ⟨u,inside,polls⟩
  have same : (addTrip srt sensors z t).sensors = z.sensors := by
    rw [addTrip,fields]
  rw [same]
  exact ((all u inside).2 polls).2

theorem new_cdevs (typeOf : Nat → String) (index : Int) (type : TripPointType) (temp hyst : Nat) (zoneId sensorId : Int)
    (control : TripControlType) (k : Nat) (influence period : Int) (valid : Bool) (state : Int) (minMax : Bool)
    (low high : Int) : ∃ b,(TripPoint.thdTripPointAddCdev srt typeOf
      (TripPoint.new index type temp hyst zoneId sensorId control) k influence period valid state minMax low high).cdevs =
        [b] ∧ b.targetStateValid = valid := by
  refine ⟨_,List.perm_singleton.mp (srt.perm TripPoint.tripCdevSort _),rfl⟩

theorem secondTrip_untargeted (typeOf : Nat → String) (z : Zone) (t : TripPoint) (k : Nat) :
    (secondTrip srt typeOf z t k).cdevs.length = 1 ∧ isTargetValid (secondTrip srt typeOf z t k) = none := by
  obtain ⟨b,shape,invalid⟩ := new_cdevs srt typeOf 1 .passive ((t.temp+1000) % 4294967296) 0 z.index t.sensorId
    .sequential k defaultInfluence 0 false tripPtInvalidTargetState false 0 0
  have cdevs : (secondTrip srt typeOf z t k).cdevs = [b] := shape
  refine ⟨congrArg List.length cdevs,?_⟩
  rw [isTargetValid,cdevs]
  simp [invalid]

end Zones

section Rows
variable {σ : Type} (host : Host σ)

def AllInstalled (e : Engine σ) : Prop := ∀ z ∈ e.zones,Installed e.sensors z

theorem rowed_installed {e e' : Engine σ} {target : String} (installed : AllInstalled e)
    (rowed : PolicyZones.Rowed host e target e') : AllInstalled e' := by
  cases rowed with
  | skipped => exact installed
  | installed i zone temp hyst sensor k period valid state minMax low high found =>
    intro z inside
    dsimp only at inside ⊢
    obtain ⟨j,present⟩ := List.mem_iff_getElem?.mp inside
    rw [List.getElem?_modify] at present
    obtain ⟨old,there,same⟩ := Option.map_eq_some_iff.mp present
    have before := installed old (List.mem_of_getElem? there)
    split at same
    · cases same
      obtain ⟨b,shape,_⟩ := new_cdevs host.sort e.cdevType old.getTripCount .passive temp hyst old.index sensor.index
        .sequential k defaultInfluence period valid state minMax low high
      have real : (TripPointType.passive) ≠ .polling := by decide
      have added := addTrip_installed host.sort e.sensors before (Nat.le_of_eq (congrArg List.length shape)) real
      exact ⟨added.single,added.bare,added.bound⟩
    · cases same
      exact before

def installRows (e : Engine σ) (rows : List Psv) : Engine σ := rows.foldl (installPassive host) e

-- The rows of a table over zones without trips.
theorem rows_installed {e : Engine σ} (empty : ∀ z ∈ e.zones,z.tripPoints = []) (rows : List Psv) :
    AllInstalled (installRows host e rows) := by
  have start : AllInstalled e := fun z inside => installed_empty e.sensors (empty z inside)
  clear empty
  induction rows generalizing e with
  | nil => exact start
  | cons psv rest ih => exact ih (rowed_installed host start (PolicyZones.installPassive_rowed host _ psv))

end Rows

-- The special case: two trips and a target for the first one.
def Special (z : Zone) : Prop := ∃ t u,z.tripPoints = [t,u] ∧ isTargetValid t ≠ none

-- Its one trip with a target, or the one behind it, has the sentinel.
def SingleMax (z : Zone) : Prop := ∃ t u,z.tripPoints = [t,u] ∧ isTargetValid t ≠ none ∧ ¬(Settled t ∧ Settled u)

theorem SingleMax.special {z : Zone} (single : SingleMax z) : Special z := by
  obtain ⟨t,u,shape,targeted,-⟩ := single
  exact ⟨t,u,shape,targeted⟩

theorem singleMax_special {z : Zone} {t u : TripPoint} (shape : z.tripPoints = [t,u])
    (targeted : isTargetValid t ≠ none) : ¬SingleMax z ↔ Settled t ∧ Settled u := by
  constructor
  · intro none
    by_contra unsettled
    exact none ⟨t,u,shape,targeted,unsettled⟩
  · rintro settled ⟨v,x,other,-,unsettled⟩
    rw [shape] at other
    cases other
    exact unsettled settled

section Pass
variable (srt : StdSort) (typeOf : Nat → String) (minState : Nat → Int) (sensors : List Sensor)

theorem first_device {t : TripPoint} (targeted : isTargetValid t ≠ none) : ∃ k,getFirstCdev t = some k := by
  unfold isTargetValid at targeted
  unfold getFirstCdev
  cases shape : t.cdevs with
  | nil =>
    rw [shape] at targeted
    exact absurd rfl targeted
  | cons b rest => exact ⟨b.cdev,rfl⟩

theorem consolidateZone_special {z : Zone} {t u : TripPoint} (shape : z.tripPoints = [t,u])
    (targeted : isTargetValid t ≠ none) :
    ∃ k,consolidateZone srt typeOf minState sensors z = addTrip srt sensors z (secondTrip srt typeOf z t k) := by
  obtain ⟨state,valid⟩ := Option.ne_none_iff_exists'.mp targeted
  obtain ⟨k,device⟩ := first_device targeted
  refine ⟨k,?_⟩
  unfold consolidateZone
  rw [shape]
  dsimp only
  rw [valid,device]

theorem consolidateZone_loop {z : Zone} (other : ¬Special z) : consolidateZone srt typeOf minState sensors z =
    {z with tripPoints := consolidateTrips minState z.tripPoints} := by
  unfold consolidateZone
  split
  · rename_i t u shape
    split
    · rename_i valid _
      exact absurd ⟨t,u,shape,by rw [valid]; exact Option.some_ne_none _⟩ other
    · rfl
  · rfl

-- What the special case leaves: the two trips, of which the second may be the
-- polling trip, and others without a target.
structure Tripled (t u : TripPoint) (trips : List TripPoint) : Prop where
  more : 3 ≤ trips.length
  first : t ∈ trips
  second : u ∈ trips ∨ u.cdevs = []
  others : ∀ v ∈ trips,v = t ∨ v = u ∨ isTargetValid v = none
  single : ∀ v ∈ trips,v.cdevs.length ≤ 1

theorem extra_others {z : Zone} {t u extra : TripPoint} (shape : z.tripPoints = [t,u])
    (untargeted : isTargetValid extra = none) :
    ∀ v ∈ (addTrip srt sensors z extra).tripPoints,v = t ∨ v = u ∨ isTargetValid v = none := by
  intro v inside
  have sorted := sortAndUpdate_sorted srt sensors {z with tripPoints := z.tripPoints++[extra]}
  rcases mem_sorted srt sensors sorted inside with before | ⟨_,bare,_⟩
  · rw [shape] at before
    simp only [List.cons_append,List.nil_append,List.mem_cons,List.not_mem_nil,or_false] at before
    rcases before with same | same | same
    · exact .inl same
    · exact .inr (.inl same)
    · exact .inr (.inr (same ▸ untargeted))
  · exact .inr (.inr (bare_untargeted bare))

theorem extra_tripled {z : Zone} (installed : Installed sensors z) {t u extra : TripPoint}
    (shape : z.tripPoints = [t,u]) (targeted : isTargetValid t ≠ none) (one : extra.cdevs.length = 1)
    (passive : extra.type ≠ .polling) (untargeted : isTargetValid extra = none) :
    Tripled t u (addTrip srt sensors z extra).tripPoints := by
  have real : t.type ≠ .polling := by
    intro polls
    exact targeted (bare_untargeted (installed.bare t (shape ▸ List.mem_cons_self) polls))
  have others := extra_others srt sensors shape untargeted
  have single := (addTrip_installed srt sensors installed (Nat.le_of_eq one) passive).single
  have sorted : Sorted srt sensors {z with tripPoints := z.tripPoints++[extra]} (addTrip srt sensors z extra).tripPoints :=
    sortAndUpdate_sorted srt sensors _
  have left : remaining (z.tripPoints++[extra]) = if u.type = .polling then [t,extra] else [t,u,extra] := by
    rw [shape]
    by_cases polls : u.type = .polling <;> simp [remaining,real,polls,passive]
  obtain ⟨size,listed⟩ := sorted_keeps srt sensors sorted (by rw [left]; split <;> exact List.cons_ne_nil _ _)
  dsimp only at size listed
  by_cases polls : u.type = .polling
  · -- the polling trip is one of a sensor's
    have bound := List.length_pos_iff.mpr (installed.bound ⟨u,shape ▸ by simp,polls⟩)
    rw [left,if_pos polls] at size listed
    refine ⟨?_,listed t (by simp),.inr (installed.bare u (shape ▸ by simp) polls),others,single⟩
    rw [size]
    exact Nat.add_le_add_left bound 2
  · rw [left,if_neg polls] at size listed
    refine ⟨?_,listed t (by simp),.inl (listed u (by simp)),others,single⟩
    rw [size]
    exact Nat.le_add_right 3 _

theorem special_tripled {z : Zone} (installed : Installed sensors z) {t u : TripPoint} (shape : z.tripPoints = [t,u])
    (targeted : isTargetValid t ≠ none) :
    Tripled t u (consolidateZone srt typeOf minState sensors z).tripPoints := by
  obtain ⟨k,added⟩ := consolidateZone_special srt typeOf minState sensors shape targeted
  obtain ⟨one,untargeted⟩ := secondTrip_untargeted srt typeOf z t k
  have passive : (secondTrip srt typeOf z t k).type ≠ .polling := by
    intro polls
    cases polls
  rw [added]
  exact extra_tripled srt sensors installed shape targeted one passive untargeted

theorem tripled_settled_iff {t u : TripPoint} {trips : List TripPoint} (given : Tripled t u trips) :
    (∀ v ∈ trips,Settled v) ↔ Settled t ∧ Settled u := by
  constructor
  · intro settled
    refine ⟨settled t given.first,?_⟩
    rcases given.second with listed | bare
    · exact settled u listed
    · exact untargeted_settled (bare_untargeted bare)
  · rintro ⟨first,second⟩ v inside
    rcases given.others v inside with rfl | rfl | untargeted
    · exact first
    · exact second
    · exact untargeted_settled untargeted

theorem tripled_not_special {t u : TripPoint} {w : Zone} (given : Tripled t u w.tripPoints) : ¬Special w := by
  rintro ⟨v,x,shape,-⟩
  have more := given.more
  rw [shape,List.length_cons,List.length_singleton] at more
  omega

-- The loop does not make a first target valid.
theorem looped_not_special {z : Zone} (other : ¬Special z) :
    ¬Special {z with tripPoints := consolidateTrips minState z.tripPoints} := by
  rintro ⟨t,u,shape,targeted⟩
  rcases trips : z.tripPoints with _ | ⟨first,_ | ⟨second,_ | ⟨third,rest⟩⟩⟩
  · rw [trips] at shape
    cases shape
  · rw [trips] at shape
    cases shape
  · rw [trips] at shape
    simp only [consolidateTrips,List.head?_cons,List.cons.injEq] at shape
    have untargeted : isTargetValid first = none := by
      by_contra some
      exact other ⟨first,second,trips,some⟩
    rw [← shape.1,consolidateTrip_settled minState (untargeted_settled untargeted)] at targeted
    exact targeted untargeted
  · rw [trips] at shape
    cases shape

theorem consolidateZone_twice_iff {z : Zone} (installed : Installed sensors z) :
    consolidateZone srt typeOf minState sensors (consolidateZone srt typeOf minState sensors z) =
      consolidateZone srt typeOf minState sensors z ↔ ¬SingleMax z := by
  by_cases special : Special z
  · obtain ⟨t,u,shape,targeted⟩ := special
    have tripled := special_tripled srt typeOf minState sensors installed shape targeted
    generalize consolidateZone srt typeOf minState sensors z = w at tripled ⊢
    rw [consolidateZone_loop srt typeOf minState sensors (tripled_not_special tripled)]
    have fixed : ({w with tripPoints := consolidateTrips minState w.tripPoints} : Zone) = w ↔
        consolidateTrips minState w.tripPoints = w.tripPoints := by
      constructor
      · intro same
        exact congrArg Zone.tripPoints same
      · intro same
        rw [same]
    rw [fixed,consolidateTrips_fixed_iff minState tripled.single,tripled_settled_iff tripled,
      singleMax_special shape targeted]
  · refine iff_of_true ?_ (fun single => special single.special)
    rw [consolidateZone_loop srt typeOf minState sensors special,
      consolidateZone_loop srt typeOf minState sensors (looped_not_special minState special)]
    dsimp only
    rw [consolidateTrips_settled minState (consolidateTrips_settles minState installed.single)]

theorem consolidateZone_settles_iff {z : Zone} (installed : Installed sensors z) :
    (∀ t ∈ (consolidateZone srt typeOf minState sensors z).tripPoints,Settled t) ↔ ¬SingleMax z := by
  by_cases special : Special z
  · obtain ⟨t,u,shape,targeted⟩ := special
    rw [tripled_settled_iff (special_tripled srt typeOf minState sensors installed shape targeted),
      singleMax_special shape targeted]
  · rw [consolidateZone_loop srt typeOf minState sensors special]
    exact iff_of_true (consolidateTrips_settles minState installed.single) (fun single => special single.special)

end Pass

section Engine
variable {σ : Type} (host : Host σ)

-- A second pass changes nothing exactly if no zone is left with a single MAX trip.
theorem consolidate_twice_iff {e : Engine σ} (empty : ∀ z ∈ e.zones,z.tripPoints = []) (rows : List Psv) :
    psvtConsolidate host (psvtConsolidate host (installRows host e rows)) =
        psvtConsolidate host (installRows host e rows) ↔
      ∀ z ∈ (installRows host e rows).zones,¬SingleMax z := by
  have installed := rows_installed host empty rows
  generalize installRows host e rows = e at installed ⊢
  have zones : psvtConsolidate host (psvtConsolidate host e) = psvtConsolidate host e ↔
      (psvtConsolidate host (psvtConsolidate host e)).zones = (psvtConsolidate host e).zones := by
    constructor
    · intro same
      exact congrArg Engine.zones same
    · intro same
      exact congrArg (fun zones => {e with zones := zones}) same
  rw [zones]
  change List.map _ (List.map _ e.zones) = List.map _ e.zones ↔ _
  rw [List.map_map,List.map_inj_left]
  exact forall₂_congr fun z inside => consolidateZone_twice_iff host.sort e.cdevType (minStateOf e) e.sensors (installed z inside)

-- The midpoint that the loop stores at a trip.
structure Sound (state target stored : Int) : Prop where
  fits : FitsInt (state+target)
  between : min state target ≤ stored ∧ stored ≤ max state target

-- min_state leaves room for the next trip's target.
def Room (state target : Int) : Prop := -2147483648-target ≤ state ∧ state ≤ 2147483647-target

instance (state target : Int) : Decidable (Room state target) := inferInstanceAs (Decidable (_ ∧ _))

theorem room_fits (state target : Int) : Room state target ↔ FitsInt (state+target) := by
  unfold Room FitsInt
  omega

-- No valid sentinel is left, and every midpoint is sound.
structure SoundlyRemoved (e : Engine σ) : Prop where
  sentinel : ∀ z ∈ (psvtConsolidate host e).zones,∀ t ∈ z.tripPoints,Settled t
  midpoints : ∀ (i : Nat) z,e.zones[i]? = some z → ¬Special z → ∀ front t u back k target,
    z.tripPoints = front++t::u::back → Halved t u k target → ∃ w after stored,
      (psvtConsolidate host e).zones[i]? = some w ∧ w.tripPoints[front.length]? = some after ∧
        isTargetValid after = some stored ∧ Sound (minStateOf e k) target stored

theorem midpoint_stored {e : Engine σ} {i : Nat} {z : Zone} (present : e.zones[i]? = some z) (other : ¬Special z)
    {front : List TripPoint} {t u : TripPoint} {back : List TripPoint} {k : Nat} {target : Int}
    (split : z.tripPoints = front++t::u::back) (halved : Halved t u k target) : ∃ w after,
      (psvtConsolidate host e).zones[i]? = some w ∧ w.tripPoints[front.length]? = some after ∧
        isTargetValid after = some (half (minStateOf e k) target) := by
  refine ⟨consolidateZone host.sort e.cdevType (minStateOf e) e.sensors z,
    consolidateTrip (minStateOf e) t (some u),?_,?_,?_⟩
  · rw [psvtConsolidate,List.getElem?_map,present,Option.map_some]
  · rw [consolidateZone_loop host.sort e.cdevType (minStateOf e) e.sensors other,split]
    exact consolidateTrips_at (minStateOf e) front t u back
  · rw [consolidateTrip_halved (minStateOf e) halved]
    exact stored_target halved.device _ _

theorem sentinel_removed_iff {e : Engine σ} (installed : AllInstalled e) :
    (∀ z ∈ (psvtConsolidate host e).zones,∀ t ∈ z.tripPoints,Settled t) ↔ ∀ z ∈ e.zones,¬SingleMax z := by
  change (∀ z ∈ e.zones.map _,_) ↔ _
  rw [List.forall_mem_map]
  exact forall₂_congr fun z inside =>
    consolidateZone_settles_iff host.sort e.cdevType (minStateOf e) e.sensors (installed z inside)

-- The pass is sound exactly if no zone is left with a single MAX trip and min_state
-- leaves room for the next target wherever a midpoint is stored.
theorem soundly_removed_iff {e : Engine σ} (empty : ∀ z ∈ e.zones,z.tripPoints = []) (rows : List Psv) :
    SoundlyRemoved host (installRows host e rows) ↔
      ∀ z ∈ (installRows host e rows).zones,¬SingleMax z ∧ (¬Special z →
        ∀ front t u back k target,z.tripPoints = front++t::u::back → Halved t u k target →
          Room (minStateOf (installRows host e rows) k) target) := by
  have installed := rows_installed host empty rows
  generalize installRows host e rows = e at installed ⊢
  have removed := sentinel_removed_iff host installed
  constructor
  · rintro ⟨sentinel,midpoints⟩ z inside
    refine ⟨removed.mp sentinel z inside,?_⟩
    intro other front t u back k target split halved
    obtain ⟨i,present⟩ := List.mem_iff_getElem?.mp inside
    obtain ⟨w,after,stored,_,_,_,sound⟩ := midpoints i z present other front t u back k target split halved
    exact (room_fits _ _).mpr sound.fits
  · intro each
    refine ⟨removed.mpr fun z inside => (each z inside).1,?_⟩
    intro i z present other front t u back k target split halved
    have room := (each z (List.mem_of_getElem? present)).2 other front t u back k target split halved
    have fits := (room_fits _ _).mp room
    obtain ⟨w,after,zone,trip,stored⟩ := midpoint_stored host present other split halved
    exact ⟨w,after,_,zone,trip,stored,fits,half_between fits⟩

end Engine

-- A row for the soc zone, driven by the RAPL device.
def row (temp : Int) (limit : String) : Psv :=
  ⟨"rapl_controller_mmio","minibook_soc",0,100,temp,0,0,limit,0,0,0⟩

theorem ec_empty : ∀ z ∈ ecEngine.zones,z.tripPoints = [] := by decide

theorem no_single {z : Zone} (other : z.tripPoints.length ≠ 2) : ¬SingleMax z := by
  rintro ⟨t,u,shape,-⟩
  rw [shape] at other
  exact other rfl

-- A MAX trip with a limit of 15 watts above it.
def midpointRows : List Psv := [row 3332 "MAX",row 3432 "15000"]

theorem midpoint_sizes : ∀ z ∈ (installRows ecHost ecEngine midpointRows).zones,z.tripPoints.length ≠ 2 := by
  decide +kernel

theorem consolidate_twice_midpoint :
    psvtConsolidate ecHost (psvtConsolidate ecHost (installRows ecHost ecEngine midpointRows)) =
      psvtConsolidate ecHost (installRows ecHost ecEngine midpointRows) := by
  refine (consolidate_twice_iff ecHost ec_empty midpointRows).mpr ?_
  exact fun z inside => no_single (midpoint_sizes z inside)

theorem single_max_raised_twice :
    psvtConsolidate ecHost (psvtConsolidate ecHost (installRows ecHost ecEngine [row 3332 "MAX"])) ≠
      psvtConsolidate ecHost (installRows ecHost ecEngine [row 3332 "MAX"]) := by
  decide +kernel

theorem soundly_removed_midpoint :
    SoundlyRemoved ecHost (installRows ecHost ecEngine midpointRows) := by
  refine (soundly_removed_iff ecHost ec_empty midpointRows).mpr ?_
  have sizes := midpoint_sizes
  have rooms : ∀ z ∈ (installRows ecHost ecEngine midpointRows).zones,∀ u ∈ z.tripPoints.tail,
      (isTargetValid u).all (fun target => (getFirstCdev u).all (fun k =>
        Room (minStateOf (installRows ecHost ecEngine midpointRows) k) target)) = true := by
    decide +kernel
  generalize installRows ecHost ecEngine midpointRows = e at sizes rooms ⊢
  intro z inside
  refine ⟨no_single (sizes z inside),?_⟩
  intro _ front t u back k target split halved
  have listed : u ∈ z.tripPoints.tail := by
    rw [split]
    cases front <;> simp
  have room := rooms z inside u listed
  rw [halved.target,halved.same] at room
  simpa using room

theorem sentinel_stays : ¬SoundlyRemoved ecHost (installRows ecHost ecEngine [row 3332 "MAX"]) ∧
    ¬SoundlyRemoved ecHost (installRows ecHost ecEngine [row 3332 "MAX",row 3432 "MAX"]) := by
  constructor
  · intro given
    exact absurd given.sentinel (by decide +kernel)
  · -- INT32_MAX and the device's min_state are added
    intro given
    have facts : ((installRows ecHost ecEngine [row 3332 "MAX",row 3432 "MAX"]).zones[0]?).map (fun z =>
        z.tripPoints.map (fun t => (isTargetValid t,getFirstCdev t,t.sensorId))) =
        some [(some 2147483647,some 0,0),(some 2147483647,some 0,0),(none,none,0)] := by decide +kernel
    have state : minStateOf (installRows ecHost ecEngine [row 3332 "MAX",row 3432 "MAX"]) 0 = 17000000 := by
      decide +kernel
    obtain ⟨z,present,trips⟩ := Option.map_eq_some_iff.mp facts
    rcases shape : z.tripPoints with _ | ⟨t,_ | ⟨u,rest⟩⟩
    · rw [shape] at trips
      cases trips
    · rw [shape] at trips
      simp at trips
    · rw [shape] at trips
      simp only [List.map_cons,List.cons.injEq,Prod.mk.injEq] at trips
      obtain ⟨⟨sentinel,device,sensor⟩,⟨target,same,second⟩,left⟩ := trips
      have other : ¬Special z := by
        rintro ⟨v,x,both,-⟩
        rw [shape] at both
        cases both
        cases left
      obtain ⟨_,_,stored,_,_,_,sound⟩ := given.midpoints 0 z present other [] t u rest 0 2147483647 shape
        ⟨sentinel,sensor.trans second.symm,device,same,target⟩
      have fits := sound.fits
      rw [state] at fits
      exact absurd fits.2 (by decide)

end ChuwiMinibook.PsvtConsolidation
