import Mathlib.Data.List.Forall2
import ChuwiMinibook.PsvtLoop
import ChuwiMinibook.ZoneChecks

namespace ChuwiMinibook.PolicyZones
open AdaptiveEngine ZoneChecks
variable {σ : Type} (host : Host σ)

-- The trips of a zone carry its number.
def Own (z : Zone) : Prop := ∀ t ∈ z.tripPoints,t.zoneId = z.index

-- What installing, consolidating and retargeting trips may do to a zone: it
-- stays the same zone, stays active, and no trip that can ask for cooling goes.
structure Extends (z w : Zone) : Prop where
  index : w.index = z.index
  typeStr : w.typeStr = z.typeStr
  sensors : w.sensors = z.sensors
  active : z.zoneActive = true → w.zoneActive = true
  trips : ∀ t ∈ z.tripPoints,t.type ≠ .polling → ∃ u ∈ w.tripPoints,tag u = tag t
  own : Own z → Own w

theorem Extends.refl (z : Zone) : Extends z z :=
  ⟨rfl,rfl,rfl,id,fun t inside _ => ⟨t,inside,rfl⟩,id⟩

theorem Extends.trans {a b c : Zone} (one : Extends a b) (two : Extends b c) : Extends a c := by
  refine ⟨two.index.trans one.index,two.typeStr.trans one.typeStr,two.sensors.trans one.sensors,
    fun active => two.active (one.active active),?_,fun own => two.own (one.own own)⟩
  intro t inside cooling
  obtain ⟨u,within,same⟩ := one.trips t inside cooling
  have kind : u.type ≠ .polling := by
    have type : u.type = t.type := congrArg (·.2.2) same
    rwa [type]
  obtain ⟨v,last,equal⟩ := two.trips u within kind
  exact ⟨v,last,equal.trans same⟩

-- Rewriting trips one by one.
theorem extends_retag {z : Zone} {trips : List TripPoint} (same : trips.map tag = z.tripPoints.map tag) :
    Extends z {z with tripPoints := trips} := by
  refine ⟨rfl,rfl,rfl,id,?_,?_⟩
  · intro t inside _
    have listed : tag t ∈ trips.map tag := same ▸ List.mem_map_of_mem inside
    exact List.mem_map.mp listed
  · intro own t inside
    have listed : tag t ∈ z.tripPoints.map tag := same ▸ List.mem_map_of_mem inside
    obtain ⟨u,within,equal⟩ := List.mem_map.mp listed
    have zone : u.zoneId = t.zoneId := congrArg (·.1) equal
    exact zone ▸ own u within

theorem mem_pushPolling {index : Int} {temp : Nat} {sensors : List Sensor} {bound : List Nat}
    {trips : List TripPoint} {t : TripPoint}
    (inside : t ∈ bound.foldl (fun trips s => match sensors[s]? with
      | none => trips
      | some sensor => Zone.pushPolling index temp sensor.index trips) trips) :
    t ∈ trips ∨ t.zoneId = index ∧ t.type = .polling := by
  induction bound generalizing trips with
  | nil => exact .inl inside
  | cons s rest ih =>
    rw [List.foldl_cons] at inside
    rcases ih inside with early | late
    · split at early
      · exact .inl early
      · rcases List.mem_append.mp early with old | new
        · exact .inl old
        · rw [List.mem_singleton] at new
          subst t
          exact .inr ⟨rfl,rfl⟩
    · exact .inr late

theorem subset_pushPolling {index : Int} {temp : Nat} {sensors : List Sensor} (bound : List Nat)
    {trips : List TripPoint} {t : TripPoint} (inside : t ∈ trips) :
    t ∈ bound.foldl (fun trips s => match sensors[s]? with
      | none => trips
      | some sensor => Zone.pushPolling index temp sensor.index trips) trips := by
  induction bound generalizing trips with
  | nil => exact inside
  | cons s rest ih =>
    rw [List.foldl_cons]
    apply ih
    split
    · exact inside
    · exact List.mem_append_left _ inside

-- The sorted trips of sort_and_update_poll_trip are the old ones less a polling
-- trip; only polling trips are new.
theorem mem_sortAndUpdate {srt : StdSort} {sensors : List Sensor} {z : Zone} {t : TripPoint} :
    (t ∈ (Zone.sortAndUpdatePollTrip srt sensors z).tripPoints →
      t ∈ z.tripPoints ∨ t.zoneId = z.index ∧ t.type = .polling) ∧
    (t ∈ z.tripPoints → t.type ≠ .polling → t ∈ (Zone.sortAndUpdatePollTrip srt sensors z).tripPoints) := by
  have sorted := srt.mem_sort Zone.tripSort (z.tripPoints.eraseP (fun t => t.type = .polling)) t
  unfold Zone.sortAndUpdatePollTrip
  dsimp only
  split
  · rename_i empty
    rw [empty] at sorted
    refine ⟨fun inside => .inl (List.mem_of_mem_eraseP inside),?_⟩
    intro inside cooling
    exact (List.mem_eraseP_of_neg (by simpa using cooling)).mpr inside
  · rename_i lowest rest shape
    rw [shape] at sorted
    refine ⟨?_,?_⟩
    · intro inside
      rcases mem_pushPolling inside with old | new
      · exact .inl (List.mem_of_mem_eraseP (sorted.mp old))
      · exact .inr new
    · intro inside cooling
      exact subset_pushPolling _ (sorted.mpr ((List.mem_eraseP_of_neg (by simpa using cooling)).mpr inside))

theorem sortAndUpdate_fields (srt : StdSort) (sensors : List Sensor) (z : Zone) :
    Zone.sortAndUpdatePollTrip srt sensors z =
      {z with tripPoints := (Zone.sortAndUpdatePollTrip srt sensors z).tripPoints} := by
  unfold Zone.sortAndUpdatePollTrip
  dsimp only
  split <;> rfl

theorem extends_sortAndUpdate (srt : StdSort) (sensors : List Sensor) (z : Zone) :
    Extends z (Zone.sortAndUpdatePollTrip srt sensors z) := by
  rw [sortAndUpdate_fields]
  refine ⟨rfl,rfl,rfl,id,?_,?_⟩
  · intro t inside cooling
    exact ⟨t,mem_sortAndUpdate.2 inside cooling,rfl⟩
  · intro own t inside
    rcases mem_sortAndUpdate.1 inside with old | new
    · exact own t old
    · exact new.1

theorem extends_addTrip (srt : StdSort) (sensors : List Sensor) {z : Zone} {t : TripPoint} (zone : t.zoneId = z.index) :
    Extends z (Zone.addTrip srt sensors z t) := by
  have pushed : Extends z {z with tripPoints := z.tripPoints ++ [t]} := by
    refine ⟨rfl,rfl,rfl,id,fun u inside _ => ⟨u,List.mem_append_left _ inside,rfl⟩,?_⟩
    intro own u inside
    rcases List.mem_append.mp inside with old | new
    · exact own u old
    · rw [List.mem_singleton] at new
      subst u
      exact zone
  exact pushed.trans (extends_sortAndUpdate srt sensors _)

theorem extends_activate (z : Zone) : Extends z z.zoneCdevSetBinded.setZoneActive :=
  ⟨rfl,rfl,rfl,fun _ => rfl,fun t inside _ => ⟨t,inside,rfl⟩,id⟩

theorem extends_install (srt : StdSort) (sensors : List Sensor) {z : Zone} {t : TripPoint} (zone : t.zoneId = z.index) :
    Extends z (install srt sensors z t) :=
  (extends_addTrip srt sensors zone).trans (extends_activate _)

theorem extends_ecZone (e : Engine σ) (sensor : Sensor) (k temp : Nat) (z : Zone) :
    Extends z (ecZone host e sensor k temp z) :=
  ((extends_addTrip host.sort e.sensors rfl).trans (extends_addTrip host.sort e.sensors rfl)).trans
    (extends_activate _)

theorem raised_tag (t : TripPoint) : tag (oneDegreeUp (setFirstTargetInvalid t)) = tag t := by
  simp only [tag,oneDegreeUp,setFirstTargetInvalid]

theorem consolidateTrip_tag (minState : Nat → Int) (t : TripPoint) (next : Option TripPoint) :
    tag (consolidateTrip minState t next) = tag t := by
  rcases PsvtLoop.consolidateTrip_cases minState t next with ⟨_,same⟩ | ⟨_,raised⟩ | ⟨u,k,target,_,_,stored⟩
  · rw [same]
  · rw [raised]
    exact raised_tag t
  · rw [stored]
    simp only [tag,setFirstTarget]

theorem consolidateTrips_tags (minState : Nat → Int) (trips : List TripPoint) :
    (consolidateTrips minState trips).map tag = trips.map tag := by
  induction trips with
  | nil => rfl
  | cons t rest ih => simp [consolidateTrips,consolidateTrip_tag,ih]

theorem extends_consolidateZone (srt : StdSort) (typeOf : Nat → String) (minState : Nat → Int)
    (sensors : List Sensor) (z : Zone) : Extends z (consolidateZone srt typeOf minState sensors z) := by
  unfold consolidateZone
  split
  · split
    · exact extends_addTrip srt sensors rfl
    · exact extends_retag (consolidateTrips_tags minState _)
  · exact extends_retag (consolidateTrips_tags minState _)

theorem extends_updateFirstPassive (temp : Nat) (z : Zone) : Extends z (updateFirstPassive temp z) := by
  unfold updateFirstPassive
  split
  · exact Extends.refl z
  · apply extends_retag
    apply List.ext_getElem?
    intro i
    rw [List.getElem?_map,List.getElem?_modify,List.getElem?_map]
    cases z.tripPoints[i]? with
    | none => rfl
    | some t =>
      simp only [Option.map_some]
      split <;> rfl

-- The same for a whole engine; its devices and sensors are not touched.
structure Grown (e e' : Engine σ) : Prop where
  zones : List.Forall₂ Extends e.zones e'.zones
  cdevs : e'.cdevs = e.cdevs
  sensors : e'.sensors = e.sensors

theorem Grown.refl (e : Engine σ) : Grown e e :=
  ⟨List.forall₂_same.mpr (fun z _ => Extends.refl z),rfl,rfl⟩

theorem forall₂_trans {a b c : List Zone} (one : List.Forall₂ Extends a b) (two : List.Forall₂ Extends b c) :
    List.Forall₂ Extends a c := by
  induction one generalizing c with
  | nil => exact two
  | cons first _ ih =>
    cases two with
    | cons second rest => exact .cons (first.trans second) (ih rest)

theorem Grown.trans {a b c : Engine σ} (one : Grown a b) (two : Grown b c) : Grown a c :=
  ⟨forall₂_trans one.zones two.zones,two.cdevs.trans one.cdevs,two.sensors.trans one.sensors⟩

theorem grown_foldl {α : Type} {act : Engine σ → α → Engine σ} (each : ∀ e a,Grown e (act e a)) (items : List α)
    (e : Engine σ) : Grown e (items.foldl act e) := by
  induction items generalizing e with
  | nil => exact Grown.refl e
  | cons a rest ih => exact (each e a).trans (ih _)

theorem grown_modify (e : Engine σ) (i : Nat) {f : Zone → Zone} (each : ∀ z,Extends z (f z)) :
    Grown e {e with zones := e.zones.modify i f} := by
  refine ⟨?_,rfl,rfl⟩
  show List.Forall₂ Extends e.zones (e.zones.modify i f)
  induction e.zones generalizing i with
  | nil => simp
  | cons z rest ih =>
    cases i with
    | zero =>
      rw [List.modify_zero_cons]
      exact .cons (each z) (List.forall₂_same.mpr (fun z _ => Extends.refl z))
    | succ i =>
      rw [List.modify_succ_cons]
      exact .cons (Extends.refl z) (ih i)

-- Everything that a row of a table can do: nothing, or one passive trip for the
-- zone of its target.
inductive Rowed (e : Engine σ) (target : String) : Engine σ → Prop where
  | skipped : Rowed e target e
  | installed (i : Nat) (zone : String) (temp hyst : Nat) (sensor : Sensor) (k : Nat) (period : Int) (valid : Bool)
      (state : Int) (minMax : Bool) (low high : Int) : zoneFor e (participant target) = some (i,zone) →
    Rowed e target {e with zones := e.zones.modify i (fun z => install host.sort e.sensors z
      (passiveTrip host.sort e.cdevType z temp hyst sensor k period valid state minMax low high))}

theorem installPassive_rowed (e : Engine σ) (psv : Psv) : Rowed host e psv.target (installPassive host e psv) := by
  unfold installPassive
  split
  · exact .skipped
  rename_i i zone found
  split
  · exact .skipped
  split
  · exact .skipped
  · exact .installed i zone _ _ _ _ _ _ _ _ _ _ found

theorem installItmt_rowed (e : Engine σ) (entry : ItmtEntry) : Rowed host e entry.target (installItmt host e entry) := by
  unfold installItmt
  split
  · exact .skipped
  rename_i i zone found
  split
  · exact .skipped
  split
  · exact .skipped
  · exact .installed i zone _ _ _ _ _ _ _ _ _ _ found

theorem grown_rowed {e e' : Engine σ} {target : String} (rowed : Rowed host e target e') : Grown e e' := by
  cases rowed with
  | skipped => exact Grown.refl e
  | installed i => exact grown_modify e i (fun z => extends_install host.sort e.sensors rfl)

theorem grown_installPassive (e : Engine σ) (psv : Psv) : Grown e (installPassive host e psv) :=
  grown_rowed host (installPassive_rowed host e psv)

theorem grown_installItmt (e : Engine σ) (entry : ItmtEntry) : Grown e (installItmt host e entry) :=
  grown_rowed host (installItmt_rowed host e entry)

theorem grown_consolidate (e : Engine σ) : Grown e (psvtConsolidate host e) := by
  refine ⟨?_,rfl,rfl⟩
  unfold psvtConsolidate
  rw [List.forall₂_map_right_iff]
  exact List.forall₂_same.mpr (fun z _ => extends_consolidateZone _ _ _ _ z)

theorem grown_installEcZone (k : Nat) (e : Engine σ) (zone : String × Nat) : Grown e (installEcZone host k e zone) := by
  unfold installEcZone
  split
  · exact Grown.refl e
  split
  · exact Grown.refl e
  · rename_i sensor _
    exact grown_modify e _ (fun z => extends_ecZone host e sensor k zone.2 z)

theorem grown_installEc (e : Engine σ) : Grown e (installMinibookEcZones host e) := by
  unfold installMinibookEcZones
  split
  · exact Grown.refl e
  · exact grown_foldl (fun e zone => grown_installEcZone host _ e zone) _ e

theorem grown_setTrip {e e' : Engine σ} {t : AdaptiveTarget} (set : setTrip host e t = some e') : Grown e e' := by
  unfold setTrip at set
  obtain ⟨temp,_,rfl⟩ := Option.map_eq_some_iff.mp set
  split
  · exact Grown.refl e
  · exact grown_modify e _ (fun z => extends_updateFirstPassive _ z)

-- A policy that is put in force leaves the zones of the EC, with the trip of a PSV
-- target set on top of them.
theorem finish_cases {a a' : Adaptive σ} {t : AdaptiveTarget} (finished : finishInt3400 host a t = some a') :
    t.code = "PSV" ∧ setTrip host (installMinibookEcZones host (psvtConsolidate host a.engine)) t = some a'.engine ∨
      a'.engine = installMinibookEcZones host (psvtConsolidate host a.engine) := by
  unfold finishInt3400 at finished
  dsimp only at finished
  split at finished
  · obtain ⟨e,set,rfl⟩ := Option.map_eq_some_iff.mp finished
    split at set
    · rename_i code
      exact .inl ⟨code,set⟩
    · cases set
      exact .inr rfl
  · cases finished

theorem grown_finish {a a' : Adaptive σ} {t : AdaptiveTarget} (finished : finishInt3400 host a t = some a') :
    Grown a.engine a'.engine := by
  have installed := (grown_consolidate host a.engine).trans (grown_installEc host (psvtConsolidate host a.engine))
  rcases finish_cases host finished with ⟨_,set⟩ | same
  · exact installed.trans (grown_setTrip host set)
  · rw [same]
    exact installed

end ChuwiMinibook.PolicyZones
