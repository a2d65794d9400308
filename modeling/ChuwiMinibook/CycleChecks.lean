import ChuwiMinibook.Engine
import ChuwiMinibook.ZoneChecks

namespace ChuwiMinibook.CycleChecks
open Cdev CdevBank ZoneChecks
variable {σ : Type} (m : Methods σ) (srt : StdSort)

-- One thd_trip_point_check of a poll cycle, with the trip and the devices as it
-- finds them.
structure Check (σ : Type) where
  sample : Sample
  id : Int
  trip : TripPoint
  cdevs : List (Cdev σ)

section Walk
variable (ignoreCritical : Bool) (sensors : List Sensor) (pref : Int)

def result (r : Check σ) : TripPoint.Checked σ :=
  TripPoint.thdTripPointCheck m srt ignoreCritical sensors r.trip r.cdevs r.sample.now r.id r.sample.temp pref

-- The checks of a cycle in the order it makes them, along the same loops.
def tripChecks (sample : Sample) (id : Int) : List TripPoint → List (Cdev σ) → List (Check σ)
  | [],_ => []
  | t::rest,devs =>
    let checked := result m srt ignoreCritical sensors pref ⟨sample,id,t,devs⟩
    ⟨sample,id,t,devs⟩ :: if checked.reset then [] else tripChecks sample id rest checked.cdevs

def sensorChecks (samples : Nat → Sample) : List Nat → Nat → Zone → List (Cdev σ) → List (Check σ)
  | [],_,_,_ => []
  | s::rest,place,z,devs =>
    match sensors[s]? with
    | none => sensorChecks samples rest (place+1) z devs
    | some sensor =>
      let next := Zone.thermalZoneTempChange m srt ignoreCritical sensors pref z devs (samples place) sensor.index
      tripChecks m srt ignoreCritical sensors pref (samples place) sensor.index z.tripPoints devs ++
        sensorChecks samples rest (place+1) next.zone next.cdevs

def zoneChecks (z : Zone) (devs : List (Cdev σ)) (samples : Nat → Sample) : List (Check σ) :=
  if z.zoneActive then
    match z.sensorRel with
    | .independent => sensorChecks m srt ignoreCritical sensors pref samples z.sensors 0 z devs
    | .corelated =>
      let zoneTemp := Zone.hottest samples z.sensors.length
      match z.sensors.head?.bind (sensors[·]?) with
      | some sensor => if zoneTemp ≠ 0 then
          tripChecks m srt ignoreCritical sensors pref ⟨(samples 0).now,zoneTemp⟩ sensor.index z.tripPoints devs
        else []
      | none => []
  else []

def walkChecks (samples : Nat → Nat → Sample) : List Zone → Nat → List (Cdev σ) → List (Check σ)
  | [],_,_ => []
  | z::rest,place,devs =>
    zoneChecks m srt ignoreCritical sensors pref z devs (samples place) ++ walkChecks samples rest (place+1)
      (Zone.readZoneTemp m srt ignoreCritical sensors pref z devs (samples place)).cdevs

-- Each check starts from the devices the one before it left.
def Linked : List (Cdev σ) → List (Check σ) → List (Cdev σ) → Prop
  | devs,[],devs' => devs' = devs
  | devs,r::rest,devs' => r.cdevs = devs ∧ Linked (result m srt ignoreCritical sensors pref r).cdevs rest devs'

theorem linked_append {checks rest : List (Check σ)} {devs devs' devs'' : List (Cdev σ)}
    (one : Linked m srt ignoreCritical sensors pref devs checks devs')
    (two : Linked m srt ignoreCritical sensors pref devs' rest devs'') :
    Linked m srt ignoreCritical sensors pref devs (checks++rest) devs'' := by
  induction checks generalizing devs with
  | nil =>
    cases one
    exact two
  | cons r checks ih => exact ⟨one.1,ih one.2⟩

-- A check of one of these trips for one of these samples.
def Of (S : Sample → Prop) (frames : List Frame) (r : Check σ) : Prop := S r.sample ∧ frame r.trip ∈ frames

variable {S : Sample → Prop}

theorem tripChecks_spec {sample : Sample} (admitted : S sample) (id : Int) (trips : List TripPoint) (devs : List (Cdev σ))
    (silent : ∀ t ∈ trips,Silent sample.temp t) :
    Linked m srt ignoreCritical sensors pref devs (tripChecks m srt ignoreCritical sensors pref sample id trips devs)
        (Zone.checkTrips m srt ignoreCritical sensors sample id pref trips devs).cdevs ∧
      ∀ r ∈ tripChecks m srt ignoreCritical sensors pref sample id trips devs,Of S (trips.map frame) r := by
  induction trips generalizing devs with
  | nil => exact ⟨rfl,List.forall_mem_nil _⟩
  | cons t rest ih =>
    obtain ⟨_,_,silently⟩ := check_spec m srt ignoreCritical sensors t devs sample.now id sample.temp pref rfl
    have calm := (silently (silent t List.mem_cons_self)).1
    obtain ⟨linked,ofRest⟩ := ih
      (TripPoint.thdTripPointCheck m srt ignoreCritical sensors t devs sample.now id sample.temp pref).cdevs
      (fun u inside => silent u (List.mem_cons_of_mem _ inside))
    simp only [tripChecks,Zone.checkTrips,result,calm,Bool.false_eq_true,if_false]
    refine ⟨⟨rfl,linked⟩,?_⟩
    intro r inside
    rcases List.mem_cons.mp inside with rfl | later
    · exact ⟨admitted,List.mem_cons_self⟩
    · exact ⟨(ofRest r later).1,List.mem_cons_of_mem _ (ofRest r later).2⟩

-- Without a reset a pass over the trips leaves them silent and the devices as
-- its last check did.
theorem pass_spec {r : Nat} (uniform : ∀ s,S s → s.temp = r) {sample : Sample} (admitted : S sample) (id : Int)
    (z : Zone) (devs : List (Cdev σ)) (silent : ∀ t ∈ z.tripPoints,Silent r t) {polled : Zone.Polled σ}
    (done : Zone.thermalZoneTempChange m srt ignoreCritical sensors pref z devs sample id = polled) :
    polled.zone.tripPoints.map frame = z.tripPoints.map frame ∧ (∀ t ∈ polled.zone.tripPoints,Silent r t) ∧
      Linked m srt ignoreCritical sensors pref devs
        (tripChecks m srt ignoreCritical sensors pref sample id z.tripPoints devs) polled.cdevs := by
  subst done
  rw [← uniform sample admitted] at silent ⊢
  obtain ⟨kept,_,silently⟩ := checkTrips_spec m srt (P := fun _ => True) ignoreCritical sensors pref sample id
    z.tripPoints devs (fun _ _ _ _ _ => trivial) rfl
  obtain ⟨calm,after⟩ := silently silent
  have linked := (tripChecks_spec m srt ignoreCritical sensors pref admitted id z.tripPoints devs silent).1
  unfold Zone.thermalZoneTempChange
  simp only [calm,Bool.false_eq_true,if_false]
  exact ⟨kept,after,linked⟩

theorem sensorChecks_spec {r : Nat} (uniform : ∀ s,S s → s.temp = r) {samples : Nat → Sample}
    (admitted : ∀ place,S (samples place)) (bound : List Nat) (place : Nat) (start : Zone.Polled σ)
    (silent : ∀ t ∈ start.zone.tripPoints,Silent r t) :
    Linked m srt ignoreCritical sensors pref start.cdevs
        (sensorChecks m srt ignoreCritical sensors pref samples bound place start.zone start.cdevs)
        (Zone.readSensors m srt ignoreCritical sensors pref samples bound place start).cdevs ∧
      ∀ q ∈ sensorChecks m srt ignoreCritical sensors pref samples bound place start.zone start.cdevs,
        Of S (start.zone.tripPoints.map frame) q := by
  induction bound generalizing place start with
  | nil => exact ⟨rfl,List.forall_mem_nil _⟩
  | cons s rest ih =>
    unfold sensorChecks Zone.readSensors
    cases present : sensors[s]? with
    | none => exact ih (place+1) start silent
    | some sensor =>
      obtain ⟨kept,after,linked⟩ := pass_spec m srt ignoreCritical sensors pref uniform (admitted place) sensor.index
        start.zone start.cdevs silent rfl
      have here := (tripChecks_spec m srt ignoreCritical sensors pref (admitted place) sensor.index
        start.zone.tripPoints start.cdevs (uniform _ (admitted place) ▸ silent)).2
      dsimp only
      generalize Zone.thermalZoneTempChange m srt ignoreCritical sensors pref start.zone start.cdevs (samples place)
        sensor.index = next at kept after linked ⊢
      obtain ⟨later,ofLater⟩ := ih (place+1) ⟨next.zone,next.cdevs,start.actions ++ next.actions⟩ after
      refine ⟨linked_append m srt ignoreCritical sensors pref linked later,?_⟩
      intro q inside
      rcases List.mem_append.mp inside with early | late
      · exact here q early
      · exact kept ▸ ofLater q late

theorem zoneChecks_spec {r : Nat} (uniform : ∀ s,S s → s.temp = r) (z : Zone) (devs : List (Cdev σ))
    {samples : Nat → Sample} (admitted : ∀ place,S (samples place))
    (peak : z.sensors ≠ [] → S ⟨(samples 0).now,Zone.hottest samples z.sensors.length⟩)
    (silent : z.zoneActive = true → ∀ t ∈ z.tripPoints,Silent r t) :
    Linked m srt ignoreCritical sensors pref devs (zoneChecks m srt ignoreCritical sensors pref z devs samples)
        (Zone.readZoneTemp m srt ignoreCritical sensors pref z devs samples).cdevs ∧
      ∀ q ∈ zoneChecks m srt ignoreCritical sensors pref z devs samples,
        z.zoneActive = true ∧ Of S (z.tripPoints.map frame) q := by
  unfold zoneChecks Zone.readZoneTemp
  split
  · rename_i active
    cases z.sensorRel with
    | independent =>
      obtain ⟨linked,ofAll⟩ := sensorChecks_spec m srt ignoreCritical sensors pref uniform admitted z.sensors 0
        ⟨z,devs,[]⟩ (silent active)
      exact ⟨linked,fun q inside => ⟨active,ofAll q inside⟩⟩
    | corelated =>
      dsimp only
      cases first : z.sensors.head?.bind (sensors[·]?) with
      | none => exact ⟨rfl,List.forall_mem_nil _⟩
      | some sensor =>
        have bound : z.sensors ≠ [] := by
          intro empty
          simp [empty] at first
        dsimp only
        split
        · have calm := silent active
          obtain ⟨_,_,linked⟩ := pass_spec m srt ignoreCritical sensors pref uniform (peak bound) sensor.index z devs
            calm rfl
          have ofAll := (tripChecks_spec m srt ignoreCritical sensors pref (peak bound) sensor.index z.tripPoints devs
            (uniform _ (peak bound) ▸ calm)).2
          exact ⟨linked,fun q inside => ⟨active,ofAll q inside⟩⟩
        · exact ⟨rfl,List.forall_mem_nil _⟩
  · exact ⟨rfl,List.forall_mem_nil _⟩

theorem walkChecks_spec {Q : Check σ → Prop} {samples : Nat → Nat → Sample} (zones : List Zone) (place : Nat)
    (each : ∀ i z,zones[i]? = some z → ∀ devs,
      Linked m srt ignoreCritical sensors pref devs
          (zoneChecks m srt ignoreCritical sensors pref z devs (samples (place+i)))
          (Zone.readZoneTemp m srt ignoreCritical sensors pref z devs (samples (place+i))).cdevs ∧
        ∀ q ∈ zoneChecks m srt ignoreCritical sensors pref z devs (samples (place+i)),Q q) (devs : List (Cdev σ)) :
    Linked m srt ignoreCritical sensors pref devs
        (walkChecks m srt ignoreCritical sensors pref samples zones place devs)
        (Engine.walkZones (Zone.readZoneTemp m srt ignoreCritical sensors pref) samples zones place devs).2.1 ∧
      ∀ q ∈ walkChecks m srt ignoreCritical sensors pref samples zones place devs,Q q := by
  induction zones generalizing place devs with
  | nil => exact ⟨rfl,List.forall_mem_nil _⟩
  | cons z rest ih =>
    obtain ⟨first,ofFirst⟩ := each 0 z rfl devs
    obtain ⟨later,ofLater⟩ := ih (place+1) (fun i w present devs => by
      have one := each (i+1) w present devs
      rwa [← Nat.add_assoc,Nat.add_right_comm] at one)
      (Zone.readZoneTemp m srt ignoreCritical sensors pref z devs (samples place)).cdevs
    refine ⟨linked_append m srt ignoreCritical sensors pref first later,?_⟩
    intro q inside
    rcases List.mem_append.mp inside with early | late
    · exact ofFirst q early
    · exact ofLater q late

theorem linked_split {checks rest : List (Check σ)} {devs devs' : List (Cdev σ)}
    (linked : Linked m srt ignoreCritical sensors pref devs (checks++rest) devs') :
    ∃ mid,Linked m srt ignoreCritical sensors pref devs checks mid ∧
      Linked m srt ignoreCritical sensors pref mid rest devs' := by
  induction checks generalizing devs with
  | nil => exact ⟨devs,rfl,linked⟩
  | cons r checks ih =>
    obtain ⟨mid,one,two⟩ := ih linked.2
    exact ⟨mid,⟨linked.1,one⟩,two⟩

-- What drives the devices in each check drives them over the whole stretch.
theorem linked_driven {P : Op → Prop} {checks : List (Check σ)} {devs devs' : List (Cdev σ)}
    (linked : Linked m srt ignoreCritical sensors pref devs checks devs')
    (each : ∀ r ∈ checks,Driven m srt P r.cdevs (result m srt ignoreCritical sensors pref r).cdevs) :
    Driven m srt P devs devs' := by
  induction checks generalizing devs with
  | nil =>
    cases linked
    exact driven_refl m srt
  | cons r checks ih =>
    obtain ⟨start,rest⟩ := linked
    have first := each r List.mem_cons_self
    rw [start] at first
    exact driven_trans m srt first (ih rest (fun q inside => each q (List.mem_cons_of_mem _ inside)))

end Walk

-- The checks of one poll cycle over the zones.
def cycleChecks (e : Engine σ) (samples : Nat → Nat → Sample) : List (Check σ) :=
  walkChecks m srt e.ignoreCritical e.sensors e.preference samples e.zones 0 e.cdevs

def Check.after (e : Engine σ) (r : Check σ) : List (Cdev σ) :=
  (result m srt e.ignoreCritical e.sensors e.preference r).cdevs

end ChuwiMinibook.CycleChecks
