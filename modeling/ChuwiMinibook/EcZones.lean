import ChuwiMinibook.ForcedReset
import ChuwiMinibook.PolicyZones
import ChuwiMinibook.ZoneTrips

namespace ChuwiMinibook.EcZones
open Cdev CdevArbitration CdevBank ZoneChecks PolicyZones AdaptiveEngine ForcedReset Gddv Machine
variable {σ : Type} (host : Host σ)

def passives (z : Zone) : List TripPoint := z.tripPoints.filter (fun t => t.type = .passive)

-- The documented shape: two passive trips, at the configured temperature and a
-- degree above, both bound to the RAPL device.
def EcShape (k temp : Nat) (z : Zone) : Prop :=
  ∃ low high,(passives z).Perm [low,high] ∧ low.temp = temp ∧ high.temp = temp+1000 ∧
    low.cdevs.map (·.cdev) = [k] ∧ high.cdevs.map (·.cdev) = [k]

theorem passives_nonPolling (z : Zone) : passives z = (ZoneTrips.nonPolling z.tripPoints).filter (fun t => t.type = .passive) := by
  unfold passives ZoneTrips.nonPolling
  rw [List.filter_filter]
  apply List.filter_congr
  intro t _
  cases t.type <;> rfl

theorem passives_sortAndUpdate (srt : StdSort) (sensors : List Sensor) (z : Zone) :
    (passives (Zone.sortAndUpdatePollTrip srt sensors z)).Perm (passives z) := by
  rw [passives_nonPolling,passives_nonPolling]
  exact (ZoneTrips.nonPolling_sortAndUpdate srt sensors z).filter _

theorem passives_addTrip (srt : StdSort) (sensors : List Sensor) (z : Zone) {t : TripPoint} (passive : t.type = .passive) :
    (passives (Zone.addTrip srt sensors z t)).Perm (passives z ++ [t]) := by
  refine (passives_sortAndUpdate srt sensors _).trans ?_
  simp [passives,passive]

theorem passiveTrip_cdevs (srt : StdSort) (typeOf : Nat → String) (z : Zone) (temp hyst : Nat) (sensor : Sensor)
    (k : Nat) (period : Int) (valid : Bool) (state : Int) (minMax : Bool) (low high : Int) :
    (passiveTrip srt typeOf z temp hyst sensor k period valid state minMax low high).cdevs.map (·.cdev) = [k] := by
  unfold passiveTrip TripPoint.thdTripPointAddCdev TripPoint.tripCdevAdd TripPoint.new
  simp only [List.findIdx?_nil,List.nil_append]
  have perm := srt.perm TripPoint.tripCdevSort
    [⟨k,defaultInfluence,period,0,valid,state,TripPoint.invalidPid,Pid.new,minMax,
      if minMax then low else 0,if minMax then high else 0⟩]
  rw [List.perm_singleton.mp perm]
  rfl

theorem ecZone_shape (e : Engine σ) (sensor : Sensor) (k temp : Nat) {z : Zone} (none : passives z = []) :
    EcShape k temp (ecZone host e sensor k temp z) := by
  have low := passives_addTrip host.sort e.sensors z
    (show (ecTrip host.sort e.cdevType sensor k temp z).type = .passive from rfl)
  rw [none,List.nil_append] at low
  let z' := Zone.addTrip host.sort e.sensors z (ecTrip host.sort e.cdevType sensor k temp z)
  have high := passives_addTrip host.sort e.sensors z'
    (show (ecTrip host.sort e.cdevType sensor k (temp+1000) z').type = .passive from rfl)
  refine ⟨_,_,high.trans (low.append_right _),rfl,rfl,passiveTrip_cdevs _ _ _ _ _ _ _ _ _ _ _ _ _,
    passiveTrip_cdevs _ _ _ _ _ _ _ _ _ _ _ _ _⟩

-- What names are looked up in; no policy operation changes it.
structure Static (e e' : Engine σ) : Prop where
  types : e'.zones.map (·.typeStr) = e.zones.map (·.typeStr)
  names : e'.cdevs.map (fun c => (c.typeStr,c.aliasStr)) = e.cdevs.map (fun c => (c.typeStr,c.aliasStr))
  sensors : e'.sensors = e.sensors

theorem Static.refl (e : Engine σ) : Static e e := ⟨rfl,rfl,rfl⟩

theorem Static.trans {a b c : Engine σ} (one : Static a b) (two : Static b c) : Static a c :=
  ⟨two.types.trans one.types,two.names.trans one.names,two.sensors.trans one.sensors⟩

theorem static_searchZone {e e' : Engine σ} (static : Static e e') (name : String) :
    e'.searchZone name = e.searchZone name := by
  have byTypes (e : Engine σ) : e.searchZone name = (e.zones.map (·.typeStr)).findIdx? (Engine.typeMatches name) := by
    rw [List.findIdx?_map]
    rfl
  rw [byTypes,byTypes,static.types]

theorem static_searchCdev {e e' : Engine σ} (static : Static e e') (name : String) :
    e'.searchCdev name = e.searchCdev name := by
  have byNames (e : Engine σ) : e.searchCdev name =
      (e.cdevs.map (fun c => (c.typeStr,c.aliasStr))).findIdx? (fun n => n.1 == name || n.2 == name) := by
    rw [List.findIdx?_map]
    rfl
  rw [byNames,byNames,static.names]

theorem static_searchSensor {e e' : Engine σ} (static : Static e e') (name : String) :
    e'.searchSensor name = e.searchSensor name := by
  rw [Engine.searchSensor,Engine.searchSensor,static.sensors]

theorem static_raplCdev {e e' : Engine σ} (static : Static e e') : raplCdev e' = raplCdev e := by
  rw [raplCdev,raplCdev,static_searchCdev static,static_searchCdev static]

theorem static_zoneFor {e e' : Engine σ} (static : Static e e') (name : String) : zoneFor e' name = zoneFor e name := by
  unfold zoneFor
  simp only [static_searchZone static]

theorem types_extends {zones zones' : List Zone} (each : List.Forall₂ Extends zones zones') :
    zones'.map (·.typeStr) = zones.map (·.typeStr) := by
  induction each with
  | nil => rfl
  | cons first _ ih => rw [List.map_cons,List.map_cons,first.typeStr,ih]

theorem static_grown {e e' : Engine σ} (grown : Grown e e') : Static e e' :=
  ⟨types_extends grown.zones,by rw [grown.cdevs],grown.sensors⟩

-- The position of an EC zone holds a zone of exactly that name.
theorem ec_found {e : Engine σ} {ec : String × Nat} (listed : ec ∈ ecZones) {i : Nat}
    (found : e.searchZone ec.1 = some i) : ∃ z,e.zones[i]? = some z ∧ z.typeStr = ec.1 := by
  have plain : StdString.startsWith ec.1 "pch_" = false := by
    have both : ∀ ec ∈ ecZones,StdString.startsWith ec.1 "pch_" = false := by decide
    exact both ec listed
  obtain ⟨bound,same,_⟩ := List.findIdx?_eq_some_iff_getElem.mp found
  refine ⟨e.zones[i],List.getElem?_eq_getElem bound,?_⟩
  simpa [Engine.typeMatches,plain] using same

theorem ec_apart {e : Engine σ} {one two : String × Nat} (first : one ∈ ecZones) (second : two ∈ ecZones) {i : Nat}
    (foundOne : e.searchZone one.1 = some i) (foundTwo : e.searchZone two.1 = some i) : one.1 = two.1 := by
  obtain ⟨z,present,same⟩ := ec_found first foundOne
  obtain ⟨w,also,other⟩ := ec_found second foundTwo
  rw [present] at also
  cases also
  exact same.symm.trans other

-- An operation that leaves the EC zones as they are.
structure Aside (e e' : Engine σ) : Prop where
  static : Static e e'
  kept : ∀ ec ∈ ecZones,∀ i,e.searchZone ec.1 = some i → e'.zones[i]? = e.zones[i]?

theorem Aside.refl (e : Engine σ) : Aside e e := ⟨Static.refl e,fun _ _ _ _ => rfl⟩

theorem Aside.trans {a b c : Engine σ} (one : Aside a b) (two : Aside b c) : Aside a c := by
  refine ⟨one.static.trans two.static,?_⟩
  intro ec listed i found
  rw [two.kept ec listed i ((static_searchZone one.static ec.1).trans found),one.kept ec listed i found]

def EcPosition (e : Engine σ) (i : Nat) : Prop := ∃ ec ∈ ecZones,e.searchZone ec.1 = some i

theorem aside_modify {e : Engine σ} {i : Nat} (other : ¬ EcPosition e i) {f : Zone → Zone}
    (each : ∀ z,Extends z (f z)) : Aside e {e with zones := e.zones.modify i f} := by
  refine ⟨static_grown (grown_modify e i each),?_⟩
  intro ec listed j found
  have apart : i ≠ j := by
    intro given
    subst given
    exact other ⟨ec,listed,found⟩
  show (e.zones.modify i f)[j]? = e.zones[j]?
  rw [List.getElem?_modify]
  simp [apart]

-- A row of a table whose zone is not an EC zone.
def Foreign (e : Engine σ) (target : String) : Prop :=
  ∀ i zone,zoneFor e (participant target) = some (i,zone) → ¬ EcPosition e i

theorem foreign_static {e e' : Engine σ} (static : Static e e') {target : String} (foreign : Foreign e target) :
    Foreign e' target := by
  intro i zone found
  rw [static_zoneFor static] at found
  intro given
  obtain ⟨ec,listed,position⟩ := given
  rw [static_searchZone static] at position
  exact foreign i zone found ⟨ec,listed,position⟩

theorem aside_rowed {e e' : Engine σ} {target : String} (rowed : Rowed host e target e') (foreign : Foreign e target) :
    Aside e e' := by
  cases rowed with
  | skipped => exact Aside.refl e
  | installed i zone _ _ _ _ _ _ _ _ _ _ found =>
    exact aside_modify (foreign i zone found) (fun z => extends_install host.sort e.sensors rfl)

theorem aside_installPassive {e : Engine σ} {psv : Psv} (foreign : Foreign e psv.target) :
    Aside e (installPassive host e psv) :=
  aside_rowed host (installPassive_rowed host e psv) foreign

theorem aside_installItmt {e : Engine σ} {entry : ItmtEntry} (foreign : Foreign e entry.target) :
    Aside e (installItmt host e entry) :=
  aside_rowed host (installItmt_rowed host e entry) foreign

theorem aside_rows {α : Type} {target : α → String} {act : Engine σ → α → Engine σ}
    (each : ∀ {e a},Foreign e (target a) → Aside e (act e a)) {rows : List α} {e : Engine σ}
    (foreign : ∀ a ∈ rows,Foreign e (target a)) : Aside e (rows.foldl act e) := by
  induction rows generalizing e with
  | nil => exact Aside.refl e
  | cons a rest ih =>
    have first := each (foreign a List.mem_cons_self)
    exact first.trans (ih (fun b inside => foreign_static first.static (foreign b (List.mem_cons_of_mem _ inside))))

-- Ready for an installation: no passive trip, and nothing to consolidate.
def Unarmed (e : Engine σ) : Prop :=
  ∀ ec ∈ ecZones,∀ i z,e.searchZone ec.1 = some i → e.zones[i]? = some z →
    passives z = [] ∧ ∀ t ∈ z.tripPoints,isTargetValid t = none

theorem unarmed_aside {e e' : Engine σ} (aside : Aside e e') (unarmed : Unarmed e) : Unarmed e' := by
  intro ec listed i z found present
  rw [static_searchZone aside.static] at found
  rw [aside.kept ec listed i found] at present
  exact unarmed ec listed i z found present

theorem consolidateTrips_untargeted (minState : Nat → Int) {trips : List TripPoint}
    (untargeted : ∀ t ∈ trips,isTargetValid t = none) : consolidateTrips minState trips = trips :=
  PsvtLoop.consolidateTrips_settled minState (fun t inside => PsvtLoop.untargeted_settled (untargeted t inside))

theorem consolidateZone_untargeted (srt : StdSort) (typeOf : Nat → String) (minState : Nat → Int)
    (sensors : List Sensor) {z : Zone} (untargeted : ∀ t ∈ z.tripPoints,isTargetValid t = none) :
    consolidateZone srt typeOf minState sensors z = z := by
  have same := consolidateTrips_untargeted minState untargeted
  unfold consolidateZone
  split
  · rename_i t u shape
    have none : isTargetValid t = none := untargeted t (by simp [shape])
    rw [none]
    simp only [same]
  · simp only [same]

theorem aside_consolidate {e : Engine σ} (unarmed : Unarmed e) : Aside e (psvtConsolidate host e) := by
  refine ⟨static_grown (grown_consolidate host e),?_⟩
  intro ec listed i found
  obtain ⟨z,present,_⟩ := ec_found listed found
  obtain ⟨_,untargeted⟩ := unarmed ec listed i z found present
  show (e.zones.map _)[i]? = e.zones[i]?
  rw [List.getElem?_map,present,Option.map_some,consolidateZone_untargeted _ _ _ _ untargeted]

theorem driven_names {m : Methods σ} {srt : StdSort} {P : Op → Prop} {devs devs' : List (Cdev σ)}
    (driven : Driven m srt P devs devs') :
    devs'.map (fun c => (c.typeStr,c.aliasStr)) = devs.map (fun c => (c.typeStr,c.aliasStr)) := by
  have set (c : Cdev σ) (now : Int) (q : Request) (pid : Pid) :
      (thdCdevSetState m srt c now q pid).1.typeStr = c.typeStr ∧
        (thdCdevSetState m srt c now q pid).1.aliasStr = c.aliasStr := by
    unfold thdCdevSetState
    split <;> exact ⟨rfl,rfl⟩
  have one (c : Cdev σ) (op : Op) : ((apply m srt c op).typeStr,(apply m srt c op).aliasStr) = (c.typeStr,c.aliasStr) := by
    cases op with
    | set call => exact Prod.ext (set c _ _ _).1 (set c _ _ _).2
    | setMin now zone trip => exact Prod.ext (set (calm c) _ _ _).1 (set (calm c) _ _ _).2
  obtain ⟨trace,rfl,_⟩ := driven
  apply List.ext_getElem?
  intro k
  rw [List.getElem?_map,run_send,List.getElem?_map,Option.map_map]
  congr 1
  funext c
  induction opsOf k trace generalizing c with
  | nil => rfl
  | cons op rest ih => exact (ih (apply m srt c op)).trans (one c op)

theorem static_clear (keep : Zone → Bool) (now : Int) (e : Engine σ) : Static e (clearZones host keep now e) := by
  refine ⟨?_,?_,rfl⟩
  · unfold clearZones
    rw [List.map_map]
    apply List.map_congr_left
    intro z _
    simp only [Function.comp_apply]
    split <;> rfl
  · exact driven_names (driven_foldl host.methods host.sort
      (fun z _ devs => driven_zoneReset host.methods host.sort true now z devs) _)

theorem unarmed_clear {keep : Zone → Bool} (spared : ∀ ec ∈ ecZones,∀ z : Zone,z.typeStr = ec.1 → keep z = false)
    (now : Int) (e : Engine σ) : Unarmed (clearZones host keep now e) := by
  intro ec listed i z found present
  rw [static_searchZone (static_clear host keep now e)] at found
  obtain ⟨w,was,name⟩ := ec_found listed found
  have after : (clearZones host keep now e).zones[i]? =
      some (if keep w then w else w.tripDeleteAll.setZoneInactive) := by
    show (e.zones.map _)[i]? = _
    rw [List.getElem?_map,was,Option.map_some]
  rw [after,if_neg (by simp [spared ec listed w name])] at present
  cases present
  refine ⟨rfl,?_⟩
  intro t inside
  cases inside

theorem plotsPower_spares : ∀ ec ∈ ecZones,∀ z : Zone,z.typeStr = ec.1 → plotsPower z = false := by
  have names : ∀ ec ∈ ecZones,(ec.1 == "rapl_pkg_power" || ec.1 == "power_floor") = false := by decide
  intro ec listed z name
  rw [plotsPower,name]
  exact names ec listed

-- The zones, sensors and the device that the installation needs.
def Present (e : Engine σ) : Prop :=
  (∃ k,raplCdev e = some k) ∧ ∀ ec ∈ ecZones,(∃ i,e.searchZone ec.1 = some i) ∧ ∃ s,e.searchSensor ec.1 = some s

theorem present_static {e e' : Engine σ} (static : Static e e') (present : Present e) : Present e' := by
  refine ⟨?_,?_⟩
  · rw [static_raplCdev static]
    exact present.1
  · intro ec listed
    rw [static_searchZone static,static_searchSensor static]
    exact present.2 ec listed

def Shaped (e : Engine σ) : Prop :=
  ∀ ec ∈ ecZones,∀ i k z,e.searchZone ec.1 = some i → raplCdev e = some k → e.zones[i]? = some z → EcShape k ec.2 z

theorem shaped_aside {e e' : Engine σ} (aside : Aside e e') (shaped : Shaped e) : Shaped e' := by
  intro ec listed i k z found rapl present
  rw [static_searchZone aside.static] at found
  rw [static_raplCdev aside.static] at rapl
  rw [aside.kept ec listed i found] at present
  exact shaped ec listed i k z found rapl present

theorem installEcZone_own {e : Engine σ} {ec : String × Nat} (k : Nat) {i : Nat} {sensor : Sensor} {z : Zone}
    (found : e.searchZone ec.1 = some i) (sensed : e.searchSensor ec.1 = some sensor) (present : e.zones[i]? = some z) :
    (installEcZone host k e ec).zones[i]? = some (ecZone host e sensor k ec.2 z) := by
  unfold installEcZone
  rw [found,sensed]
  show (e.zones.modify i _)[i]? = _
  rw [List.getElem?_modify,present]
  simp

theorem installEcZone_other {e : Engine σ} {ec other : String × Nat} (k : Nat) (listed : ec ∈ ecZones)
    (also : other ∈ ecZones) (apart : other.1 ≠ ec.1) {j : Nat} (found : e.searchZone other.1 = some j) :
    (installEcZone host k e ec).zones[j]? = e.zones[j]? := by
  unfold installEcZone
  split
  · rfl
  rename_i i position
  split
  · rfl
  · have different : i ≠ j := by
      intro given
      subst given
      exact apart (ec_apart also listed found position)
    show (e.zones.modify i _)[j]? = _
    rw [List.getElem?_modify]
    simp [different]

theorem shaped_install {e : Engine σ} (present : Present e) (unarmed : Unarmed e) :
    Shaped (installMinibookEcZones host e) := by
  obtain ⟨⟨k,rapl⟩,zones⟩ := present
  let soc : String × Nat := (minibookSocZone,minibookSocTripTemp)
  let charger : String × Nat := (minibookChargerZone,minibookChargerTripTemp)
  have socListed : soc ∈ ecZones := List.mem_cons_self
  have chargerListed : charger ∈ ecZones := List.mem_cons_of_mem _ List.mem_cons_self
  have apart : soc.1 ≠ charger.1 := by decide
  have one := static_grown (grown_installEcZone host k e soc)
  have two := static_grown (grown_installEcZone host k (installEcZone host k e soc) charger)
  have result : installMinibookEcZones host e = installEcZone host k (installEcZone host k e soc) charger := by
    unfold installMinibookEcZones
    rw [rapl]
    rfl
  rw [result]
  intro ec listed i k' z found rapl' after
  rw [static_searchZone (one.trans two)] at found
  rw [static_raplCdev (one.trans two),rapl] at rapl'
  cases rapl'
  obtain ⟨w,was,_⟩ := ec_found listed found
  obtain ⟨_,sensor,sensed⟩ := zones ec listed
  have bare := (unarmed ec listed i w found was).1
  rcases List.mem_cons.mp listed with rfl | rest
  · have first := installEcZone_own host k found sensed was
    have kept := installEcZone_other host k chargerListed socListed apart
      ((static_searchZone one soc.1).trans found)
    rw [kept,first] at after
    cases after
    exact ecZone_shape host e sensor k _ bare
  · obtain rfl := List.mem_singleton.mp rest
    have kept := installEcZone_other host k socListed chargerListed apart.symm found
    have second := installEcZone_own host k ((static_searchZone one charger.1).trans found)
      ((static_searchSensor one charger.1).trans sensed) (kept.trans was)
    rw [second] at after
    cases after
    exact ecZone_shape host _ sensor k _ bare

-- Present always, and of the documented shape once installed.
def Inv (a : Adaptive σ) : Prop := Present a.engine ∧ (a.ecInstalled = true → Shaped a.engine)

-- set_trip leaves the EC zones alone.
def TripForeign (e : Engine σ) (t : AdaptiveTarget) : Prop :=
  t.code = "PSV" → ∀ i,e.searchZone (participant t.participant) = some i → ¬ EcPosition e i

theorem aside_setTrip {e e' : Engine σ} {t : AdaptiveTarget}
    (foreign : ∀ i,e.searchZone (participant t.participant) = some i → ¬ EcPosition e i)
    (set : setTrip host e t = some e') : Aside e e' := by
  unfold setTrip at set
  obtain ⟨temp,_,rfl⟩ := Option.map_eq_some_iff.mp set
  split
  · exact Aside.refl e
  · rename_i i found
    exact aside_modify (foreign i found) (fun z => extends_updateFirstPassive _ z)

theorem inv_finish {a a' : Adaptive σ} {t : AdaptiveTarget} (present : Present a.engine) (unarmed : Unarmed a.engine)
    (foreign : TripForeign a.engine t) (finished : finishInt3400 host a t = some a') : Inv a' := by
  have consolidated := aside_consolidate host unarmed
  have ready := present_static consolidated.static present
  have shaped := shaped_install host ready (unarmed_aside consolidated unarmed)
  have installed := static_grown (grown_installEc host (psvtConsolidate host a.engine))
  have static := consolidated.static.trans installed
  have there := present_static static present
  rcases finish_cases host finished with ⟨code,set⟩ | same
  · have aside := aside_setTrip host (by
      intro i found
      rw [static_searchZone static] at found
      intro given
      obtain ⟨ec,listed,position⟩ := given
      rw [static_searchZone static] at position
      exact foreign code i found ⟨ec,listed,position⟩) set
    exact ⟨present_static aside.static there,fun _ => shaped_aside aside shaped⟩
  · unfold Inv
    rw [same]
    exact ⟨there,fun _ => shaped⟩

end ChuwiMinibook.EcZones
