import ChuwiMinibook.ForcedReset
import ChuwiMinibook.PolicyZones

namespace ChuwiMinibook.DanglingLimits
open Cdev CdevArbitration CdevBank ZoneChecks PolicyZones AdaptiveEngine ForcedReset Machine ReleaseStack
variable {σ : Type} (host : Host σ)

-- The pair names a trip that can ask for cooling, in a zone that is read.
def Live (zones : List Zone) (p : Int × Int) : Prop :=
  ∃ z ∈ zones,z.zoneActive = true ∧ z.index = p.1 ∧
    ∃ t ∈ z.tripPoints,t.type ≠ .polling ∧ t.zoneId = p.1 ∧ t.index = p.2

structure NoDangling (e : Engine σ) : Prop where
  own : ∀ z ∈ e.zones,Own z
  live : ∀ p,Held e.cdevs p → Live e.zones p

theorem live_extends {zones zones' : List Zone} (each : List.Forall₂ Extends zones zones') {p : Int × Int}
    (live : Live zones p) : Live zones' p := by
  induction each with
  | nil => exact live
  | cons first _ ih =>
    obtain ⟨z,inside,active,index,t,trip,cooling,zone,number⟩ := live
    rcases List.mem_cons.mp inside with rfl | later
    · obtain ⟨u,within,same⟩ := first.trips t trip cooling
      simp only [tag,Prod.mk.injEq] at same
      obtain ⟨sameZone,sameIndex,sameType⟩ := same
      exact ⟨_,List.mem_cons_self,first.active active,first.index.trans index,u,within,
        sameType ▸ cooling,sameZone.trans zone,sameIndex.trans number⟩
    · obtain ⟨w,within,rest⟩ := ih ⟨z,later,active,index,t,trip,cooling,zone,number⟩
      exact ⟨w,List.mem_cons_of_mem _ within,rest⟩

theorem own_extends {zones zones' : List Zone} (each : List.Forall₂ Extends zones zones')
    (own : ∀ z ∈ zones,Own z) : ∀ z ∈ zones',Own z := by
  induction each with
  | nil => exact own
  | cons first _ ih =>
    intro z inside
    rcases List.mem_cons.mp inside with rfl | later
    · exact first.own (own _ List.mem_cons_self)
    · exact ih (fun w within => own w (List.mem_cons_of_mem _ within)) z later

theorem noDangling_grown {e e' : Engine σ} (grown : Grown e e') (before : NoDangling e) : NoDangling e' := by
  refine ⟨own_extends grown.zones before.own,?_⟩
  intro p held
  rw [grown.cdevs] at held
  exact live_extends grown.zones (before.live p held)

theorem extends_shape {z w : Zone} (same : shape w = shape z) : Extends z w := by
  have index : w.index = z.index := congrArg (·.1) same
  have active : w.zoneActive = z.zoneActive := congrArg (·.2.1) same
  have tags := shape_tags same
  refine ⟨index,congrArg (·.2.2.1) same,congrArg (·.2.2.2.1) same,fun on => active.trans on,?_,?_⟩
  · intro t inside _
    have listed : tag t ∈ w.tripPoints.map tag := tags ▸ List.mem_map_of_mem inside
    exact List.mem_map.mp listed
  · intro own t inside
    have listed : tag t ∈ z.tripPoints.map tag := tags ▸ List.mem_map_of_mem inside
    obtain ⟨u,within,equal⟩ := List.mem_map.mp listed
    have zone : u.zoneId = t.zoneId := congrArg (·.1) equal
    rw [index,← zone]
    exact own u within

-- Every activation of a poll comes from a trip of an active zone.
def Raised (zones : List Zone) (op : Op) : Prop :=
  op.state = true → ∃ z ∈ zones,z.zoneActive = true ∧
    ∃ g ∈ z.tripPoints.map tag,op.pair = (g.1,g.2.1) ∧ g.2.2 ≠ .polling

theorem walkZones_spec (m : Methods σ) (srt : StdSort) {visit : Zone → List (Cdev σ) → (Nat → Sample) → Zone.Polled σ}
    (each : ∀ z devs samples,shape (visit z devs samples).zone = shape z ∧
      Driven m srt (fun op => z.zoneActive = true ∧ Asked (z.tripPoints.map tag) op) devs (visit z devs samples).cdevs)
    (samples : Nat → Nat → Sample) (zones : List Zone) (place : Nat) (devs : List (Cdev σ)) :
    List.Forall₂ Extends zones (Engine.walkZones visit samples zones place devs).1 ∧
      Driven m srt (Raised zones) devs (Engine.walkZones visit samples zones place devs).2.1 := by
  induction zones generalizing place devs with
  | nil => exact ⟨.nil,driven_refl m srt⟩
  | cons z rest ih =>
    obtain ⟨kept,driven⟩ := each z devs (samples place)
    obtain ⟨later,drivenLater⟩ := ih (place+1) (visit z devs (samples place)).cdevs
    refine ⟨.cons (extends_shape kept) later,
      driven_trans m srt (driven_mono m srt ?_ driven) (driven_mono m srt ?_ drivenLater)⟩
    · intro op given on
      obtain ⟨active,asked⟩ := given
      exact ⟨z,List.mem_cons_self,active,asked on⟩
    · intro op raised on
      obtain ⟨w,within,rest⟩ := raised on
      exact ⟨w,List.mem_cons_of_mem _ within,rest⟩

theorem noDangling_poll {e : Engine σ} (before : NoDangling e) (samples : Nat → Nat → Sample) :
    NoDangling (Engine.pollZones host.methods host.sort e samples).1 := by
  obtain ⟨kept,driven⟩ := walkZones_spec host.methods host.sort
    (readZoneTemp_asked host.methods host.sort e.ignoreCritical e.sensors e.preference) samples e.zones 0 e.cdevs
  refine ⟨own_extends kept before.own,?_⟩
  intro p held
  rcases driven_held host.methods host.sort driven held with old | ⟨op,raised,on,rfl⟩
  · exact live_extends kept (before.live p old)
  · obtain ⟨z,inside,active,g,listed,pair,cooling⟩ := raised on
    obtain ⟨t,trip,rfl⟩ := List.mem_map.mp listed
    rw [pair]
    exact live_extends kept ⟨z,inside,active,(before.own z inside t trip).symm,t,trip,cooling,rfl,rfl⟩

-- A policy switch releases what it clears: on every device the entries of the
-- cleared zones stand behind those of the kept ones and are named by the reset
-- from the last entry down.
def Clearable (keep : Zone → Bool) (e : Engine σ) : Prop :=
  ∀ k c,e.cdevs[k]? = some c → ∃ kept top,pairs c = kept++top ∧
    top.reverse.Sublist (resetPairs (e.zones.filter (!keep ·)) k) ∧ ∀ p ∈ kept,Live (e.zones.filter keep) p

theorem noDangling_clear {e : Engine σ} (before : NoDangling e) {keep : Zone → Bool} (clearable : Clearable keep e)
    (now : Int) : NoDangling (clearZones host keep now e) := by
  refine ⟨?_,?_⟩
  · intro z inside
    obtain ⟨w,within,rfl⟩ := List.mem_map.mp inside
    split
    · exact before.own w within
    · intro t trip
      cases trip
  · intro p given
    obtain ⟨c,inside,listed⟩ := given
    obtain ⟨k,present⟩ := List.mem_iff_getElem?.mp inside
    have reset : (clearZones host keep now e).cdevs =
        resetZones host.methods host.sort now (e.zones.filter (!keep ·)) e.cdevs := rfl
    rw [reset,resetZones_run,run_send] at present
    obtain ⟨old,was,rfl⟩ := Option.map_eq_some_iff.mp present
    obtain ⟨kept,top,split,named,live⟩ := clearable k old was
    have off : ∀ op ∈ opsOf k (releases now (e.zones.filter (!keep ·))),op.state = false := by
      intro op sent
      obtain ⟨_,_,_,rfl⟩ := releases_setMin sent
      rfl
    rw [run_releases host.methods host.sort off,releases_pairs,split] at listed
    have within := ((releaseAll_within_iff kept top _).mpr named).subset listed
    obtain ⟨z,member,rest⟩ := live p within
    obtain ⟨present,keeps⟩ := List.mem_filter.mp member
    refine ⟨z,List.mem_map.mpr ⟨z,present,if_pos keeps⟩,rest⟩

-- The clears that set_int3400_target makes.
def Switchable (a : Adaptive σ) (t : AdaptiveTarget) : Prop :=
  a.int3400Installed = false →
    (t.code = "ITMT" ∨ t.code = "ITMT3" → Gddv.findItmt a.gddv t.argument ≠ none →
      Clearable (fun z => host.debugMode && plotsPower z) a.engine) ∧
    (t.code = "PSVT" → Gddv.findPsvt a.gddv t.argument ≠ none → Clearable plotsPower a.engine)

theorem noDangling_itmt {a : Adaptive σ} {t : AdaptiveTarget} (before : NoDangling a.engine)
    (itmt : t.code = "ITMT" ∨ t.code = "ITMT3") (switchable : Switchable host a t) {now : Int} {e : Engine σ}
    (set : setItmtTarget host now a.gddv a.int3400Installed a.engine t = some e) : NoDangling e := by
  unfold setItmtTarget at set
  obtain ⟨table,found,rfl⟩ := Option.map_eq_some_iff.mp set
  refine noDangling_grown (grown_foldl (fun e entry => grown_installItmt host e entry) _ _) ?_
  split
  · exact before
  · rename_i fresh
    have clearable := (switchable (by simpa using fresh)).1 itmt (by simp [found])
    exact noDangling_clear host before clearable now

theorem noDangling_int3400 {a a' : Adaptive σ} {t : AdaptiveTarget} (before : NoDangling a.engine)
    (switchable : Switchable host a t) {now : Int} (done : setInt3400Target host now a t = some a') :
    NoDangling a'.engine := by
  unfold setInt3400Target at done
  by_cases itmt : t.code = "ITMT" ∨ t.code = "ITMT3"
  · have other : ¬ t.code = "PSVT" := by
      rcases itmt with code | code <;> rw [code] <;> decide
    rw [if_pos itmt] at done
    dsimp only at done
    rw [if_neg other] at done
    split at done
    · exact noDangling_grown (grown_finish host done) before
    · rename_i e set
      exact noDangling_grown (grown_finish host done) (noDangling_itmt host before itmt switchable set)
  · rw [if_neg itmt] at done
    dsimp only at done
    split at done
    · rename_i code
      split at done
      · cases done
        exact before
      · rename_i psvt found
        refine noDangling_grown (grown_finish host done)
          (noDangling_grown (grown_foldl (fun e psv => grown_installPassive host e psv) _ _) ?_)
        split
        · exact before
        · rename_i fresh
          have clearable := (switchable (by simpa using fresh)).2 code (by simp [found])
          exact noDangling_clear host before clearable now
    · exact noDangling_grown (grown_finish host done) before

theorem noDangling_default {a : Adaptive σ} (before : NoDangling a.engine)
    (clearable : Clearable (fun _ => false) a.engine) (now : Int) :
    NoDangling (installPassiveDefault host now a).engine := by
  have cleared := noDangling_clear host before clearable now
  unfold installPassiveDefault
  dsimp only
  split
  · exact cleared
  · rename_i psvt _
    exact noDangling_grown ((grown_foldl (fun e psv => grown_installPassive host e psv) _ _).trans
      ((grown_consolidate host _).trans (grown_installEc host _))) cleared

-- The first zone of this name has no entry on any device.
def Quiet (e : Engine σ) (name : String) : Prop :=
  ∀ z,e.zones.find? (fun z => z.typeStr == name) = some z → ∀ p,Held e.cdevs p → p.1 ≠ z.index

theorem mem_eraseP_of_find {α : Type} {p : α → Bool} {l : List α} {a : α} (inside : a ∈ l)
    (other : l.find? p ≠ some a) : a ∈ l.eraseP p := by
  induction l with
  | nil => cases inside
  | cons b rest ih =>
    by_cases found : p b = true
    · rw [List.find?_cons_of_pos found] at other
      rw [List.eraseP_cons_of_pos found]
      rcases List.mem_cons.mp inside with rfl | later
      · exact absurd rfl other
      · exact later
    · rw [List.find?_cons_of_neg found] at other
      rw [List.eraseP_cons_of_neg found]
      rcases List.mem_cons.mp inside with rfl | later
      · exact List.mem_cons_self
      · exact List.mem_cons_of_mem _ (ih later other)

theorem noDangling_delete {e : Engine σ} (before : NoDangling e) {name : String} (quiet : Quiet e name) :
    NoDangling (Engine.userDeleteZone e name) := by
  refine ⟨fun z inside => before.own z (List.mem_of_mem_eraseP inside),?_⟩
  intro p held
  obtain ⟨z,inside,active,index,rest⟩ := before.live p held
  refine ⟨z,mem_eraseP_of_find inside ?_,active,index,rest⟩
  intro first
  exact quiet z first p held index.symm

theorem noDangling_status {e : Engine σ} (before : NoDangling e) {name : String} {status : Bool}
    (quiet : status = false → Quiet e name) : NoDangling (Engine.userSetZoneStatus e name status) := by
  unfold Engine.userSetZoneStatus
  split
  · exact before
  · rename_i i found
    have trips (z : Zone) : (if status then z.setZoneActive else z.setZoneInactive).tripPoints = z.tripPoints ∧
        (if status then z.setZoneActive else z.setZoneInactive).index = z.index := by
      cases status <;> exact ⟨rfl,rfl⟩
    refine ⟨?_,?_⟩
    · intro z inside
      obtain ⟨k,present⟩ := List.mem_iff_getElem?.mp inside
      rw [List.getElem?_modify] at present
      obtain ⟨w,was,rfl⟩ := Option.map_eq_some_iff.mp present
      have own := before.own w (List.mem_of_getElem? was)
      split
      · intro t trip
        rw [(trips w).1] at trip
        exact (own t trip).trans (trips w).2.symm
      · exact own
    · intro p held
      obtain ⟨z,inside,active,index,t,trip,rest⟩ := before.live p held
      obtain ⟨k,present⟩ := List.mem_iff_getElem?.mp inside
      have after := List.getElem?_modify (fun z : Zone => if status then z.setZoneActive else z.setZoneInactive)
        i e.zones k
      simp only [present,Option.map_eq_map,Option.map_some] at after
      refine ⟨_,List.mem_of_getElem? after,?_⟩
      by_cases same : i = k
      · subst k
        cases status with
        | true => exact ⟨by simp [Zone.setZoneActive],by simpa [Zone.setZoneActive] using index,t,
            by simpa [Zone.setZoneActive] using trip,rest⟩
        | false =>
          have first : e.zones.find? (fun z => z.typeStr == name) = some z := by
            rw [Engine.getZone] at found
            rw [List.find?_eq_bind_findIdx?_getElem?,found]
            exact present
          exact absurd index.symm (quiet rfl z first p held)
      · simp only [same,if_false]
        exact ⟨active,index,t,trip,rest⟩

-- read_thermal_zones numbers the trips of a zone with the zone's own index.
inductive Event where
  | poll (samples : Nat → Nat → Sample)
  | int3400Target (now : Int) (t : AdaptiveTarget)
  | passiveDefault (now : Int)
  | reloadZones (fresh : List {z : Zone // Own z})
  | deleteZone (name : String)
  | zoneStatus (name : String) (status : Bool)

-- none once the daemon has left.
def act (a : Adaptive σ) : Event → Option (Adaptive σ)
  | .poll samples => some {a with engine := (Engine.pollZones host.methods host.sort a.engine samples).1}
  | .int3400Target now t => setInt3400Target host now a t
  | .passiveDefault now => some (installPassiveDefault host now a)
  | .reloadZones fresh => some {a with engine := Engine.thdEngineReloadZones a.engine (fresh.map (·.val))}
  | .deleteZone name => some {a with engine := Engine.userDeleteZone a.engine name}
  | .zoneStatus name status => some {a with engine := Engine.userSetZoneStatus a.engine name status}

def step (a : Option (Adaptive σ)) (event : Event) : Option (Adaptive σ) := a.bind (act host · event)

-- Every cooling trip of an active zone that has an entry is read again: under
-- the same index, in an active zone of the same index.
def ReadAgain (e : Engine σ) (fresh : List Zone) : Prop :=
  ∀ z ∈ e.zones,z.zoneActive = true → ∀ t ∈ z.tripPoints,t.type ≠ .polling → Held e.cdevs (t.zoneId,t.index) →
    ∃ w ∈ fresh,w.zoneActive = true ∧ w.index = z.index ∧ ∃ u ∈ w.tripPoints,u.type ≠ .polling ∧ u.index = t.index

theorem noDangling_reload {e : Engine σ} (before : NoDangling e) {fresh : List Zone} (own : ∀ w ∈ fresh,Own w)
    (again : ReadAgain e fresh) : NoDangling (Engine.thdEngineReloadZones e fresh) := by
  refine ⟨own,?_⟩
  intro p held
  obtain ⟨z,inside,active,index,t,trip,cooling,zone,number⟩ := before.live p held
  have listed : Held e.cdevs (t.zoneId,t.index) := by
    rw [zone,number]
    exact held
  obtain ⟨w,within,on,same,u,member,kind,equal⟩ := again z inside active t trip cooling listed
  have named : w.index = p.1 := same.trans index
  exact ⟨w,within,on,named,u,member,kind,(own w within u member).trans named,equal.trans number⟩

-- What each operation would have to make sure of, in the state it starts from.
def Cleaned (a : Adaptive σ) : Event → Prop
  | .poll _ => True
  | .int3400Target _ t => Switchable host a t
  | .passiveDefault _ => Clearable (fun _ => false) a.engine
  | .reloadZones fresh => ReadAgain a.engine (fresh.map (·.val))
  | .deleteZone name => Quiet a.engine name
  | .zoneStatus name status => status = false → Quiet a.engine name

def CleanStep (a : Option (Adaptive σ)) (event : Event) : Prop := ∀ s,a = some s → Cleaned host s event

theorem noDangling_act {a a' : Adaptive σ} (before : NoDangling a.engine) {event : Event}
    (cleaned : Cleaned host a event) (done : act host a event = some a') : NoDangling a'.engine := by
  cases event with
  | poll samples => cases done; exact noDangling_poll host before samples
  | int3400Target now t => exact noDangling_int3400 host before cleaned done
  | passiveDefault now => cases done; exact noDangling_default host before cleaned now
  | reloadZones fresh =>
    cases done
    refine noDangling_reload before ?_ cleaned
    intro z inside
    obtain ⟨w,_,rfl⟩ := List.mem_map.mp inside
    exact w.property
  | deleteZone name => cases done; exact noDangling_delete before cleaned
  | zoneStatus name status => cases done; exact noDangling_status before cleaned

def Safe (a : Option (Adaptive σ)) : Prop := ∀ s,a = some s → NoDangling s.engine

theorem safe_step {a : Option (Adaptive σ)} {event : Event} (before : Safe a) (cleaned : CleanStep host a event) :
    Safe (step host a event) := by
  intro s done
  obtain ⟨old,rfl,next⟩ := Option.bind_eq_some_iff.mp done
  exact noDangling_act host (before old rfl) (cleaned old rfl) next

theorem start_noDangling {e : Engine σ} (own : ∀ z ∈ e.zones,Own z) (idle : ∀ c ∈ e.cdevs,c.zoneTripLimits = []) :
    NoDangling e := by
  refine ⟨own,?_⟩
  intro p given
  obtain ⟨c,inside,listed⟩ := given
  rw [pairs,idle c inside] at listed
  cases listed

-- The two zones of the forced reset, under an adaptive engine without tables.
def twoZonesAdaptive : Adaptive Int :=
  ⟨twoZones,⟨[],[],[],[],[],[],[],-1⟩,false,-1,"",false,false,-1,[],false⟩

def hotSamples : Nat → Nat → Sample := fun _ _ => ⟨100,60000⟩

def tablesHost : Host Int := ⟨genSysfs,StdSort.insertion,fun d _ => some d,fun _ => none,false⟩

-- Hot at minibook_soc only, so that the charger's zone has no entry when it is
-- disabled, read again and deleted, and the switch finds one entry to release.
def socSamples : Nat → Nat → Sample := fun place _ => ⟨100,if place = 0 then 60000 else 40000⟩

theorem twoZones_own : ∀ z ∈ twoZones.zones,Own z := by
  unfold Own
  decide

def tended : List Event := [.poll socSamples,.zoneStatus "minibook_charger" false,
  .reloadZones (twoZones.zones.attachWith Own twoZones_own),.deleteZone "minibook_charger"]

def Unlisted (e : Engine Int) (name : String) : Prop :=
  ∀ z ∈ (e.zones.find? (fun z => z.typeStr == name)).toList,∀ c ∈ e.cdevs,∀ p ∈ pairs c,p.1 ≠ z.index

theorem unlisted_quiet {e : Engine Int} {name : String} (unlisted : Unlisted e name) : Quiet e name := by
  intro z found p given
  obtain ⟨c,inside,listed⟩ := given
  exact unlisted z (Option.mem_toList.mpr found) c inside p listed

end ChuwiMinibook.DanglingLimits
