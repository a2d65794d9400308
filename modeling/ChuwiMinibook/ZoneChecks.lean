import ChuwiMinibook.CdevBank

namespace ChuwiMinibook.ZoneChecks
open Cdev CdevArbitration CdevBank Machine
variable {σ : Type} (m : Methods σ) (srt : StdSort)

-- What a check reads of a trip and never changes.
structure Frame where
  pair : Int × Int
  type : TripPointType
  temp : Nat
  bound : List (Bool × PidParam)

def brand (b : TripPtCdev) : Bool × PidParam := (b.targetStateValid,b.pidParam)

def frame (t : TripPoint) : Frame := ⟨(t.zoneId,t.index),t.type,t.temp,t.cdevs.map brand⟩

-- A request as a trip makes it for one reading.
def Made (f : Frame) (s : Sample) (op : Op) : Prop :=
  ∃ call,op = .set call ∧ call.now = s.now ∧ call.request.pair = f.pair ∧ call.request.targetTemp = f.temp ∧
    call.request.temperature = s.temp ∧ call.request.hardTarget = (f.type == .max) ∧
    call.request.state = decide (f.temp ≤ s.temp) ∧ call.request.force = false ∧
    ∃ b ∈ f.bound,call.request.targetStateValid = b.1 ∧ call.request.pidParam = some b.2

theorem drive_keeps (t : TripPoint) (b : TripPtCdev) (c : Cdev σ) (now : Int) (readTemp : Nat) (state : Bool) :
    (TripPoint.drive m srt t b c now readTemp state).1.cdev = b.cdev ∧
      brand (TripPoint.drive m srt t b c now readTemp state).1 = brand b := by
  unfold TripPoint.drive
  dsimp only
  split <;> exact ⟨rfl,rfl⟩

theorem driven_drive (t : TripPoint) {b : TripPtCdev} {c : Cdev σ} {devs : List (Cdev σ)} {k : Nat}
    (present : devs[k]? = some c) (now : Int) (readTemp : Nat) {state : Bool}
    (reached : state = decide (t.temp ≤ readTemp)) (own : brand b ∈ (frame t).bound) :
    Driven m srt (Made (frame t) ⟨now,readTemp⟩) devs
      (devs.set k (TripPoint.drive m srt t b c now readTemp state).2) := by
  unfold TripPoint.drive
  have kept : brand (if b.targetState = tripPtInvalidTargetState then {b with targetState := c.dev.minState} else b) =
      brand b := by
    split <;> rfl
  generalize (if b.targetState = tripPtInvalidTargetState then {b with targetState := c.dev.minState} else b) = b' at kept ⊢
  refine driven_set m srt present (.set ⟨now,TripPoint.request m t b' c.dev readTemp state,b'.pid⟩) ?_
  exact ⟨_,rfl,rfl,rfl,rfl,rfl,rfl,reached,rfl,brand b',kept ▸ own,rfl,rfl⟩

theorem switchOn_spec (t : TripPoint) (now : Int) {readTemp : Nat} (reached : t.temp ≤ readTemp)
    (bindings : List TripPtCdev) (own : ∀ b ∈ bindings,brand b ∈ (frame t).bound) (devs : List (Cdev σ)) :
    (TripPoint.switchOn m srt t now readTemp bindings devs).1.map brand = bindings.map brand ∧
      Driven m srt (Made (frame t) ⟨now,readTemp⟩) devs
        (TripPoint.switchOn m srt t now readTemp bindings devs).2 := by
  induction bindings generalizing devs with
  | nil => exact ⟨rfl,driven_refl m srt⟩
  | cons b rest ih =>
    have later := ih (fun b inside => own b (List.mem_cons_of_mem _ inside))
    unfold TripPoint.switchOn
    split
    · exact ⟨rfl,driven_refl m srt⟩
    · dsimp only
      have stamped : brand (if b.samplingPriod ≠ 0 then {b with lastOpTime := now} else b) = brand b := by
        split <;> rfl
      generalize (if b.samplingPriod ≠ 0 then {b with lastOpTime := now} else b) = b' at stamped ⊢
      split
      · exact ⟨by simp [stamped],driven_refl m srt⟩
      · rename_i c present
        split
        · exact ⟨by simp [stamped,(later devs).1],(later devs).2⟩
        · obtain ⟨sameCdev,sameBrand⟩ := drive_keeps m srt t b' c now readTemp true
          have one := driven_drive m srt t (b := b') present now readTemp (decide_eq_true reached).symm
            (stamped ▸ own b List.mem_cons_self)
          rw [sameCdev]
          split
          · exact ⟨by simp [stamped,sameBrand],one⟩
          · exact ⟨by simp [stamped,sameBrand,(later _).1],driven_trans m srt one (later _).2⟩

theorem switchOff_spec (t : TripPoint) (now : Int) {readTemp : Nat} (below : readTemp < t.temp)
    (bindings : List TripPtCdev) (own : ∀ b ∈ bindings,brand b ∈ (frame t).bound) (devs : List (Cdev σ)) :
    (TripPoint.switchOff m srt t now readTemp bindings devs).1.map brand = bindings.map brand ∧
      Driven m srt (Made (frame t) ⟨now,readTemp⟩) devs
        (TripPoint.switchOff m srt t now readTemp bindings devs).2 := by
  have unreached : false = decide (t.temp ≤ readTemp) := (decide_eq_false (Nat.not_le.mpr below)).symm
  induction bindings generalizing devs with
  | nil => exact ⟨rfl,driven_refl m srt⟩
  | cons b rest ih =>
    have later := ih (fun b inside => own b (List.mem_cons_of_mem _ inside))
    unfold TripPoint.switchOff
    split
    · exact ⟨rfl,driven_refl m srt⟩
    · rename_i c present
      dsimp only
      split
      · exact ⟨by simp [(later devs).1],(later devs).2⟩
      · obtain ⟨sameCdev,sameBrand⟩ := drive_keeps m srt t b c now readTemp false
        have one := driven_drive m srt t (b := b) present now readTemp unreached (own b List.mem_cons_self)
        rw [sameCdev]
        split
        · exact ⟨by simp [sameBrand],one⟩
        · exact ⟨by simp [sameBrand,(later _).1],driven_trans m srt one (later _).2⟩

theorem checkCdevs_spec (t : TripPoint) (devs : List (Cdev σ)) (now : Int) (readTemp : Nat) :
    frame (TripPoint.checkCdevs m srt t devs now readTemp).trip = frame t ∧
      Driven m srt (Made (frame t) ⟨now,readTemp⟩) devs (TripPoint.checkCdevs m srt t devs now readTemp).cdevs := by
  unfold TripPoint.checkCdevs
  split
  · rename_i reached
    obtain ⟨kept,driven⟩ := switchOn_spec m srt {t with tripOn := true} now reached t.cdevs
      (fun b inside => List.mem_map_of_mem inside) devs
    exact ⟨by simp [frame,kept],driven⟩
  · rename_i below
    split
    · obtain ⟨kept,driven⟩ := switchOff_spec m srt {t with tripOn := false} now (Nat.not_le.mp below) t.cdevs.reverse
        (fun b inside => List.mem_map_of_mem (List.mem_reverse.mp inside)) devs
      exact ⟨by simp [frame,List.map_reverse,kept],driven⟩
    · exact ⟨rfl,driven_refl m srt⟩

theorem applies_not_polling {pref : Int} {type : TripPointType} (applied : TripPoint.applies pref type = true) :
    type ≠ .polling := by
  intro given
  subst given
  unfold TripPoint.applies at applied
  split at applied
  · cases applied
  · split at applied <;> cases applied

theorem checkCritical_spec (t : TripPoint) (devs : List (Cdev σ)) (action : Action) :
    frame (TripPoint.checkCritical t devs action).trip = frame t ∧
      (TripPoint.checkCritical t devs action).cdevs = devs ∧
      (TripPoint.checkCritical t devs action).reset = false := by
  unfold TripPoint.checkCritical
  split <;> exact ⟨rfl,rfl,rfl⟩

-- A polling trip resets its zone only when it switches off.
def Silent (readTemp : Nat) (t : TripPoint) : Prop := t.type = .polling → t.pollOn = true → t.temp ≤ readTemp

theorem checkPolling_spec (t : TripPoint) (sensors : List Sensor) (devs : List (Cdev σ)) (readTemp : Nat) :
    frame (TripPoint.checkPolling t sensors devs readTemp).trip = frame t ∧
      (TripPoint.checkPolling t sensors devs readTemp).cdevs = devs ∧
      (t.type = .polling → Silent readTemp t → (TripPoint.checkPolling t sensors devs readTemp).reset = false ∧
        Silent readTemp (TripPoint.checkPolling t sensors devs readTemp).trip) := by
  unfold TripPoint.checkPolling
  split
  · exact ⟨rfl,rfl,fun _ silent => ⟨rfl,silent⟩⟩
  · dsimp only
    split
    · rename_i turned
      refine ⟨rfl,rfl,fun _ _ => ⟨rfl,fun _ _ => ?_⟩⟩
      simpa using (Bool.and_eq_true_iff.mp turned).2
    · split
      · rename_i turned
        refine ⟨rfl,rfl,fun type silent => ?_⟩
        have below : readTemp < t.temp := by simpa using (Bool.and_eq_true_iff.mp turned).2
        exact absurd (silent type (Bool.and_eq_true_iff.mp turned).1) (Nat.not_le.mpr below)
      · exact ⟨rfl,rfl,fun _ silent => ⟨rfl,silent⟩⟩

theorem checkCdevs_reset (t : TripPoint) (devs : List (Cdev σ)) (now : Int) (readTemp : Nat) :
    (TripPoint.checkCdevs m srt t devs now readTemp).reset = false := by
  unfold TripPoint.checkCdevs
  split
  · rfl
  · split <;> rfl

theorem silent_other {readTemp : Nat} {t u : TripPoint} (kept : frame u = frame t) (other : t.type ≠ .polling) :
    Silent readTemp u := by
  have type : u.type = t.type := congrArg Frame.type kept
  exact fun polling => absurd (type.symm.trans polling) other

-- One check: the trip keeps its frame; requests come from trips a preference
-- applies to, never from a polling trip; a silent trip asks for no reset.
theorem check_spec (ignoreCritical : Bool) (sensors : List Sensor) (t : TripPoint) (devs : List (Cdev σ))
    (now id : Int) (readTemp : Nat) (pref : Int) {checked : TripPoint.Checked σ}
    (done : TripPoint.thdTripPointCheck m srt ignoreCritical sensors t devs now id readTemp pref = checked) :
    frame checked.trip = frame t ∧
      Driven m srt (fun op => Made (frame t) ⟨now,readTemp⟩ op ∧ t.type ≠ .polling) devs checked.cdevs ∧
      (Silent readTemp t → checked.reset = false ∧ Silent readTemp checked.trip) := by
  subst done
  unfold TripPoint.thdTripPointCheck
  split
  · exact ⟨rfl,driven_refl m srt,fun silent => ⟨rfl,silent⟩⟩
  split
  · exact ⟨rfl,driven_refl m srt,fun silent => ⟨rfl,silent⟩⟩
  split
  · exact ⟨rfl,driven_refl m srt,fun silent => ⟨rfl,silent⟩⟩
  split
  · rename_i critical
    obtain ⟨kept,same,reset⟩ := checkCritical_spec t devs .powerOff
    exact ⟨kept,same.symm ▸ driven_refl m srt,fun _ => ⟨reset,silent_other kept (by simp [critical.1])⟩⟩
  split
  · rename_i hot
    obtain ⟨kept,same,reset⟩ := checkCritical_spec t devs .suspend
    exact ⟨kept,same.symm ▸ driven_refl m srt,fun _ => ⟨reset,silent_other kept (by simp [hot.1])⟩⟩
  · dsimp only
    have kept : frame (if t.type = .critical ∨ t.type = .hot then {t with critTripCount := 0} else t) = frame t := by
      split <;> rfl
    have quiet : Silent readTemp t →
        Silent readTemp (if t.type = .critical ∨ t.type = .hot then {t with critTripCount := 0} else t) := by
      intro silent
      split <;> exact silent
    generalize (if t.type = .critical ∨ t.type = .hot then {t with critTripCount := 0} else t) = u at kept quiet ⊢
    split
    · rename_i polling
      obtain ⟨after,same,silently⟩ := checkPolling_spec u sensors devs readTemp
      exact ⟨after.trans kept,same.symm ▸ driven_refl m srt,fun silent => silently polling.1 (quiet silent)⟩
    split
    · rename_i applied
      obtain ⟨after,driven⟩ := checkCdevs_spec m srt u devs now readTemp
      have type : u.type = t.type := congrArg Frame.type kept
      have other : t.type ≠ .polling := type ▸ applies_not_polling applied
      refine ⟨after.trans kept,driven_mono m srt ?_ driven,?_⟩
      · intro op made
        exact ⟨kept ▸ made,other⟩
      · exact fun _ => ⟨checkCdevs_reset m srt u devs now readTemp,silent_other (after.trans kept) other⟩
    · exact ⟨kept,driven_refl m srt,fun silent => ⟨rfl,quiet silent⟩⟩

theorem driven_stateReset (force : Bool) (t : TripPoint) (now : Int) (devs : List (Cdev σ)) :
    Driven m srt (fun op => op.state = false) devs (TripPoint.thdTripCdevStateReset m srt force t now devs) := by
  unfold TripPoint.thdTripCdevStateReset
  refine driven_foldl m srt ?_ devs
  intro b _ devs
  cases present : devs[b.cdev]? with
  | none =>
    rw [List.modify_eq_self (List.getElem?_eq_none_iff.mp present)]
    exact driven_refl m srt
  | some c =>
    have modified (f : Cdev σ → Cdev σ) : devs.modify b.cdev f = devs.set b.cdev (f c) := by
      rw [List.modify_eq_set_getElem?,present]
      rfl
    rw [modified]
    split
    · have same : devs.set b.cdev c = devs := by
        obtain ⟨bound,rfl⟩ := List.getElem?_eq_some_iff.mp present
        exact List.set_getElem_self bound
      rw [same]
      exact driven_refl m srt
    · exact driven_set m srt present (.setMin now t.zoneId t.index) rfl

theorem driven_zoneReset (force : Bool) (now : Int) (z : Zone) (devs : List (Cdev σ)) :
    Driven m srt (fun op => op.state = false) devs (Zone.zoneReset m srt force now z devs) := by
  unfold Zone.zoneReset
  split
  · exact driven_foldl m srt (fun t _ devs => driven_stateReset m srt force t now devs) devs
  · exact driven_refl m srt

-- The part of a zone that readings leave alone.
def outline (z : Zone) : Int × Bool × String × List Nat × List Frame :=
  (z.index,z.zoneActive,z.typeStr,z.sensors,z.tripPoints.map frame)

theorem outline_frames {z w : Zone} (same : outline w = outline z) :
    w.tripPoints.map frame = z.tripPoints.map frame := congrArg (·.2.2.2.2) same

section Readings
variable (ignoreCritical : Bool) (sensors : List Sensor) (pref : Int)

-- P holds of every request these trips make for a sample that S admits, and of
-- the releases of a reset unless every trip is silent at all such samples.
structure Covers (P : Op → Prop) (S : Sample → Prop) (trips : List TripPoint) : Prop where
  requests : ∀ s,S s → ∀ f ∈ trips.map frame,f.type ≠ .polling → ∀ op,Made f s op → P op
  resets : (∀ op,op.state = false → P op) ∨ ∃ r,(∀ s,S s → s.temp = r) ∧ ∀ t ∈ trips,Silent r t

variable {P : Op → Prop} {S : Sample → Prop}

theorem checkTrips_spec (sample : Sample) (id : Int) (trips : List TripPoint) (devs : List (Cdev σ))
    (requests : ∀ f ∈ trips.map frame,f.type ≠ .polling → ∀ op,Made f sample op → P op) {reading : Zone.Reading σ}
    (done : Zone.checkTrips m srt ignoreCritical sensors sample id pref trips devs = reading) :
    reading.trips.map frame = trips.map frame ∧ Driven m srt P devs reading.cdevs ∧
      ((∀ t ∈ trips,Silent sample.temp t) → reading.reset = false ∧ ∀ t ∈ reading.trips,Silent sample.temp t) := by
  subst done
  induction trips generalizing devs with
  | nil => exact ⟨rfl,driven_refl m srt,fun silent => ⟨rfl,silent⟩⟩
  | cons t rest ih =>
    obtain ⟨kept,driven,silently⟩ :=
      check_spec m srt ignoreCritical sensors t devs sample.now id sample.temp pref rfl
    have first := driven_mono m srt (fun op asks => requests (frame t) (by simp) asks.2 op asks.1) driven
    obtain ⟨keptLater,drivenLater,silentLater⟩ := ih
      (TripPoint.thdTripPointCheck m srt ignoreCritical sensors t devs sample.now id sample.temp pref).cdevs
      (fun f inside => requests f (List.mem_cons_of_mem _ inside))
    unfold Zone.checkTrips
    dsimp only
    split
    · rename_i reset
      refine ⟨by simp [kept],first,?_⟩
      intro silent
      rw [(silently (silent t List.mem_cons_self)).1] at reset
      cases reset
    · refine ⟨by simp [kept,keptLater],driven_trans m srt first drivenLater,?_⟩
      intro silent
      obtain ⟨calm,rest⟩ := silentLater (fun u inside => silent u (List.mem_cons_of_mem _ inside))
      refine ⟨calm,?_⟩
      intro u inside
      rcases List.mem_cons.mp inside with rfl | later
      · exact (silently (silent t List.mem_cons_self)).2
      · exact rest u later

theorem tempChange_spec {sample : Sample} (admitted : S sample) (id : Int) (z : Zone) (devs : List (Cdev σ))
    (covers : Covers P S z.tripPoints) {polled : Zone.Polled σ}
    (done : Zone.thermalZoneTempChange m srt ignoreCritical sensors pref z devs sample id = polled) :
    outline polled.zone = outline z ∧ Driven m srt P devs polled.cdevs ∧ Covers P S polled.zone.tripPoints := by
  subst done
  obtain ⟨kept,driven,silently⟩ := checkTrips_spec m srt ignoreCritical sensors pref sample id z.tripPoints devs
    (covers.requests sample admitted) rfl
  unfold Zone.thermalZoneTempChange
  refine ⟨by simp [outline,kept],?_,fun s admits => kept.symm ▸ covers.requests s admits,?_⟩
  · dsimp only
    split
    · rename_i reset
      rcases covers.resets with off | ⟨r,uniform,silent⟩
      · exact driven_trans m srt driven (driven_mono m srt off (driven_zoneReset m srt false _ _ _))
      · rw [← uniform sample admitted] at silent
        rw [(silently silent).1] at reset
        cases reset
    · exact driven
  · rcases covers.resets with off | ⟨r,uniform,silent⟩
    · exact .inl off
    · rw [← uniform sample admitted] at silent
      exact .inr ⟨sample.temp,fun s admits => (uniform s admits).trans (uniform sample admitted).symm,
        (silently silent).2⟩

theorem readSensors_spec {samples : Nat → Sample} (admitted : ∀ place,S (samples place)) (bound : List Nat)
    (place : Nat) (start : Zone.Polled σ) (covers : Covers P S start.zone.tripPoints) {polled : Zone.Polled σ}
    (done : Zone.readSensors m srt ignoreCritical sensors pref samples bound place start = polled) :
    outline polled.zone = outline start.zone ∧ Driven m srt P start.cdevs polled.cdevs := by
  subst done
  induction bound generalizing place start with
  | nil => exact ⟨rfl,driven_refl m srt⟩
  | cons s rest ih =>
    unfold Zone.readSensors
    cases present : sensors[s]? with
    | none => exact ih (place+1) start covers
    | some sensor =>
      obtain ⟨kept,driven,covered⟩ := tempChange_spec m srt ignoreCritical sensors pref (admitted place) sensor.index
        start.zone start.cdevs covers rfl
      dsimp only
      generalize Zone.thermalZoneTempChange m srt ignoreCritical sensors pref start.zone start.cdevs (samples place)
        sensor.index = next at kept driven covered ⊢
      obtain ⟨later,drivenLater⟩ := ih (place+1) ⟨next.zone,next.cdevs,start.actions ++ next.actions⟩ covered
      exact ⟨later.trans kept,driven_trans m srt driven drivenLater⟩

-- A zone at a poll: the samples are its sensors' own, or their highest.
theorem readZoneTemp_spec (z : Zone) (devs : List (Cdev σ)) {samples : Nat → Sample}
    (admitted : ∀ place,S (samples place))
    (peak : z.sensors ≠ [] → S ⟨(samples 0).now,Zone.hottest samples z.sensors.length⟩)
    (covers : z.zoneActive = true → Covers P S z.tripPoints) {polled : Zone.Polled σ}
    (done : Zone.readZoneTemp m srt ignoreCritical sensors pref z devs samples = polled) :
    outline polled.zone = outline z ∧ Driven m srt P devs polled.cdevs := by
  subst done
  unfold Zone.readZoneTemp
  split
  · rename_i active
    split
    · exact readSensors_spec m srt ignoreCritical sensors pref admitted z.sensors 0 ⟨z,devs,[]⟩ (covers active) rfl
    · dsimp only
      split
      · rename_i sensor first
        have bound : z.sensors ≠ [] := by
          intro empty
          simp [empty] at first
        split
        · obtain ⟨kept,driven,_⟩ := tempChange_spec m srt ignoreCritical sensors pref (peak bound) sensor.index z devs
            (covers active) rfl
          exact ⟨kept,driven⟩
        · exact ⟨rfl,driven_refl m srt⟩
      · exact ⟨rfl,driven_refl m srt⟩
  · exact ⟨rfl,driven_refl m srt⟩

end Readings

-- What identifies a trip in the requests it makes.
def tag (t : TripPoint) : Int × Int × TripPointType := (t.zoneId,t.index,t.type)

def shape (z : Zone) : Int × Bool × String × List Nat × List (Int × Int × TripPointType) :=
  (z.index,z.zoneActive,z.typeStr,z.sensors,z.tripPoints.map tag)

theorem shape_tags {z w : Zone} (same : shape w = shape z) : w.tripPoints.map tag = z.tripPoints.map tag :=
  congrArg (·.2.2.2.2) same

theorem shape_outline {z w : Zone} (same : outline w = outline z) : shape w = shape z := by
  have tags : ∀ l : List TripPoint,l.map tag = (l.map frame).map (fun f => (f.pair.1,f.pair.2,f.type)) := by
    intro l
    rw [List.map_map]
    rfl
  have frames := outline_frames same
  simp only [outline,Prod.mk.injEq] at same
  obtain ⟨index,active,type,sensors,_⟩ := same
  simp only [shape,index,active,type,sensors,tags,frames]

-- Every activation among the operations comes from one of these trips.
def Asked (tags : List (Int × Int × TripPointType)) (op : Op) : Prop :=
  op.state = true → ∃ g ∈ tags,op.pair = (g.1,g.2.1) ∧ g.2.2 ≠ .polling

theorem asked_off {tags : List (Int × Int × TripPointType)} (op : Op) (off : op.state = false) :
    Asked tags op := by
  intro on
  rw [off] at on
  cases on

theorem readZoneTemp_asked (ignoreCritical : Bool) (sensors : List Sensor) (pref : Int) (z : Zone)
    (devs : List (Cdev σ)) (samples : Nat → Sample) :
    shape (Zone.readZoneTemp m srt ignoreCritical sensors pref z devs samples).zone = shape z ∧
      Driven m srt (fun op => z.zoneActive = true ∧ Asked (z.tripPoints.map tag) op) devs
        (Zone.readZoneTemp m srt ignoreCritical sensors pref z devs samples).cdevs := by
  cases active : z.zoneActive with
  | false =>
    unfold Zone.readZoneTemp
    rw [if_neg (by simp [active])]
    exact ⟨rfl,driven_refl m srt⟩
  | true =>
    have covers : z.zoneActive = true → Covers (fun op => true = true ∧ Asked (z.tripPoints.map tag) op)
        (fun _ => True) z.tripPoints := by
      refine fun _ => ⟨?_,.inl (fun op off => ⟨rfl,asked_off op off⟩)⟩
      intro s _ f inside cooling op made
      obtain ⟨t,trip,rfl⟩ := List.mem_map.mp inside
      obtain ⟨call,rfl,_,pair,_⟩ := made
      exact ⟨rfl,fun _ => ⟨tag t,List.mem_map_of_mem trip,pair,cooling⟩⟩
    obtain ⟨kept,driven⟩ := readZoneTemp_spec m srt ignoreCritical sensors pref z devs (fun _ => trivial)
      (fun _ => trivial) covers rfl
    exact ⟨shape_outline kept,driven⟩

end ChuwiMinibook.ZoneChecks
