import ChuwiMinibook.CriticalTrips

namespace ChuwiMinibook.SequentialTrips
open TripPoint Machine
open CriticalTrips (Reading)

variable {σ : Type} (m : Cdev.Methods σ) (srt : StdSort)

-- A thd_cdev_set_state call of a check, by the position of the binding.
inductive Call where
  | activate (place : Nat)
  | deactivate (place : Nat)
deriving DecidableEq

-- switchOn with the positions it calls set_state for.
def switchOnLogged (t : TripPoint) (now : Int) (readTemp : Nat) :
    List TripPtCdev → List (Cdev σ) → Nat → (List TripPtCdev × List (Cdev σ)) × List Nat
  | [],devs,_ => (([],devs),[])
  | b::rest,devs,place =>
    if b.samplingPriod ≠ 0 ∧ now - b.lastOpTime < b.samplingPriod then ((b::rest,devs),[])
    else
      let b := if b.samplingPriod ≠ 0 then {b with lastOpTime := now} else b
      match devs[b.cdev]? with
      | none => ((b::rest,devs),[])
      | some c =>
        if Cdev.inMaxState m c.dev then
          let ((rest,devs),log) := switchOnLogged t now readTemp rest devs (place+1)
          ((b::rest,devs),log)
        else
          let (b,c) := drive m srt t b c now readTemp true
          let devs := devs.set b.cdev c
          if t.controlType = .sequential then ((b::rest,devs),[place])
          else
            let ((rest,devs),log) := switchOnLogged t now readTemp rest devs (place+1)
            ((b::rest,devs),place::log)

-- switchOff likewise; in the reversed list a binding has the position that is
-- the number of bindings behind it.
def switchOffLogged (t : TripPoint) (now : Int) (readTemp : Nat) :
    List TripPtCdev → List (Cdev σ) → (List TripPtCdev × List (Cdev σ)) × List Nat
  | [],devs => (([],devs),[])
  | b::rest,devs =>
    match devs[b.cdev]? with
    | none => ((b::rest,devs),[])
    | some c =>
      if Cdev.inMinState m c.dev then
        let ((rest,devs),log) := switchOffLogged t now readTemp rest devs
        ((b::rest,devs),log)
      else
        let (b,c) := drive m srt t b c now readTemp false
        let devs := devs.set b.cdev c
        if t.controlType = .sequential then ((b::rest,devs),[rest.length])
        else
          let ((later,devs),log) := switchOffLogged t now readTemp rest devs
          ((b::later,devs),rest.length::log)

def checkCdevsLogged (t : TripPoint) (devs : List (Cdev σ)) (now : Int) (readTemp : Nat) : Checked σ × List Call :=
  if readTemp ≥ t.temp then
    let t := {t with tripOn := true}
    let ((cdevs,devs),log) := switchOnLogged m srt t now readTemp t.cdevs devs 0
    (⟨{t with cdevs := cdevs},devs,[],false,true⟩,log.map .activate)
  else if (t.tripOn ∧ (readTemp + t.hyst) % 4294967296 < t.temp) ∨ (t.tripOn = false ∧ readTemp < t.temp) then
    let t := {t with tripOn := false}
    let ((cdevs,devs),log) := switchOffLogged m srt t now readTemp t.cdevs.reverse devs
    (⟨{t with cdevs := cdevs.reverse},devs,[],false,true⟩,log.map .deactivate)
  else (⟨t,devs,[],false,true⟩,[])

-- The readings at which a trip is applicable and looks at its devices.
def Applied (t : TripPoint) (r : Reading σ) : Prop :=
  dependencyMet m t r.devs r.temp = true ∧ (t.sensorId = defaultSensorId ∨ t.sensorId = r.id) ∧
    applies r.pref t.type = true

instance (t : TripPoint) (r : Reading σ) : Decidable (Applied m t r) :=
  inferInstanceAs (Decidable (_ = true ∧ (t.sensorId = defaultSensorId ∨ t.sensorId = r.id) ∧ _ = true))

def check (ignoreCritical : Bool) (t : TripPoint) (r : Reading σ) : Checked σ :=
  thdTripPointCheck m srt ignoreCritical r.sensors t r.devs r.now r.id r.temp r.pref

def calls (t : TripPoint) (r : Reading σ) : List Call :=
  if Applied m t r then (checkCdevsLogged m srt t r.devs r.now r.temp).2 else []

theorem switchOn_logged (t : TripPoint) (now : Int) (readTemp : Nat) (bindings : List TripPtCdev)
    (devs : List (Cdev σ)) (place : Nat) :
    (switchOnLogged m srt t now readTemp bindings devs place).1 = switchOn m srt t now readTemp bindings devs := by
  induction bindings generalizing devs place with
  | nil => rfl
  | cons b rest ih =>
    unfold switchOnLogged switchOn
    by_cases early : b.samplingPriod ≠ 0 ∧ now - b.lastOpTime < b.samplingPriod
    · rw [if_pos early,if_pos early]
    · rw [if_neg early,if_neg early]
      dsimp only
      generalize (if b.samplingPriod ≠ 0 then {b with lastOpTime := now} else b) = stamped
      cases present : devs[stamped.cdev]? with
      | none => rfl
      | some c =>
        dsimp only
        by_cases maxed : Cdev.inMaxState m c.dev = true
        · rw [if_pos maxed,if_pos maxed,← ih devs (place+1)]
        · rw [if_neg maxed,if_neg maxed]
          by_cases sequential : t.controlType = .sequential
          · rw [if_pos sequential,if_pos sequential]
          · rw [if_neg sequential,if_neg sequential,← ih _ (place+1)]

theorem switchOff_logged (t : TripPoint) (now : Int) (readTemp : Nat) (bindings : List TripPtCdev)
    (devs : List (Cdev σ)) :
    (switchOffLogged m srt t now readTemp bindings devs).1 = switchOff m srt t now readTemp bindings devs := by
  induction bindings generalizing devs with
  | nil => rfl
  | cons b rest ih =>
    unfold switchOffLogged switchOff
    cases present : devs[b.cdev]? with
    | none => rfl
    | some c =>
      dsimp only
      by_cases least : Cdev.inMinState m c.dev = true
      · rw [if_pos least,if_pos least,← ih]
      · rw [if_neg least,if_neg least]
        by_cases sequential : t.controlType = .sequential
        · rw [if_pos sequential,if_pos sequential]
        · rw [if_neg sequential,if_neg sequential,← ih]

-- The logged check is the check of the source.
theorem checkCdevs_logged (t : TripPoint) (devs : List (Cdev σ)) (now : Int) (readTemp : Nat) :
    (checkCdevsLogged m srt t devs now readTemp).1 = checkCdevs m srt t devs now readTemp := by
  unfold checkCdevsLogged checkCdevs
  split
  · dsimp only
    rw [← switchOn_logged m srt _ _ _ _ _ 0]
  · split
    · dsimp only
      rw [← switchOff_logged]
    · rfl

def maxed (devs : List (Cdev σ)) (b : TripPtCdev) : Option Bool := devs[b.cdev]?.map (fun c => Cdev.inMaxState m c.dev)

def least (devs : List (Cdev σ)) (b : TripPtCdev) : Option Bool := devs[b.cdev]?.map (fun c => Cdev.inMinState m c.dev)

structure FirstBelowMax (cdevs : List TripPtCdev) (devs : List (Cdev σ)) (place : Nat) : Prop where
  here : cdevs[place]?.bind (maxed m devs) = some false
  before : ∀ i < place,cdevs[i]?.bind (maxed m devs) = some true

structure LastAboveMin (cdevs : List TripPtCdev) (devs : List (Cdev σ)) (place : Nat) : Prop where
  here : cdevs[place]?.bind (least m devs) = some false
  behind : ∀ i,place < i → i < cdevs.length → cdevs[i]?.bind (least m devs) = some true

theorem switchOn_calls {t : TripPoint} (sequential : t.controlType = .sequential) (now : Int) (readTemp : Nat)
    (bindings : List TripPtCdev) (devs : List (Cdev σ)) (place : Nat) :
    (switchOnLogged m srt t now readTemp bindings devs place).2 = [] ∨
      ∃ i,(switchOnLogged m srt t now readTemp bindings devs place).2 = [place+i] ∧ FirstBelowMax m bindings devs i := by
  induction bindings generalizing place with
  | nil => exact .inl rfl
  | cons b rest ih =>
    unfold switchOnLogged
    by_cases early : b.samplingPriod ≠ 0 ∧ now - b.lastOpTime < b.samplingPriod
    · rw [if_pos early]
      exact .inl rfl
    · rw [if_neg early]
      dsimp only
      have same : (if b.samplingPriod ≠ 0 then {b with lastOpTime := now} else b).cdev = b.cdev := by split <;> rfl
      rw [same]
      cases present : devs[b.cdev]? with
      | none => exact .inl rfl
      | some c =>
        dsimp only
        cases high : Cdev.inMaxState m c.dev with
        | true =>
          rw [if_pos rfl]
          cases ih (place+1) with
          | inl none => exact .inl none
          | inr some =>
            obtain ⟨i,logged,first⟩ := some
            refine .inr ⟨i+1,by rw [logged,Nat.add_right_comm,Nat.add_assoc],first.here,?_⟩
            intro j earlier
            cases j with
            | zero => simp [maxed,present,high]
            | succ j => exact first.before j (Nat.lt_of_succ_lt_succ earlier)
        | false =>
          rw [if_neg Bool.false_ne_true,if_pos sequential]
          refine .inr ⟨0,rfl,by simp [maxed,present,high],?_⟩
          intro j earlier
          exact absurd earlier (Nat.not_lt_zero j)

theorem switchOff_calls {t : TripPoint} (sequential : t.controlType = .sequential) (now : Int) (readTemp : Nat)
    (bindings : List TripPtCdev) (devs : List (Cdev σ)) :
    (switchOffLogged m srt t now readTemp bindings devs).2 = [] ∨
      ∃ i,(switchOffLogged m srt t now readTemp bindings devs).2 = [i] ∧ i < bindings.length ∧
        LastAboveMin m bindings.reverse devs i := by
  induction bindings with
  | nil => exact .inl rfl
  | cons b rest ih =>
    unfold switchOffLogged
    rw [List.reverse_cons]
    cases present : devs[b.cdev]? with
    | none => exact .inl rfl
    | some c =>
      dsimp only
      cases low : Cdev.inMinState m c.dev with
      | true =>
        rw [if_pos rfl]
        cases ih with
        | inl none => exact .inl none
        | inr some =>
          obtain ⟨i,logged,inside,last⟩ := some
          have reversed : i < rest.reverse.length := by rw [List.length_reverse]; exact inside
          refine .inr ⟨i,logged,Nat.lt_succ_of_lt inside,?_,?_⟩
          · rw [List.getElem?_append_left reversed]
            exact last.here
          · intro j later within
            by_cases front : j < rest.reverse.length
            · rw [List.getElem?_append_left front]
              exact last.behind j later front
            · have final : j = rest.reverse.length := by
                rw [List.length_append,List.length_singleton] at within
                omega
              rw [final,List.getElem?_concat_length]
              simp [least,present,low]
      | false =>
        rw [if_neg Bool.false_ne_true,if_pos sequential]
        refine .inr ⟨rest.length,rfl,Nat.lt_succ_self _,?_,?_⟩
        · rw [← List.length_reverse,List.getElem?_concat_length]
          simp [least,present,low]
        · intro j later within
          rw [List.length_append,List.length_reverse,List.length_singleton] at within
          omega

-- Bindings as trip_cdev_add sorts them.
def InfluenceOrder (cdevs : List TripPtCdev) : Prop := (cdevs.map (·.influence)).Pairwise (fun a b => b ≤ a)

theorem drive_influence (t : TripPoint) (b : TripPtCdev) (c : Cdev σ) (now : Int) (readTemp : Nat) (state : Bool) :
    (drive m srt t b c now readTemp state).1.influence = b.influence := by
  unfold drive
  dsimp only
  split <;> rfl

theorem switchOn_influences (t : TripPoint) (now : Int) (readTemp : Nat) (bindings : List TripPtCdev)
    (devs : List (Cdev σ)) :
    (switchOn m srt t now readTemp bindings devs).1.map (·.influence) = bindings.map (·.influence) := by
  induction bindings generalizing devs with
  | nil => rfl
  | cons b rest ih =>
    unfold switchOn
    by_cases early : b.samplingPriod ≠ 0 ∧ now - b.lastOpTime < b.samplingPriod
    · rw [if_pos early]
    · rw [if_neg early]
      dsimp only
      have same : (if b.samplingPriod ≠ 0 then {b with lastOpTime := now} else b).influence = b.influence := by
        split <;> rfl
      generalize (if b.samplingPriod ≠ 0 then {b with lastOpTime := now} else b) = stamped at same ⊢
      cases present : devs[stamped.cdev]? with
      | none => simp [same]
      | some c =>
        dsimp only
        by_cases high : Cdev.inMaxState m c.dev = true
        · simp [high,same,ih]
        · by_cases sequential : t.controlType = .sequential
          · simp [high,sequential,same,drive_influence]
          · simp [high,sequential,same,drive_influence,ih]

theorem switchOff_influences (t : TripPoint) (now : Int) (readTemp : Nat) (bindings : List TripPtCdev)
    (devs : List (Cdev σ)) :
    (switchOff m srt t now readTemp bindings devs).1.map (·.influence) = bindings.map (·.influence) := by
  induction bindings generalizing devs with
  | nil => rfl
  | cons b rest ih =>
    unfold switchOff
    cases present : devs[b.cdev]? with
    | none => rfl
    | some c =>
      dsimp only
      by_cases low : Cdev.inMinState m c.dev = true
      · simp [low,ih]
      · by_cases sequential : t.controlType = .sequential
        · simp [low,sequential,drive_influence]
        · simp [low,sequential,drive_influence,ih]

theorem switchOn_silent (t : TripPoint) (now : Int) (readTemp : Nat) (bindings : List TripPtCdev)
    (devs : List (Cdev σ)) (place : Nat) (silent : (switchOnLogged m srt t now readTemp bindings devs place).2 = []) :
    (switchOnLogged m srt t now readTemp bindings devs place).1.2 = devs := by
  induction bindings generalizing place with
  | nil => rfl
  | cons b rest ih =>
    unfold switchOnLogged at silent ⊢
    by_cases early : b.samplingPriod ≠ 0 ∧ now - b.lastOpTime < b.samplingPriod
    · rw [if_pos early]
    · rw [if_neg early] at silent ⊢
      dsimp only at silent ⊢
      generalize (if b.samplingPriod ≠ 0 then {b with lastOpTime := now} else b) = stamped at silent ⊢
      cases present : devs[stamped.cdev]? with
      | none => rfl
      | some c =>
        rw [present] at silent
        dsimp only at silent ⊢
        by_cases high : Cdev.inMaxState m c.dev = true
        · rw [if_pos high] at silent ⊢
          exact ih (place+1) silent
        · rw [if_neg high] at silent
          split at silent <;> cases silent

theorem switchOff_silent (t : TripPoint) (now : Int) (readTemp : Nat) (bindings : List TripPtCdev)
    (devs : List (Cdev σ)) (silent : (switchOffLogged m srt t now readTemp bindings devs).2 = []) :
    (switchOffLogged m srt t now readTemp bindings devs).1.2 = devs := by
  induction bindings with
  | nil => rfl
  | cons b rest ih =>
    unfold switchOffLogged at silent ⊢
    cases present : devs[b.cdev]? with
    | none => rfl
    | some c =>
      rw [present] at silent
      dsimp only at silent ⊢
      by_cases low : Cdev.inMinState m c.dev = true
      · rw [if_pos low] at silent ⊢
        exact ih silent
      · rw [if_neg low] at silent
        split at silent <;> cases silent

-- What no event changes of a trip.
def still (t : TripPoint) : TripPoint := {t with cdevs := [],tripOn := false,pollOn := false,critTripCount := 0}

theorem applied_still {s t : TripPoint} (same : still s = still t) (r : Reading σ) : Applied m s r ↔ Applied m t r := by
  have depends : s.dependCdev = t.dependCdev := congrArg (·.dependCdev) same
  have state : s.dependCdevState = t.dependCdevState := congrArg (·.dependCdevState) same
  have rel : s.dependCdevStateRel = t.dependCdevStateRel := congrArg (·.dependCdevStateRel) same
  have temp : s.temp = t.temp := congrArg (·.temp) same
  have type : s.type = t.type := congrArg (·.type) same
  have sensor : s.sensorId = t.sensorId := congrArg (·.sensorId) same
  unfold Applied dependencyMet
  rw [depends,state,rel,temp,type,sensor]

theorem applied_type {pref : Int} {type : TripPointType} (applied : applies pref type = true) :
    type = .max ∨ type = .passive ∨ type = .active := by
  unfold applies at applied
  split at applied
  · cases type <;> simp at applied ⊢
  · split at applied
    · cases type <;> simp at applied ⊢
    · cases applied

variable (ignoreCritical : Bool)

theorem check_applied {t : TripPoint} {r : Reading σ} (applied : Applied m t r) :
    check m srt ignoreCritical t r = checkCdevs m srt t r.devs r.now r.temp := by
  obtain ⟨met,own,given⟩ := applied
  have type := applied_type given
  have passed : ¬ (t.sensorId ≠ defaultSensorId ∧ t.sensorId ≠ r.id) := fun other => own.elim other.1 other.2
  have plain : t.type ≠ .invalidTripType ∧ t.type ≠ .critical ∧ t.type ≠ .hot ∧ t.type ≠ .polling := by
    rcases type with type | type | type <;> simp [type]
  have kept : (if t.type = .critical ∨ t.type = .hot then {t with critTripCount := 0} else t) = t :=
    if_neg (fun either => either.elim plain.2.1 plain.2.2.1)
  unfold check thdTripPointCheck
  rw [if_neg plain.1,met,if_neg (by decide),if_neg passed,if_neg (fun all => plain.2.1 all.1),
    if_neg (fun all => plain.2.2.1 all.1)]
  dsimp only
  rw [kept,if_neg (fun both => plain.2.2.2 both.1),given,if_pos rfl]

-- Elsewhere the check calls no device.
theorem check_other {t : TripPoint} {r : Reading σ} (other : ¬ Applied m t r) :
    still (check m srt ignoreCritical t r).trip = still t ∧ (check m srt ignoreCritical t r).trip.cdevs = t.cdevs ∧
      (check m srt ignoreCritical t r).trip.tripOn = t.tripOn ∧ (check m srt ignoreCritical t r).cdevs = r.devs := by
  unfold check thdTripPointCheck
  split
  · exact ⟨rfl,rfl,rfl,rfl⟩
  split
  · exact ⟨rfl,rfl,rfl,rfl⟩
  split
  · exact ⟨rfl,rfl,rfl,rfl⟩
  split
  · unfold checkCritical
    split <;> exact ⟨rfl,rfl,rfl,rfl⟩
  split
  · unfold checkCritical
    split <;> exact ⟨rfl,rfl,rfl,rfl⟩
  · rename_i unmet foreign _ _
    dsimp only
    have kept : still (if t.type = .critical ∨ t.type = .hot then {t with critTripCount := 0} else t) = still t ∧
        (if t.type = .critical ∨ t.type = .hot then {t with critTripCount := 0} else t).cdevs = t.cdevs ∧
        (if t.type = .critical ∨ t.type = .hot then {t with critTripCount := 0} else t).tripOn = t.tripOn ∧
        (if t.type = .critical ∨ t.type = .hot then {t with critTripCount := 0} else t).type = t.type := by
      split <;> exact ⟨rfl,rfl,rfl,rfl⟩
    generalize (if t.type = .critical ∨ t.type = .hot then {t with critTripCount := 0} else t) = u at kept ⊢
    obtain ⟨same,cdevs,on,type⟩ := kept
    split
    · unfold checkPolling
      split
      · exact ⟨same,cdevs,on,rfl⟩
      · dsimp only
        split
        · exact ⟨same,cdevs,on,rfl⟩
        · split <;> exact ⟨same,cdevs,on,rfl⟩
    · split
      · rename_i applied
        refine absurd ⟨by simpa using unmet,?_,type ▸ applied⟩ other
        by_cases default : t.sensorId = defaultSensorId
        · exact .inl default
        · exact .inr (by_contra fun own => foreign ⟨default,own⟩)
      · exact ⟨same,cdevs,on,rfl⟩

theorem logged_still (t : TripPoint) (devs : List (Cdev σ)) (now : Int) (readTemp : Nat) :
    still (checkCdevs m srt t devs now readTemp).trip = still t := by
  unfold checkCdevs
  split
  · rfl
  · split <;> rfl

theorem logged_influences (t : TripPoint) (devs : List (Cdev σ)) (now : Int) (readTemp : Nat) :
    (checkCdevs m srt t devs now readTemp).trip.cdevs.map (·.influence) = t.cdevs.map (·.influence) := by
  unfold checkCdevs
  split
  · exact switchOn_influences m srt _ now readTemp t.cdevs devs
  · split
    · change (switchOff m srt _ now readTemp t.cdevs.reverse devs).1.reverse.map (·.influence) = _
      rw [List.map_reverse,switchOff_influences,List.map_reverse,List.reverse_reverse]
    · rfl

theorem logged_silent (t : TripPoint) (devs : List (Cdev σ)) (now : Int) (readTemp : Nat)
    (silent : (checkCdevsLogged m srt t devs now readTemp).2 = []) :
    (checkCdevsLogged m srt t devs now readTemp).1.cdevs = devs := by
  unfold checkCdevsLogged at silent ⊢
  split at silent
  · rename_i reached
    rw [if_pos reached]
    exact switchOn_silent m srt _ now readTemp t.cdevs devs 0 (List.map_eq_nil_iff.mp silent)
  · rename_i below
    rw [if_neg below]
    split at silent
    · rename_i off
      rw [if_pos off]
      exact switchOff_silent m srt _ now readTemp t.cdevs.reverse devs (List.map_eq_nil_iff.mp silent)
    · rename_i held
      rw [if_neg held]

-- The flag that carries the hysteresis from one check to the next.
theorem logged_flag (t : TripPoint) (devs : List (Cdev σ)) (now : Int) (readTemp : Nat)
    (on : t.temp ≤ readTemp ∨ t.tripOn = true ∧ ¬ (readTemp + t.hyst) % 4294967296 < t.temp) :
    (checkCdevs m srt t devs now readTemp).trip.tripOn = true := by
  unfold checkCdevs
  by_cases reached : readTemp ≥ t.temp
  · rw [if_pos reached]
  · rw [if_neg reached]
    cases on with
    | inl given => exact absurd given reached
    | inr held =>
      rw [if_neg (fun off => off.elim (fun both => held.2 both.2) (fun both => Bool.false_ne_true (both.1.symm.trans held.1)))]
      exact held.1

section
variable {t : TripPoint} {r : Reading σ} {place : Nat}

theorem activate_spec (sequential : t.controlType = .sequential) (called : .activate place ∈ calls m srt t r) :
    calls m srt t r = [.activate place] ∧ Applied m t r ∧ t.temp ≤ r.temp ∧ FirstBelowMax m t.cdevs r.devs place := by
  unfold calls at called ⊢
  split at called
  · rename_i applied
    rw [if_pos applied]
    unfold checkCdevsLogged at called ⊢
    split at called
    · rename_i reached
      rw [if_pos reached]
      dsimp only at called ⊢
      have logged := switchOn_calls m srt (t := {t with tripOn := true}) sequential r.now r.temp t.cdevs r.devs 0
      rcases logged with none | ⟨i,one,first⟩
      · rw [none] at called
        cases called
      · rw [one,Nat.zero_add] at called ⊢
        cases List.mem_singleton.mp called
        exact ⟨rfl,applied,reached,first⟩
    · split at called
      · obtain ⟨i,_,other⟩ := List.mem_map.mp called
        cases other
      · cases called
  · cases called

theorem deactivate_spec (sequential : t.controlType = .sequential) (called : .deactivate place ∈ calls m srt t r) :
    calls m srt t r = [.deactivate place] ∧ Applied m t r ∧ r.temp < t.temp ∧
      (t.tripOn = true → (r.temp + t.hyst) % 4294967296 < t.temp) ∧ LastAboveMin m t.cdevs r.devs place := by
  unfold calls at called ⊢
  split at called
  · rename_i applied
    rw [if_pos applied]
    unfold checkCdevsLogged at called ⊢
    split at called
    · obtain ⟨i,_,other⟩ := List.mem_map.mp called
      cases other
    · rename_i below
      rw [if_neg below]
      split at called
      · rename_i off
        rw [if_pos off]
        dsimp only at called ⊢
        have logged := switchOff_calls m srt (t := {t with tripOn := false}) sequential r.now r.temp t.cdevs.reverse r.devs
        rcases logged with none | ⟨i,one,_,last⟩
        · rw [none] at called
          cases called
        · rw [one] at called ⊢
          cases List.mem_singleton.mp called
          rw [List.reverse_reverse] at last
          refine ⟨rfl,applied,Nat.not_le.mp below,?_,last⟩
          intro on
          cases off with
          | inl both => exact both.2
          | inr both => exact absurd (both.1.symm.trans on) Bool.false_ne_true
      · cases called
  · cases called

end

-- A device bound to the trip or a reading; the devices of a reading are in any
-- state, whatever other trips have done to them.
inductive Event (σ : Type) where
  | bind (typeOf : Nat → String) (b : TripPtCdev)
  | read (r : Reading σ)

def step (t : TripPoint) : Event σ → TripPoint
  | .bind typeOf b => tripCdevAdd srt typeOf t b
  | .read r => (check m srt ignoreCritical t r).trip

-- A reached reading with no release after it.
def Held (released : TripPoint → Nat → Prop) (t : TripPoint) (before : List (Event σ)) : Prop :=
  ∃ early r late,before = early++.read r::late ∧ Applied m t r ∧ t.temp ≤ r.temp ∧
    ∀ later,.read later ∈ late → Applied m t later → ¬ released t later.temp

-- The sum with the hysteresis as a number, and as the source's unsigned int.
def releasedExactly (t : TripPoint) (temp : Nat) : Prop := temp+t.hyst < t.temp
def releasedUnsigned (t : TripPoint) (temp : Nat) : Prop := (temp+t.hyst) % 4294967296 < t.temp

structure StackLaw (released : TripPoint → Nat → Prop) (t : TripPoint) (before : List (Event σ)) (r : Reading σ)
    (s : TripPoint) : Prop where
  influence : InfluenceOrder s.cdevs
  one : (calls m srt s r).length ≤ 1
  activated : ∀ place,.activate place ∈ calls m srt s r →
    Applied m t r ∧ t.temp ≤ r.temp ∧ FirstBelowMax m s.cdevs r.devs place
  deactivated : ∀ place,.deactivate place ∈ calls m srt s r →
    Applied m t r ∧ r.temp < t.temp ∧ LastAboveMin m s.cdevs r.devs place
  held : Held m released t before → ¬ released t r.temp → ∀ place,.deactivate place ∉ calls m srt s r
  silent : calls m srt s r = [] → (check m srt ignoreCritical s r).cdevs = r.devs

def Lawful (released : TripPoint → Nat → Prop) (t : TripPoint) (before : List (Event σ)) : Event σ → Prop
  | .bind _ _ => True
  | .read r => StackLaw m srt ignoreCritical released t before r (run (step m srt ignoreCritical) t before)

structure Tracks (t s : TripPoint) (before : List (Event σ)) : Prop where
  still : still s = still t
  influence : InfluenceOrder s.cdevs
  flag : Held m releasedUnsigned t before → s.tripOn = true

theorem tripCdevAdd_order (typeOf : Nat → String) (t : TripPoint) (b : TripPtCdev) :
    InfluenceOrder (tripCdevAdd srt typeOf t b).cdevs := by
  unfold InfluenceOrder tripCdevAdd
  rw [List.pairwise_map]
  refine (srt.sorted tripCdevSort _ ?_ ?_).imp ?_
  · intro a c before
    simp only [tripCdevSort,decide_eq_true_eq,decide_eq_false_iff_not] at before ⊢
    omega
  · intro a c d first second
    simp only [tripCdevSort,decide_eq_false_iff_not] at first second ⊢
    omega
  · intro a c ordered
    simp only [tripCdevSort,decide_eq_false_iff_not] at ordered
    omega

theorem held_snoc {released : TripPoint → Nat → Prop} {t : TripPoint} {before : List (Event σ)} {event : Event σ}
    (held : Held m released t (before++[event])) :
    (∃ r,event = .read r ∧ Applied m t r ∧ t.temp ≤ r.temp) ∨
      Held m released t before ∧ ∀ r,event = .read r → Applied m t r → ¬ released t r.temp := by
  obtain ⟨early,r,late,split,applied,reached,unreleased⟩ := held
  rcases late.eq_nil_or_concat' with rfl | ⟨rest,final,rfl⟩
  · obtain ⟨_,last⟩ := List.append_inj' split rfl
    exact .inl ⟨r,List.singleton_inj.mp last,applied,reached⟩
  · rw [← List.cons_append,← List.append_assoc] at split
    obtain ⟨front,last⟩ := List.append_inj' split rfl
    cases List.singleton_inj.mp last
    refine .inr ⟨⟨early,r,rest,front,applied,reached,?_⟩,?_⟩
    · intro later inside
      exact unreleased later (List.mem_append_left _ inside)
    · intro last same
      exact unreleased last (List.mem_append_right _ (List.mem_singleton.mpr same.symm))

theorem tracks_read {t s : TripPoint} {before : List (Event σ)} (tracks : Tracks m t s before) (r : Reading σ) :
    Tracks m t (step m srt ignoreCritical s (.read r)) (before++[.read r]) := by
  have temp : s.temp = t.temp := congrArg (·.temp) tracks.still
  have hyst : s.hyst = t.hyst := congrArg (·.hyst) tracks.still
  by_cases applied : Applied m s r
  · have checked : step m srt ignoreCritical s (.read r) = _ :=
      congrArg Checked.trip (check_applied m srt ignoreCritical applied)
    rw [checked]
    refine ⟨(logged_still m srt s r.devs r.now r.temp).trans tracks.still,?_,?_⟩
    · unfold InfluenceOrder
      rw [logged_influences]
      exact tracks.influence
    · intro held
      apply logged_flag
      rcases held_snoc m held with ⟨last,same,_,reached⟩ | ⟨earlier,unreleased⟩
      · cases same
        exact .inl (temp ▸ reached)
      · refine .inr ⟨tracks.flag earlier,?_⟩
        rw [temp,hyst]
        exact unreleased r rfl ((applied_still m tracks.still r).mp applied)
  · obtain ⟨same,cdevs,on,_⟩ := check_other m srt ignoreCritical applied
    refine ⟨same.trans tracks.still,?_,?_⟩
    · exact cdevs.symm ▸ tracks.influence
    · intro held
      refine on.trans (tracks.flag ?_)
      rcases held_snoc m held with ⟨last,equal,given,_⟩ | ⟨earlier,_⟩
      · cases equal
        exact absurd ((applied_still m tracks.still r).mpr given) applied
      · exact earlier

theorem tracks_bind {t s : TripPoint} {before : List (Event σ)} (tracks : Tracks m t s before)
    (typeOf : Nat → String) (b : TripPtCdev) :
    Tracks m t (step m srt ignoreCritical s (.bind typeOf b)) (before++[.bind typeOf b]) := by
  refine ⟨tracks.still,tripCdevAdd_order srt typeOf s b,?_⟩
  intro held
  rcases held_snoc m held with ⟨last,other,_⟩ | ⟨earlier,_⟩
  · cases other
  · exact tracks.flag earlier

theorem run_tracks {t : TripPoint} (unbound : t.cdevs = []) (events : List (Event σ)) :
    Tracks m t (run (step m srt ignoreCritical) t events) events := by
  induction events using List.reverseRecOn with
  | nil =>
    refine ⟨rfl,?_,?_⟩
    · rw [run_nil,unbound]
      exact List.Pairwise.nil
    · rintro ⟨early,r,late,split,_⟩
      exact absurd split.symm (List.append_ne_nil_of_right_ne_nil _ (List.cons_ne_nil _ _))
  | append_singleton events event ih =>
    rw [run_snoc]
    cases event with
    | bind typeOf b => exact tracks_bind m srt ignoreCritical ih typeOf b
    | read r => exact tracks_read m srt ignoreCritical ih r

theorem calls_one {t : TripPoint} (sequential : t.controlType = .sequential) (r : Reading σ) :
    (calls m srt t r).length ≤ 1 := by
  cases made : calls m srt t r with
  | nil => exact Nat.zero_le 1
  | cons call rest =>
    have called : call ∈ calls m srt t r := made ▸ List.mem_cons_self
    have alone : calls m srt t r = [call] := by
      cases call with
      | activate place => exact (activate_spec m srt sequential called).1
      | deactivate place => exact (deactivate_spec m srt sequential called).1
    rw [← made,alone]
    exact Nat.le_refl 1

theorem calls_silent {t : TripPoint} {r : Reading σ} (silent : calls m srt t r = []) :
    (check m srt ignoreCritical t r).cdevs = r.devs := by
  unfold calls at silent
  by_cases applied : Applied m t r
  · rw [if_pos applied] at silent
    rw [check_applied m srt ignoreCritical applied,← checkCdevs_logged]
    exact logged_silent m srt t r.devs r.now r.temp silent
  · exact (check_other m srt ignoreCritical applied).2.2.2

theorem sequential_trip_is_a_stack {t : TripPoint} (sequential : t.controlType = .sequential) (unbound : t.cdevs = [])
    (events : List (Event σ)) : Stepwise (Lawful m srt ignoreCritical releasedUnsigned t) events := by
  intro before event after _
  cases event with
  | bind typeOf b => trivial
  | read r =>
    have tracks := run_tracks m srt ignoreCritical unbound before
    have temp : (run (step m srt ignoreCritical) t before).temp = t.temp := congrArg (·.temp) tracks.still
    have hyst : (run (step m srt ignoreCritical) t before).hyst = t.hyst := congrArg (·.hyst) tracks.still
    have control : (run (step m srt ignoreCritical) t before).controlType = .sequential :=
      (congrArg (·.controlType) tracks.still).trans sequential
    refine ⟨tracks.influence,calls_one m srt control r,?_,?_,?_,calls_silent m srt ignoreCritical⟩
    · intro place called
      obtain ⟨_,applied,reached,first⟩ := activate_spec m srt control called
      exact ⟨(applied_still m tracks.still r).mp applied,temp ▸ reached,first⟩
    · intro place called
      obtain ⟨_,applied,below,_,last⟩ := deactivate_spec m srt control called
      exact ⟨(applied_still m tracks.still r).mp applied,temp ▸ below,last⟩
    · intro held unreleased place called
      obtain ⟨_,_,_,needed,_⟩ := deactivate_spec m srt control called
      have sum := needed (tracks.flag held)
      rw [temp,hyst] at sum
      exact unreleased sum

def fan (place state : Int) : Cdev Int :=
  ⟨place,"Fan","",⟨0,10,state,0,0,1,false,0,0,false,false,Pid.new,false,0,0,0⟩,[]⟩

def fanBinding (place : Nat) (influence : Int) : TripPtCdev :=
  ⟨place,influence,0,0,false,0,invalidPid,Pid.new,false,0,0⟩

def coolingTrip (hyst : Nat) : TripPoint := TripPoint.new 0 .active 50000 hyst 0 3 .sequential

def fanReading (states : Int × Int) (temp : Nat) : Reading Int :=
  ⟨[],[fan 0 states.1,fan 1 states.2],100,3,temp,prefPerformance⟩

def fanNames (place : Nat) : String := if place = 0 then "Fan0" else "Fan1"

-- The second fan has the higher influence; at its maximum it is passed over.
def stackRun : List (Event Int) :=
  [.bind fanNames (fanBinding 0 50),.bind fanNames (fanBinding 1 80),.read (fanReading (0,10) 51000),
    .read (fanReading (4,10) 49500),.read (fanReading (4,10) 48000)]

theorem sequential_trip_is_a_stack_of_two :
    calls Cdev.genSysfs .insertion (run (step Cdev.genSysfs .insertion false) (coolingTrip 1000) (stackRun.take 2))
        (fanReading (0,10) 51000) = [.activate 1] ∧
      Stepwise (Lawful Cdev.genSysfs .insertion false releasedUnsigned (coolingTrip 1000)) stackRun := by
  refine ⟨by decide +kernel,?_⟩
  exact sequential_trip_is_a_stack Cdev.genSysfs .insertion false rfl rfl stackRun

-- A hysteresis of -1000 in the configuration arrives as 4294966296.
theorem negative_hysteresis_releases :
    ¬ Stepwise (Lawful Cdev.genSysfs .insertion false releasedExactly (coolingTrip 4294966296))
      [.bind fanNames (fanBinding 0 50),.read (fanReading (0,0) 50000),.read (fanReading (5,0) 49999)] := by
  intro all
  have law : StackLaw _ _ _ _ _ _ _ _ := all [.bind fanNames (fanBinding 0 50),.read (fanReading (0,0) 50000)]
    (.read (fanReading (5,0) 49999)) [] rfl
  refine law.held ⟨[.bind fanNames (fanBinding 0 50)],fanReading (0,0) 50000,[],rfl,by decide,by decide,?_⟩ ?_ 0 ?_
  · intro later inside
    cases inside
  · unfold releasedExactly
    decide
  · decide +kernel

end ChuwiMinibook.SequentialTrips
