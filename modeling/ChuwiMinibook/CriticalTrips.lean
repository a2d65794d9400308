import ChuwiMinibook.Machine
import ChuwiMinibook.Streak
import ChuwiMinibook.TripPoint

namespace ChuwiMinibook.CriticalTrips
open TripPoint Machine Streak

variable {σ : Type} (m : Cdev.Methods σ) (srt : StdSort)

-- One reading as it reaches a trip, with everything around it free to change
-- between two readings.
structure Reading (σ : Type) where
  sensors : List Sensor
  devs : List (Cdev σ)
  now : Int
  id : Int
  temp : Nat
  pref : Int

def check (t : TripPoint) (r : Reading σ) : Checked σ :=
  thdTripPointCheck m srt false r.sensors t r.devs r.now r.id r.temp r.pref

def next (t : TripPoint) (r : Reading σ) : TripPoint := (check m srt t r).trip

def taken (t : TripPoint) (r : Reading σ) : List Action := (check m srt t r).actions

def Relevant (t : TripPoint) (r : Reading σ) : Prop := t.sensorId = defaultSensorId ∨ t.sensorId = r.id

def Reached (t : TripPoint) (r : Reading σ) : Prop := t.temp ≤ r.temp

instance (t : TripPoint) (r : Reading σ) : Decidable (Relevant t r) :=
  inferInstanceAs (Decidable (t.sensorId = defaultSensorId ∨ t.sensorId = r.id))

instance (t : TripPoint) (r : Reading σ) : Decidable (Reached t r) := inferInstanceAs (Decidable (t.temp ≤ r.temp))

-- A relevant reading extends the group unless it is below the trip or the
-- action was taken at it.
def mark (t : TripPoint) (r : Reading σ) : List Bool :=
  if Relevant t r then [decide (Reached t r ∧ taken m srt t r = [])] else []

def marks (t : TripPoint) (readings : List (Reading σ)) : List Bool := observed (next m srt) (mark m srt) t readings

-- The reading is the fifth since the last one below the trip or the last action.
def Fifth (t : TripPoint) (before : List (Reading σ)) (r : Reading σ) : Prop :=
  Relevant t r ∧ Reached t r ∧ streak true (marks m srt t before)+1 = 5

instance (t : TripPoint) (before : List (Reading σ)) (r : Reading σ) : Decidable (Fifth m srt t before r) :=
  inferInstanceAs (Decidable (Relevant t r ∧ Reached t r ∧ streak true (marks m srt t before)+1 = 5))

def emergencyAction (type : TripPointType) : Action := if type = .critical then .powerOff else .suspend

-- A critical or hot trip without dependency.
structure Emergency (t : TripPoint) : Prop where
  type : t.type = .critical ∨ t.type = .hot
  free : t.dependCdev = none

def counted (t : TripPoint) (count : Nat) : TripPoint := {t with critTripCount := count}

theorem emergency_counted {t : TripPoint} (given : Emergency t) (count : Nat) : Emergency (counted t count) :=
  ⟨given.type,given.free⟩

theorem not_invalid {t : TripPoint} (given : Emergency t) : t.type ≠ .invalidTripType := by
  cases given.type with
  | inl critical => simp [critical]
  | inr hot => simp [hot]

theorem not_polling {t : TripPoint} (given : Emergency t) : t.type ≠ .polling := by
  cases given.type with
  | inl critical => simp [critical]
  | inr hot => simp [hot]

theorem dependency_free {t : TripPoint} (given : Emergency t) (r : Reading σ) :
    dependencyMet m t r.devs r.temp = true := by
  unfold dependencyMet
  rw [given.free]

theorem not_applied {t : TripPoint} (given : Emergency t) (pref : Int) : applies pref t.type = false := by
  unfold applies
  cases given.type with
  | inl critical => simp [critical]
  | inr hot => simp [hot]

theorem check_irrelevant {t : TripPoint} (given : Emergency t) (r : Reading σ) (other : ¬ Relevant t r) :
    check m srt t r = ⟨t,r.devs,[],false,false⟩ := by
  obtain ⟨notDefault,notOwn⟩ := not_or.mp other
  unfold check thdTripPointCheck
  rw [if_neg (not_invalid given),dependency_free m given r,if_neg (by decide),if_pos ⟨notDefault,notOwn⟩]

theorem check_reached {t : TripPoint} (given : Emergency t) (r : Reading σ) (own : Relevant t r) (reached : Reached t r) :
    check m srt t r = checkCritical t r.devs (emergencyAction t.type) := by
  have passed : ¬ (t.sensorId ≠ defaultSensorId ∧ t.sensorId ≠ r.id) := fun other => own.elim other.1 other.2
  unfold check thdTripPointCheck
  rw [if_neg (not_invalid given),dependency_free m given r,if_neg (by decide),if_neg passed]
  cases given.type with
  | inl critical =>
    rw [if_pos ⟨critical,rfl,reached⟩,critical]
    rfl
  | inr hot =>
    rw [if_neg (by simp [hot]),if_pos ⟨hot,rfl,reached⟩,hot]
    rfl

theorem check_below {t : TripPoint} (given : Emergency t) (r : Reading σ) (own : Relevant t r) (below : ¬ Reached t r) :
    check m srt t r = ⟨counted t 0,r.devs,[],false,false⟩ := by
  have passed : ¬ (t.sensorId ≠ defaultSensorId ∧ t.sensorId ≠ r.id) := fun other => own.elim other.1 other.2
  have applied := not_applied given r.pref
  unfold check thdTripPointCheck
  rw [if_neg (not_invalid given),dependency_free m given r,if_neg (by decide),if_neg passed,
    if_neg (fun all => below all.2.2),if_neg (fun all => below all.2.2),if_pos given.type]
  dsimp only
  rw [if_neg (fun both => not_polling given both.1),applied]
  rfl

-- One reading: what is done and what becomes of the counter.
theorem step_taken {t : TripPoint} (given : Emergency t) (few : t.critTripCount ≤ 4) (r : Reading σ) :
    taken m srt t r = if Relevant t r ∧ Reached t r ∧ t.critTripCount+1 = 5 then [emergencyAction t.type] else [] := by
  unfold taken
  by_cases own : Relevant t r
  · by_cases reached : Reached t r
    · rw [check_reached m srt given r own reached]
      unfold checkCritical consecutiveCriticalEvents
      by_cases early : t.critTripCount < 4
      · rw [if_pos early,if_neg (by omega)]
      · rw [if_neg early,if_pos ⟨own,reached,by omega⟩]
    · rw [check_below m srt given r own reached,if_neg (fun all => reached all.2.1)]
  · rw [check_irrelevant m srt given r own,if_neg (fun all => own all.1)]

theorem step_next {t : TripPoint} (given : Emergency t) (few : t.critTripCount ≤ 4) (r : Reading σ) :
    next m srt t r = counted t (if Relevant t r then
      if Reached t r ∧ taken m srt t r = [] then t.critTripCount+1 else 0 else t.critTripCount) := by
  have acted := step_taken m srt given few r
  unfold next
  by_cases own : Relevant t r
  · rw [if_pos own]
    by_cases reached : Reached t r
    · rw [check_reached m srt given r own reached]
      unfold checkCritical consecutiveCriticalEvents
      by_cases early : t.critTripCount < 4
      · rw [if_neg (by omega)] at acted
        rw [if_pos early,if_pos ⟨reached,acted⟩]
        rfl
      · rw [if_pos ⟨own,reached,by omega⟩] at acted
        rw [if_neg early,if_neg (by simp [acted])]
        rfl
    · rw [check_below m srt given r own reached,if_neg (fun all => reached all.1)]
  · rw [check_irrelevant m srt given r own,if_neg own]
    rfl

theorem streak_mark (t : TripPoint) (r : Reading σ) (xs : List Bool) :
    streak true (xs++mark m srt t r) = if Relevant t r then
      if Reached t r ∧ taken m srt t r = [] then streak true xs+1 else 0 else streak true xs := by
  unfold mark
  by_cases own : Relevant t r
  · rw [if_pos own,if_pos own,streak_snoc]
    exact if_congr decide_eq_true_iff rfl rfl
  · rw [if_neg own,if_neg own,List.append_nil]

theorem marks_snoc (t : TripPoint) (readings : List (Reading σ)) (r : Reading σ) :
    marks m srt t (readings++[r]) = marks m srt t readings++mark m srt (run (next m srt) t readings) r :=
  observed_snoc _ _ _ _ _

-- The group grows to four at most: a fifth reading takes the action.
theorem group_few {t : TripPoint} (given : Emergency t) (few : t.critTripCount ≤ 4) (r : Reading σ) :
    (next m srt t r).critTripCount ≤ 4 := by
  have acted := step_taken m srt given few r
  rw [step_next m srt given few r]
  change (if Relevant t r then if Reached t r ∧ taken m srt t r = [] then t.critTripCount+1 else 0
    else t.critTripCount) ≤ 4
  by_cases own : Relevant t r
  · rw [if_pos own]
    by_cases grows : Reached t r ∧ taken m srt t r = []
    · rw [if_pos grows]
      by_cases last : t.critTripCount+1 = 5
      · rw [if_pos ⟨own,grows.1,last⟩,grows.2] at acted
        cases acted
      · omega
    · rw [if_neg grows]
      exact Nat.zero_le 4
  · rw [if_neg own]
    exact few

-- Over a run the counter is the size of the group so far.
theorem run_counted {t : TripPoint} (given : Emergency t) (fresh : t.critTripCount = 0) (readings : List (Reading σ)) :
    run (next m srt) t readings = counted t (streak true (marks m srt t readings)) ∧
      streak true (marks m srt t readings) ≤ 4 := by
  induction readings using List.reverseRecOn with
  | nil =>
    refine ⟨?_,Nat.zero_le 4⟩
    cases t
    cases fresh
    rfl
  | append_singleton readings r ih =>
    rw [run_snoc,marks_snoc,streak_mark]
    obtain ⟨state,few⟩ := ih
    generalize streak true (marks m srt t readings) = size at state few ⊢
    have stepped := step_next m srt (emergency_counted given size) few r
    have bounded := group_few m srt (emergency_counted given size) few r
    rw [stepped] at bounded
    rw [state]
    exact ⟨stepped,bounded⟩

theorem emergency_action_exactly_fifth {t : TripPoint} (given : Emergency t) (fresh : t.critTripCount = 0)
    (readings : List (Reading σ)) :
    Stepwise (fun before r => taken m srt (run (next m srt) t before) r =
      if Fifth m srt t before r then [emergencyAction t.type] else []) readings := by
  intro before r after _
  obtain ⟨state,few⟩ := run_counted m srt given fresh before
  have acted := step_taken m srt (emergency_counted given (streak true (marks m srt t before))) few r
  rw [state]
  exact acted

def criticalTrip : TripPoint := TripPoint.new 0 .critical 100000 1000 0 defaultSensorId .parallel

def hotReading : Reading Unit := ⟨[],[],0,3,101000,0⟩

theorem emergency_action_power_off :
    Fifth Cdev.base .insertion criticalTrip (List.replicate 4 hotReading) hotReading ∧
      Stepwise (fun before r => taken Cdev.base .insertion (run (next Cdev.base .insertion) criticalTrip before) r =
        if Fifth Cdev.base .insertion criticalTrip before r then [emergencyAction criticalTrip.type] else [])
        (List.replicate 12 hotReading) := by
  refine ⟨by decide,?_⟩
  exact emergency_action_exactly_fifth Cdev.base .insertion ⟨.inl rfl,rfl⟩ rfl _

end ChuwiMinibook.CriticalTrips
