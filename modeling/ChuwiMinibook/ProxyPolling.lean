import ChuwiMinibook.ClientTables

namespace ChuwiMinibook.ProxyPolling
open SensorProxy ProxyParts Machine
open ClientTables (HasClaimed lookupWatch_zero mem_table_iff table)

section
variable {R : Type}

-- The last argument of driver_set_polling for the device of a type.
def lastPolling (d : SensorData R) (t : DriverType) : Option Bool := (d.sensors t).bind Sensor.polled

def Claimed (d : SensorData R) (t : DriverType) : Prop := (d.clients t).keys ≠ []

def Follows (cfg : Config) (d : SensorData R) (t : DriverType) : Prop :=
  lastPolling d t = some true ↔ driverTypeExists d t = true ∧ (cfg.lazy = false ∨ Claimed d t)

theorem follows_signalFree (cfg : Config) (t : DriverType) : SignalFree (fun d : SensorData R => Follows cfg d t) :=
    fun _ _ _ _ _ _ _ _ => rfl

theorem follows_finished (cfg : Config) (t u : DriverType) (d : SensorData R) (follows : Follows cfg d t) :
    Follows cfg (finished u d) t := follows

-- What Follows looks at for one type.
def slot (d : SensorData R) (t : DriverType) : Option Sensor×List String := (d.sensors t,(d.clients t).keys)

theorem follows_of_slot {cfg : Config} {d d' : SensorData R} {t : DriverType} (same : slot d' t = slot d t)
    (follows : Follows cfg d t) : Follows cfg d' t := by
  obtain ⟨sensors,clients⟩ : d'.sensors t = d.sensors t ∧ (d'.clients t).keys = (d.clients t).keys := by
    simpa only [slot,Prod.mk.injEq] using same
  rw [Follows,lastPolling,driverTypeExists,Claimed,sensors,clients]
  exact follows

theorem follows_absent {cfg : Config} {d : SensorData R} {t : DriverType} (absent : d.sensors t = none) :
    Follows cfg d t := by
  rw [Follows,lastPolling,driverTypeExists,absent]
  exact ⟨nofun,fun given => absurd given.1 (by decide)⟩

theorem markPolled_exists (u : DriverType) (state : Bool) (d : SensorData R) (t : DriverType) :
    driverTypeExists (markPolled u state d) t = driverTypeExists d t := by
  change (Function.update d.sensors u _ t).isSome = (d.sensors t).isSome
  by_cases same : t = u
  · subst same
    rw [Function.update_self,Option.isSome_map]
  · rw [Function.update_of_ne same]

theorem addClient_keys {sender : String} {u : DriverType} {d : SensorData R}
    (unwatched : ¬lookupWatch (d.clients u) sender > 0) :
    ((addClient sender u d).clients u).keys = sender::(d.clients u).keys := by
  have fresh : sender ∉ (d.clients u).keys := lookupWatch_zero.mp (Nat.eq_zero_of_not_pos unwatched)
  change (Function.update d.clients u _ u).keys = _
  rw [Function.update_self,AList.keys_insert,List.erase_of_not_mem fresh]

theorem openSensor_others {cfg : Config} {d : SensorData R} (driver : Driver) (sysfsPath : String)
    (follows : ∀ t,Follows cfg d t) : ∀ t,t ≠ driver.type → Follows cfg (openSensor driver sysfsPath d) t := by
  intro t other
  refine follows_of_slot ?_ (follows t)
  simp only [slot,openSensor,Function.update_of_ne other]

-- Opened, not polled so far, and nobody asks for it.
theorem openSensor_idle {cfg : Config} {d : SensorData R} (driver : Driver) (sysfsPath : String)
    (follows : ∀ t,Follows cfg d t) (isLazy : cfg.lazy = true) (unclaimed : (d.clients driver.type).keys = []) :
    ∀ t,Follows cfg (openSensor driver sysfsPath d) t := by
  intro t
  by_cases same : t = driver.type
  · subst same
    have unpolled : lastPolling (openSensor driver sysfsPath d) driver.type = none := by
      change (Function.update d.sensors driver.type _ driver.type).bind Sensor.polled = none
      rw [Function.update_self]
      rfl
    rw [Follows,unpolled]
    refine ⟨nofun,fun given => ?_⟩
    rcases given.2 with eager | claimed
    · exact absurd (eager.symm.trans isLazy) (by decide)
    · exact absurd unclaimed claimed
  · exact openSensor_others driver sysfsPath follows t same

end

section
variable {R : Type} [DecidableEq R]

-- A call of driver_set_polling with the argument that the clients and the mode ask for.
theorem setPolling_follows (cfg : Config) {d : SensorData R} (u : DriverType) (state : Bool) (during : List (Readings R))
    (others : ∀ t,t ≠ u → Follows cfg d t)
    (wanted : driverTypeExists d u = true → (state = true ↔ cfg.lazy = false ∨ Claimed d u)) :
    ∀ t,Follows cfg (driverSetPolling cfg u state during d) t := by
  intro t
  refine during_keeps (follows_signalFree cfg t) (follows_finished cfg t u) cfg during ?_
  by_cases same : t = u
  · subst same
    cases sensor : d.sensors t with
    | none =>
      refine follows_absent ?_
      change Function.update d.sensors t _ t = none
      rw [Function.update_self,sensor]
      rfl
    | some known =>
      have present : driverTypeExists d t = true := by rw [driverTypeExists,sensor]; rfl
      have marked : (markPolled t state d).sensors t = some { known with polled := some state } := by
        change Function.update d.sensors t _ t = _
        rw [Function.update_self,sensor]
        rfl
      rw [Follows,lastPolling,driverTypeExists,marked]
      change some state = some true ↔ true = true ∧ (cfg.lazy = false ∨ Claimed d t)
      rw [Option.some_inj,wanted present]
      exact ⟨fun given => ⟨rfl,given⟩,And.right⟩
  · refine follows_of_slot ?_ (others t same)
    change (Function.update d.sensors u _ t,(d.clients t).keys) = _
    rw [Function.update_of_ne same]
    rfl

theorem release_follows (cfg : Config) (sender : String) (u : DriverType) {d : SensorData R}
    (follows : ∀ t,Follows cfg d t) : ∀ t,Follows cfg (clientRelease cfg sender u d) t := by
  unfold clientRelease
  by_cases gone : lookupWatch (d.clients u) sender = 0
  · rw [if_pos gone]
    exact follows
  rw [if_neg gone]
  have others : ∀ t,t ≠ u → Follows cfg { d with clients := Function.update d.clients u ((d.clients u).erase sender) } t := by
    intro t other
    refine follows_of_slot ?_ (follows t)
    simp only [slot,Function.update_of_ne other]
  simp only
  split
  · rename_i idle
    simp only [Bool.and_eq_true,decide_eq_true_eq] at idle
    refine setPolling_follows cfg u false [] others (fun _ => ⟨nofun,fun given => ?_⟩)
    rcases given with eager | claimed
    · exact absurd (eager.symm.trans idle.1.1) (by decide)
    · exact absurd (List.length_eq_zero_iff.mp idle.2) claimed
  · rename_i busy
    intro t
    by_cases same : t = u
    · subst same
      have listed : sender ∈ (d.clients t).keys := by
        by_contra absent
        exact gone (lookupWatch_zero.mpr absent)
      have before := follows t
      simp only [Follows,lastPolling,driverTypeExists,Claimed,Function.update_self,Bool.and_eq_true,decide_eq_true_eq,
        not_and] at before busy ⊢
      rw [before]
      refine and_congr_right (fun present => ?_)
      cases mode : cfg.lazy with
      | false => exact ⟨fun _ => .inl rfl,fun _ => .inl rfl⟩
      | true =>
        have remaining := busy ⟨mode,present⟩
        refine ⟨fun _ => .inr (fun empty => remaining (List.length_eq_zero_iff.mpr empty)),fun _ => .inr (fun empty => ?_)⟩
        rw [empty] at listed
        exact absurd listed List.not_mem_nil
    · exact others t same

theorem vanished_follows (cfg : Config) (name : String) {d : SensorData R} (follows : ∀ t,Follows cfg d t) :
    ∀ t,Follows cfg (clientVanishedCb cfg name d) t :=
  vanished_keeps (P := fun d : SensorData R => ∀ t,Follows cfg d t) (fun _ u => release_follows cfg name u) follows

theorem claim_follows (cfg : Config) (sender : String) (invocation : Nat) (u : DriverType) (during : List (Readings R))
    {d : SensorData R} (follows : ∀ t,Follows cfg d t) :
    ∀ t,Follows cfg (claimSensor cfg sender invocation u during d) t := by
  unfold claimSensor
  split
  · exact follows
  · rename_i unwatched
    have keys := addClient_keys unwatched
    have others : ∀ t,t ≠ u → Follows cfg (addClient sender u d) t := by
      intro t other
      refine follows_of_slot ?_ (follows t)
      simp only [slot,addClient,Function.update_of_ne other]
    have claimed : Claimed (addClient sender u d) u := by
      rw [Claimed,keys]
      exact List.cons_ne_nil _ _
    simp only
    split
    · rename_i present
      split
      · exact setPolling_follows cfg u true during others (fun _ => ⟨fun _ => .inr claimed,fun _ => rfl⟩)
      · rename_i more
        have before : Claimed d u := by
          rw [keys,List.length_cons] at more
          intro empty
          exact more (by rw [empty]; rfl)
        have polled : lastPolling d u = some true := (follows u).mpr ⟨present,.inr before⟩
        have all : ∀ t,Follows cfg (addClient sender u d) t := by
          intro t
          by_cases same : t = u
          · subst same
            exact ⟨fun _ => ⟨present,.inr claimed⟩,fun _ => polled⟩
          · exact others t same
        split
        · exact all
        · exact all
    · rename_i absent
      intro t
      by_cases same : t = u
      · subst same
        refine follows_absent ?_
        change d.sensors t = none
        exact Option.not_isSome_iff_eq_none.mp absent
      · exact others t same

theorem call_follows (cfg : Config) (call : MethodCall) (during : List (Readings R)) {d : SensorData R}
    (follows : ∀ t,Follows cfg d t) : ∀ t,Follows cfg (handleMethodCall cfg call during d) t := by
  have counted : ∀ t,Follows cfg { d with calls := d.calls++[call] } t := follows
  unfold handleMethodCall
  simp only
  split
  · exact counted
  · split
    · exact counted
    · unfold handleGenericMethodCall
      split
      · exact claim_follows cfg _ _ _ during counted
      · split
        · exact release_follows cfg _ _ counted
        · exact counted

theorem removeSensor_follows (cfg : Config) (u : DriverType) {d : SensorData R} (follows : ∀ t,Follows cfg d t) :
    ∀ t,Follows cfg (removeSensor cfg u d) t := by
  intro t
  unfold removeSensor
  simp only
  rw [(follows_signalFree cfg t).sendDriverChanged]
  by_cases same : t = u
  · subst same
    exact follows_absent (Function.update_self _ _ _)
  · refine follows_of_slot ?_ (follows t)
    simp only [slot,answerDelayed,driverSetPolling,markPolled,List.foldl_nil,Function.update_of_ne same]

theorem removed_follows (cfg : Config) (sysfsPath : String) {d : SensorData R} (follows : ∀ t,Follows cfg d t) :
    ∀ t,Follows cfg (sensorRemoved cfg sysfsPath d) t :=
  removed_keeps (P := fun d : SensorData R => ∀ t,Follows cfg d t) (fun _ u => removeSensor_follows cfg u)
    (fun _ follows => follows) follows

theorem added_follows (cfg : Config) (device : UdevDevice) (during : List (Readings R)) {d : SensorData R}
    (follows : ∀ t,Follows cfg d t) : ∀ t,Follows cfg (sensorAdded cfg device during d) t := by
  unfold sensorAdded
  split
  · exact follows
  · rename_i driver _
    have others := openSensor_others driver device.sysfsPath follows
    split
    · simp only
      split
      · rename_i clients
        have claimed : Claimed (openSensor driver device.sysfsPath d) driver.type := List.ne_nil_of_length_pos clients
        exact setPolling_follows cfg driver.type true during others (fun _ => ⟨fun _ => .inr claimed,fun _ => rfl⟩)
      · rename_i unclaimed
        have empty : (d.clients driver.type).keys = [] := List.length_eq_zero_iff.mp (Nat.eq_zero_of_not_pos unclaimed)
        split
        · rename_i isLazy
          intro t
          rw [(follows_signalFree cfg t).sendDriverChanged]
          exact openSensor_idle driver device.sysfsPath follows isLazy empty t
        · rename_i eager
          refine setPolling_follows cfg driver.type true during ?_ ?_
          · intro t other
            rw [(follows_signalFree cfg t).sendDriverChanged]
            exact others t other
          · exact fun _ => ⟨fun _ => .inl (Bool.eq_false_iff.mpr eager),fun _ => rfl⟩
    · exact follows

theorem step_follows (cfg : Config) (d : SensorData R) (event : Event R) (follows : ∀ t,Follows cfg d t) :
    ∀ t,Follows cfg (step cfg d event) t := by
  unfold step
  split
  · exact follows
  · cases event with
    | call call during => exact call_follows cfg call during follows
    | vanished name => exact vanished_follows cfg name follows
    | remove sysfsPath => exact removed_follows cfg sysfsPath follows
    | add device during => exact added_follows cfg device during follows
    | reading u readings =>
      simp only
      split
      · exact fun t => changed_keeps (follows_signalFree cfg t) (follows_finished cfg t u) cfg readings (follows t)
      · exact follows

-- The state name_acquired_handler builds up: no table has a client yet.
def Starting (cfg : Config) (d : SensorData R) : Prop := ∀ t,Follows cfg d t ∧ (d.clients t).keys = []

theorem findSensors_type {cfg : Config} {devices : List UdevDevice} {t : DriverType} {found : Driver×UdevDevice}
    (fits : findSensors cfg devices t = some found) : found.1.type = t := by
  have holds := List.find?_some fits
  rw [Bool.and_eq_true,decide_eq_true_eq] at holds
  exact holds.1

theorem startSensor_starting (cfg : Config) (devices : List UdevDevice) (during : DriverType → List (Readings R))
    (d : SensorData R) (t : DriverType) (starting : Starting cfg d) :
    Starting cfg (startSensor cfg devices during d t) := by
  unfold startSensor
  split
  · exact starting
  · rename_i driver device fits
    have type : driver.type = t := findSensors_type fits
    have follows : ∀ u,Follows cfg d u := fun u => (starting u).1
    split
    · simp only
      split
      · rename_i isLazy
        exact fun u => ⟨openSensor_idle driver device.sysfsPath follows isLazy (starting _).2 u,(starting u).2⟩
      · rename_i eager
        have others := openSensor_others driver device.sysfsPath follows
        rw [type] at others
        have polls := setPolling_follows cfg t true (during t) others
          (fun _ => ⟨fun _ => .inl (Bool.eq_false_iff.mpr eager),fun _ => rfl⟩)
        refine fun u => ⟨polls u,?_⟩
        exact during_keeps (P := fun d : SensorData R => (d.clients u).keys = []) (fun _ _ _ _ _ _ _ _ => rfl)
          (fun _ kept => kept) cfg (during t) (starting u).2
    · exact starting

theorem nameAcquired_starting [Zero R] (cfg : Config) (devices : List UdevDevice)
    (during : DriverType → List (Readings R)) : Starting cfg (nameAcquiredHandler cfg devices during : SensorData R) := by
  have initial : Starting cfg (initialData : SensorData R) := fun t => ⟨follows_absent rfl,rfl⟩
  have free : SignalFree (Starting cfg : SensorData R → Prop) := fun _ _ _ _ _ _ _ _ => rfl
  exact nameAcquired_keeps (startSensor_starting cfg devices during) free.told (fun _ starting => starting) initial

theorem run_follows [Zero R] (cfg : Config) (devices : List UdevDevice) (during : DriverType → List (Readings R))
    (events : List (Event R)) : ∀ t,Follows cfg (run (step cfg) (nameAcquiredHandler cfg devices during) events) t :=
  foldl_keeps (P := fun d : SensorData R => ∀ t,Follows cfg d t) (step_follows cfg) events
    (fun t => (nameAcquired_starting cfg devices during t).1)

theorem sensor_polling_follows_claims [Zero R] (cfg : Config) (devices : List UdevDevice)
    (during : DriverType → List (Readings R)) (events : List (Event R)) (t : DriverType) :
    lastPolling (run (step cfg) (nameAcquiredHandler cfg devices during) events) t = some true ↔
      driverTypeExists (run (step cfg) (nameAcquiredHandler cfg devices during) events) t = true ∧
        (cfg.lazy = false ∨ ∃ client,HasClaimed cfg (nameAcquiredHandler cfg devices during) events t client) := by
  have start := nameAcquired_starting (R := R) cfg devices during
  have tables := mem_table_iff cfg (fun u => (start u).2) events t
  have somebody : Claimed (run (step cfg) (nameAcquiredHandler cfg devices during) events) t ↔
      ∃ client,HasClaimed cfg (nameAcquiredHandler cfg devices during) events t client := by
    constructor
    · intro claimed
      obtain ⟨client,listed⟩ := List.exists_mem_of_ne_nil _ claimed
      exact ⟨client,(tables client).mp listed⟩
    · rintro ⟨client,claims⟩
      exact List.ne_nil_of_mem ((tables client).mpr claims)
  have follows := run_follows cfg devices during events t
  rw [Follows,somebody] at follows
  exact follows

end

-- A claim that waits for its device takes effect when the device appears, and goes
-- with it when it is removed.
def waitingService : Config :=
  ⟨true,[⟨"IIO Polling Light sensor",.light⟩,⟨"IIO Buffer accelerometer",.accel⟩],fun _ _ => .normal,fun _ _ => .vertical⟩

def deviceOf (t : DriverType) (sysfsPath : String) : UdevDevice := ⟨sysfsPath,fun driver => driver.type = t,fun _ => true⟩

example :
    let start : SensorData Int := nameAcquiredHandler waitingService [deviceOf .light "/sys/light"] (fun _ => [])
    let plugged : List (Event Int) := [.call ⟨false,":1.7","ClaimAccelerometer",none⟩ [],.add (deviceOf .accel "/sys/accel") []]
    lastPolling (run (step waitingService) start plugged) .accel = some true ∧
      lastPolling (run (step waitingService) start (plugged++[.remove "/sys/accel",.add (deviceOf .accel "/sys/accel") []])) .accel =
        none := by decide +kernel

end ChuwiMinibook.ProxyPolling
