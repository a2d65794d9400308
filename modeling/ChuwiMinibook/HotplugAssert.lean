import ChuwiMinibook.ClaimReplies

namespace ChuwiMinibook.HotplugAssert
open SensorProxy ProxyParts ProxyPolling ClaimReplies Machine

section
variable {R : Type}

-- An event is delayed only for a device that is there.
def Attached (d : SensorData R) : Prop := ∀ t,d.eventDelayed t = true → driverTypeExists d t = true

theorem attached_signalFree : SignalFree (Attached : SensorData R → Prop) := fun _ _ _ _ _ _ _ _ => rfl

def attachedPart (d : SensorData R) : (DriverType → Bool)×(DriverType → Bool) := (d.eventDelayed,driverTypeExists d)

theorem attached_of_same {d d' : SensorData R} (attached : Attached d) (same : attachedPart d' = attachedPart d) :
    Attached d' := by
  obtain ⟨delayed,devices⟩ : d'.eventDelayed = d.eventDelayed ∧ driverTypeExists d' = driverTypeExists d := by
    simpa only [attachedPart,Prod.mk.injEq] using same
  intro t set
  rw [delayed] at set
  rw [devices]
  exact attached t set

theorem cleared_attached {d d' : SensorData R} {u : DriverType} (attached : Attached d)
    (delayed : d'.eventDelayed = Function.update d.eventDelayed u false)
    (others : ∀ t,t ≠ u → d'.sensors t = d.sensors t) : Attached d' := by
  intro t set
  rw [delayed] at set
  by_cases same : t = u
  · subst same
    simp at set
  · rw [Function.update_of_ne same] at set
    rw [driverTypeExists,others t same]
    exact attached t set

theorem finished_attached (u : DriverType) (d : SensorData R) (attached : Attached d) : Attached (finished u d) :=
  cleared_attached attached rfl (fun _ _ => rfl)

theorem markPolled_attached (u : DriverType) (state : Bool) {d : SensorData R} (attached : Attached d) :
    Attached (markPolled u state d) := by
  refine attached_of_same attached ?_
  rw [attachedPart,funext (markPolled_exists u state d)]
  rfl

theorem openSensor_present (driver : Driver) (sysfsPath : String) (d : SensorData R) :
    driverTypeExists (openSensor driver sysfsPath d) driver.type = true := by
  change (Function.update d.sensors driver.type _ driver.type).isSome = true
  simp

theorem openSensor_attached (driver : Driver) (sysfsPath : String) {d : SensorData R} (attached : Attached d) :
    Attached (openSensor driver sysfsPath d) := by
  intro t set
  by_cases same : t = driver.type
  · subst same
    exact openSensor_present driver sysfsPath d
  · change (Function.update d.sensors driver.type _ t).isSome = true
    rw [Function.update_of_ne same]
    exact attached t set

-- The event of a device that has just been opened is delayed.
theorem delayed_attached (driver : Driver) (sysfsPath : String) {d : SensorData R} (attached : Attached d) :
    Attached { openSensor driver sysfsPath d with
      eventDelayed := Function.update d.eventDelayed driver.type true } := by
  intro t set
  by_cases same : t = driver.type
  · subst same
    exact openSensor_present driver sysfsPath d
  · have before : d.eventDelayed t = true := by
      rw [← set]
      exact (Function.update_of_ne same _ _).symm
    exact openSensor_attached driver sysfsPath attached t before

end

section
variable {R : Type} [DecidableEq R]

theorem changed_attached (cfg : Config) (t : DriverType) (readings : Readings R) {d : SensorData R}
    (attached : Attached d) : Attached (changedFunc cfg t readings d) :=
  changed_keeps attached_signalFree (finished_attached t) cfg readings attached

theorem setPolling_attached (cfg : Config) (t : DriverType) (state : Bool) (during : List (Readings R))
    {d : SensorData R} (attached : Attached d) : Attached (driverSetPolling cfg t state during d) :=
  during_keeps attached_signalFree (finished_attached t) cfg during (markPolled_attached t state attached)

theorem release_attached (cfg : Config) (sender : String) (t : DriverType) {d : SensorData R} (attached : Attached d) :
    Attached (clientRelease cfg sender t d) := by
  unfold clientRelease
  split
  · exact attached
  · simp only
    split
    · exact setPolling_attached cfg t false [] (attached_of_same attached rfl)
    · exact attached_of_same attached rfl

theorem vanished_attached (cfg : Config) (name : String) {d : SensorData R} (attached : Attached d) :
    Attached (clientVanishedCb cfg name d) :=
  vanished_keeps (fun _ t => release_attached cfg name t) attached

theorem claim_attached (cfg : Config) (sender : String) (invocation : Nat) (t : DriverType) (during : List (Readings R))
    {d : SensorData R} (attached : Attached d) : Attached (claimSensor cfg sender invocation t during d) := by
  unfold claimSensor
  split
  · exact attached
  · simp only
    split
    · split
      · exact setPolling_attached cfg t true during (attached_of_same attached rfl)
      · split
        · exact attached_of_same attached rfl
        · exact attached_of_same attached rfl
    · exact attached_of_same attached rfl

theorem call_attached (cfg : Config) (call : MethodCall) (during : List (Readings R)) {d : SensorData R}
    (attached : Attached d) : Attached (handleMethodCall cfg call during d) := by
  have counted : Attached { d with calls := d.calls++[call] } := attached_of_same attached rfl
  unfold handleMethodCall
  simp only
  split
  · exact attached_of_same counted rfl
  · rename_i t _
    split
    · exact attached_of_same counted rfl
    · unfold handleGenericMethodCall
      split
      · exact claim_attached cfg call.sender _ t during counted
      · split
        · exact attached_of_same (release_attached cfg call.sender t counted) rfl
        · exact counted

theorem removeSensor_attached (cfg : Config) (t : DriverType) {d : SensorData R} (attached : Attached d) :
    Attached (removeSensor cfg t d) := by
  have stopped := setPolling_attached cfg t false [] attached
  refine attached_signalFree.told _ _ (cleared_attached stopped rfl ?_)
  intro u other
  exact Function.update_of_ne other _ _

theorem removed_attached (cfg : Config) (sysfsPath : String) {d : SensorData R} (attached : Attached d) :
    Attached (sensorRemoved cfg sysfsPath d) :=
  removed_keeps (fun _ t => removeSensor_attached cfg t) (fun _ kept => kept) attached

theorem added_attached (cfg : Config) (device : UdevDevice) (during : List (Readings R)) {d : SensorData R}
    (attached : Attached d) : Attached (sensorAdded cfg device during d) := by
  unfold sensorAdded
  split
  · exact attached
  · rename_i driver _
    have opened := openSensor_attached driver device.sysfsPath attached
    split
    · simp only
      split
      · exact setPolling_attached cfg driver.type true during (delayed_attached driver device.sysfsPath attached)
      · have told : Attached (sendDriverChangedDbusEvent driver.type (openSensor driver device.sysfsPath d)) :=
          attached_signalFree.told _ _ opened
        split
        · exact told
        · exact setPolling_attached cfg driver.type true during told
    · exact attached

theorem step_attached (cfg : Config) (d : SensorData R) (event : Event R) (attached : Attached d) :
    Attached (step cfg d event) := by
  unfold step
  split
  · exact attached
  · cases event with
    | call call during => exact call_attached cfg call during attached
    | vanished name => exact vanished_attached cfg name attached
    | remove sysfsPath => exact removed_attached cfg sysfsPath attached
    | add device during => exact added_attached cfg device during attached
    | reading t readings =>
      simp only
      split
      · exact changed_attached cfg t readings attached
      · exact attached

theorem startSensor_attached (cfg : Config) (devices : List UdevDevice) (during : DriverType → List (Readings R))
    (d : SensorData R) (t : DriverType) (attached : Attached d) : Attached (startSensor cfg devices during d t) := by
  unfold startSensor
  split
  · exact attached
  · rename_i driver device _
    have opened := openSensor_attached driver device.sysfsPath attached
    split
    · simp only
      split
      · exact opened
      · exact setPolling_attached cfg t true (during t) opened
    · exact attached

theorem nameAcquired_attached [Zero R] (cfg : Config) (devices : List UdevDevice)
    (during : DriverType → List (Readings R)) : Attached (nameAcquiredHandler cfg devices during : SensorData R) :=
  nameAcquired_keeps (startSensor_attached cfg devices during) attached_signalFree.told (fun _ kept => kept)
    (fun _ set => Bool.noConfusion set)

-- The add branch of sensor_changes with its assertion: none where the service aborts.
def sensorAddedAsserting (cfg : Config) (device : UdevDevice) (during : List (Readings R)) (data : SensorData R) :
    Option (SensorData R) :=
  match driverFor cfg device data with
  | none => some data
  | some driver =>
    if device.opens driver then
      if (openSensor driver device.sysfsPath data).eventDelayed driver.type then none
      else some (sensorAdded cfg device during data)
    else some data

def stepAsserting (cfg : Config) (data : SensorData R) (event : Event R) : Option (SensorData R) :=
  match event with
  | .add device during => if data.quit then some data else sensorAddedAsserting cfg device during data
  | event => some (step cfg data event)

theorem added_asserting (cfg : Config) (device : UdevDevice) (during : List (Readings R)) {d : SensorData R}
    (attached : Attached d) : sensorAddedAsserting cfg device during d = some (sensorAdded cfg device during d) := by
  unfold sensorAddedAsserting
  cases found : driverFor cfg device d with
  | none => simp [sensorAdded,found]
  | some driver =>
    have absent : driverTypeExists d driver.type = false := driverFor_absent found
    have unset : d.eventDelayed driver.type = false := by
      by_contra set
      have present := attached driver.type (by simpa using set)
      simp [absent] at present
    cases opens : device.opens driver with
    | true => simp [openSensor,unset,opens]
    | false => simp [sensorAdded,found,opens]

theorem step_asserting (cfg : Config) (event : Event R) {d : SensorData R} (attached : Attached d) :
    stepAsserting cfg d event = some (step cfg d event) := by
  cases event with
  | add device during =>
    cases ended : d.quit with
    | true => simp [stepAsserting,step,ended]
    | false => simp [stepAsserting,step,ended,added_asserting cfg device during attached]
  | call call during => rfl
  | vanished name => rfl
  | remove sysfsPath => rfl
  | reading t readings => rfl

theorem run_asserting (cfg : Config) (events : List (Event R)) {d : SensorData R} (attached : Attached d) :
    events.foldlM (stepAsserting cfg) d = some (run (step cfg) d events) := by
  induction events generalizing d with
  | nil => rfl
  | cons event rest ih =>
    rw [List.foldlM_cons,step_asserting cfg event attached]
    exact ih (step_attached cfg d event attached)

theorem hotplug_assertion_unreachable [Zero R] (cfg : Config) (devices : List UdevDevice)
    (during : DriverType → List (Readings R)) (events : List (Event R)) :
    (∀ t,(run (step cfg) (nameAcquiredHandler cfg devices during) events).eventDelayed t = true →
      driverTypeExists (run (step cfg) (nameAcquiredHandler cfg devices during) events) t = true) ∧
    events.foldlM (stepAsserting cfg) (nameAcquiredHandler cfg devices during) =
      some (run (step cfg) (nameAcquiredHandler cfg devices during) events) := by
  have started : Attached (nameAcquiredHandler cfg devices during : SensorData R) :=
    nameAcquired_attached cfg devices during
  refine ⟨?_,run_asserting cfg events started⟩
  exact foldl_keeps (P := Attached) (step_attached cfg) events started

end

end ChuwiMinibook.HotplugAssert
