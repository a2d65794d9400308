import ChuwiMinibook.SensorProxy
import ChuwiMinibook.Machine

namespace ChuwiMinibook.ProxyParts
open SensorProxy Machine

section
variable {R α : Type}

-- A part of the service that sending signals leaves alone.
def SignalFree (part : SensorData R → α) : Prop :=
  ∀ (d : SensorData R) (orientation : OrientationUp) (tilt : Tilt) (level : R) (lux : Bool) (heading : R) (near : Bool)
    (signals : List (Signal R)),
    part { d with
      previousOrientation := orientation,previousTilt := tilt,previousLevel := level,usesLux := lux,previousHeading := heading,
      previousProxNear := near,signals := signals } = part d

theorem SignalFree.sendDbusEventForClient {part : SensorData R → α} (free : SignalFree part) (destination : String)
    (mask : PropertiesMask) (d : SensorData R) : part (sendDbusEventForClient destination mask d) = part d := by
  unfold SensorProxy.sendDbusEventForClient forgetAccel
  split <;> exact free d _ _ _ _ _ _ _

theorem SignalFree.sendDbusEvent {part : SensorData R → α} (free : SignalFree part) (mask : PropertiesMask)
    (d : SensorData R) : part (sendDbusEvent mask d) = part d := by
  unfold SensorProxy.sendDbusEvent
  generalize (interestOf d mask).entries = entries
  induction entries generalizing d with
  | nil => rfl
  | cons entry rest ih => exact (ih _).trans (free.sendDbusEventForClient _ _ d)

theorem SignalFree.told {P : SensorData R → Prop} (free : SignalFree P) (mask : PropertiesMask) (d : SensorData R)
    (holds : P d) : P (SensorProxy.sendDbusEvent mask d) := by
  rw [free.sendDbusEvent]
  exact holds

theorem SignalFree.sendDriverChanged {part : SensorData R → α} (free : SignalFree part) (t : DriverType)
    (d : SensorData R) :
    part (sendDriverChangedDbusEvent t d) = part d := free.sendDbusEvent _ d

-- What a reading does apart from signals: the replies that waited for it are given.
def finished (t : DriverType) (d : SensorData R) : SensorData R :=
  { answerDelayed t .value d with eventDelayed := Function.update d.eventDelayed t false }

theorem SignalFree.finished {part : SensorData R → α} (free : SignalFree part) (t : DriverType) :
    SignalFree (fun d => part (finished t d)) := fun d _ _ _ _ _ _ _ => free (ProxyParts.finished t d) _ _ _ _ _ _ _

theorem SignalFree.maybeNotify {part : SensorData R → α} (free : SignalFree part) (t : DriverType) (d : SensorData R) :
    part (maybeNotifySensorStartupFinished t d) = part (ProxyParts.finished t d) := by
  unfold maybeNotifySensorStartupFinished
  simp only
  split
  · have after : SignalFree (fun d : SensorData R =>
        part { d with eventDelayed := Function.update d.eventDelayed t false }) :=
      fun d _ _ _ _ _ _ _ => free { d with eventDelayed := Function.update d.eventDelayed t false } _ _ _ _ _ _ _
    exact after.sendDriverChanged t (answerDelayed t .value d)
  · rename_i quiet
    have unset : d.eventDelayed t = false := Bool.eq_false_iff.mpr quiet
    have same : Function.update d.eventDelayed t false = d.eventDelayed := by
      rw [← unset]
      exact Function.update_eq_self t _
    unfold ProxyParts.finished
    rw [same]
    rfl

theorem SignalFree.orientationChanged {part : SensorData R → α} (free : SignalFree part) (cfg : Config)
    (readings : Readings R) (d : SensorData R) : part (orientationChanged cfg readings d) = part d := by
  unfold SensorProxy.orientationChanged
  simp only
  split
  · exact (free.sendDbusEvent _ _).trans (free d _ _ _ _ _ _ _)
  · rfl

theorem SignalFree.tiltChanged {part : SensorData R → α} (free : SignalFree part) (cfg : Config) (readings : Readings R)
    (d : SensorData R) : part (tiltChanged cfg readings d) = part d := by
  unfold SensorProxy.tiltChanged
  simp only
  split
  · exact (free.sendDbusEvent _ _).trans (free d _ _ _ _ _ _ _)
  · rfl

variable [DecidableEq R]

theorem SignalFree.changedFunc {part : SensorData R → α} (free : SignalFree part) (cfg : Config) (t : DriverType)
    (readings : Readings R) (d : SensorData R) : part (changedFunc cfg t readings d) = part (ProxyParts.finished t d) := by
  have after := free.finished t
  cases t with
  | accel =>
    refine (free.maybeNotify .accel _).trans ?_
    exact (after.tiltChanged cfg readings _).trans (after.orientationChanged cfg readings d)
  | light =>
    unfold SensorProxy.changedFunc lightChangedFunc
    simp only
    rw [free.maybeNotify]
    split
    · exact (after.sendDbusEvent _ _).trans (after d _ _ _ _ _ _ _)
    · rfl
  | compass =>
    unfold SensorProxy.changedFunc compassChangedFunc
    simp only
    rw [free.maybeNotify]
    split
    · exact (after.sendDbusEvent _ _).trans (after d _ _ _ _ _ _ _)
    · rfl
  | proximity =>
    unfold SensorProxy.changedFunc proximityChangedFunc
    simp only
    rw [free.maybeNotify]
    split
    · exact (after.sendDbusEvent _ _).trans (after d _ _ _ _ _ _ _)
    · rfl

-- A property that signals and finished start-ups keep holds behind any number of readings.
theorem changed_keeps {P : SensorData R → Prop} (free : SignalFree P) {t : DriverType}
    (kept : ∀ d : SensorData R,P d → P (finished t d)) (cfg : Config) (readings : Readings R) {d : SensorData R}
    (holds : P d) : P (changedFunc cfg t readings d) := by
  rw [free.changedFunc]
  exact kept d holds

theorem during_keeps {P : SensorData R → Prop} (free : SignalFree P) {t : DriverType}
    (kept : ∀ d : SensorData R,P d → P (finished t d)) (cfg : Config) (during : List (Readings R)) {d : SensorData R}
    (holds : P d) : P (during.foldl (fun d readings => changedFunc cfg t readings d) d) := by
  induction during generalizing d with
  | nil => exact holds
  | cons readings rest ih => exact ih (changed_keeps free kept cfg readings holds)

-- What every release of a client keeps, its disappearance keeps, and so on for the other
-- handlers that go over all types.
theorem vanished_keeps {P : SensorData R → Prop} {cfg : Config} {name : String}
    (kept : ∀ d t,P d → P (clientRelease cfg name t d)) {d : SensorData R} (holds : P d) :
    P (clientVanishedCb cfg name d) := by
  refine foldl_keeps ?_ sensorTypes holds
  intro d t holds
  by_cases watched : lookupWatch (d.clients t) name > 0
  · rw [if_pos watched]
    exact kept d t holds
  · rw [if_neg watched]
    exact holds

theorem removed_keeps {P : SensorData R → Prop} {cfg : Config} {sysfsPath : String}
    (kept : ∀ d t,P d → P (removeSensor cfg t d)) (ended : ∀ d,P d → P { d with quit := true }) {d : SensorData R}
    (holds : P d) : P (sensorRemoved cfg sysfsPath d) := by
  have closed : P (sensorTypes.foldl
      (fun data t => if servedFrom sysfsPath data t then removeSensor cfg t data else data) d) := by
    refine foldl_keeps ?_ sensorTypes holds
    intro d t holds
    by_cases served : servedFrom sysfsPath d t = true
    · rw [if_pos served]
      exact kept d t holds
    · rw [if_neg served]
      exact holds
  unfold sensorRemoved
  simp only
  split
  · exact closed
  · exact ended _ closed

theorem nameAcquired_keeps [Zero R] {P : SensorData R → Prop} {cfg : Config} {devices : List UdevDevice}
    {during : DriverType → List (Readings R)} (started : ∀ d t,P d → P (startSensor cfg devices during d t))
    (told : ∀ mask d,P d → P (sendDbusEvent mask d)) (ended : ∀ d,P d → P { d with quit := true })
    (initial : P initialData) :
    P (nameAcquiredHandler cfg devices during) := by
  have opened : P (sensorTypes.foldl (startSensor cfg devices during) initialData) := foldl_keeps started sensorTypes initial
  unfold nameAcquiredHandler
  simp only
  split
  · exact told _ _ (told _ _ opened)
  · exact ended _ opened

end

end ChuwiMinibook.ProxyParts
