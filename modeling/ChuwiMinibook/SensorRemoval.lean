import ChuwiMinibook.SignalRouting
import ChuwiMinibook.ProxyPolling

namespace ChuwiMinibook.SensorRemoval
open SensorProxy ProxyParts ProxyPolling SignalRouting Machine

section
variable {R : Type}

def caches (d : SensorData R) : OrientationUp×Tilt := (d.previousOrientation,d.previousTilt)

def Forgotten (d : SensorData R) : Prop := driverTypeExists d .accel = false → caches d = (.undefined,.undefined)

-- Sending signals keeps what is cached, or forgets it.
theorem forClient_forgotten (destination : String) (mask : PropertiesMask) {d : SensorData R} (forgotten : Forgotten d) :
    Forgotten (sendDbusEventForClient destination mask d) := by
  unfold sendDbusEventForClient forgetAccel
  split
  · exact fun _ => rfl
  · exact forgotten

theorem sendDbusEvent_forgotten (mask : PropertiesMask) {d : SensorData R} (forgotten : Forgotten d) :
    Forgotten (sendDbusEvent mask d) := by
  unfold sendDbusEvent
  refine foldl_keeps ?_ _ forgotten
  intro d entry forgotten
  exact forClient_forgotten entry.1 entry.2 forgotten

theorem maybeNotify_forgotten (t : DriverType) {d : SensorData R} (forgotten : Forgotten d) :
    Forgotten (maybeNotifySensorStartupFinished t d) := by
  have answered : Forgotten (answerDelayed t .value d) := forgotten
  unfold maybeNotifySensorStartupFinished
  simp only
  split
  · exact sendDbusEvent_forgotten _ answered
  · exact answered

-- A device that is there may report.
def Reporting (t : DriverType) (d : SensorData R) : Prop := Forgotten d ∧ driverTypeExists d t = true

def forgottenPart (d : SensorData R) : Bool×OrientationUp×Tilt := (driverTypeExists d .accel,caches d)

theorem forgotten_of_same {d d' : SensorData R} (forgotten : Forgotten d) (same : forgottenPart d' = forgottenPart d) :
    Forgotten d' := by
  obtain ⟨devices,cached⟩ : driverTypeExists d' .accel = driverTypeExists d .accel ∧ caches d' = caches d := by
    simpa only [forgottenPart,Prod.mk.injEq] using same
  rw [Forgotten,devices,cached]
  exact forgotten

theorem markPolled_forgotten (t : DriverType) (state : Bool) {d : SensorData R} (forgotten : Forgotten d) :
    Forgotten (markPolled t state d) := by
  refine forgotten_of_same forgotten ?_
  rw [forgottenPart,markPolled_exists]
  rfl

theorem openSensor_reporting (driver : Driver) (sysfsPath : String) {d : SensorData R} (forgotten : Forgotten d) :
    Reporting driver.type (openSensor driver sysfsPath d) := by
  have present : driverTypeExists (openSensor driver sysfsPath d) driver.type = true := by
    change (Function.update d.sensors driver.type _ driver.type).isSome = true
    rw [Function.update_self]
    rfl
  refine ⟨fun absent => ?_,present⟩
  by_cases accel : driver.type = .accel
  · rw [accel] at present
    exact absurd (absent.symm.trans present) (by decide)
  · change (Function.update d.sensors driver.type _ .accel).isSome = false at absent
    rw [Function.update_of_ne (Ne.symm accel)] at absent
    exact forgotten absent

end

section
variable {R : Type} [DecidableEq R]

theorem changed_reporting (cfg : Config) (t : DriverType) (readings : Readings R) {d : SensorData R}
    (reporting : Reporting t d) : Reporting t (changedFunc cfg t readings d) := by
  obtain ⟨forgotten,present⟩ := reporting
  have still : driverTypeExists (changedFunc cfg t readings d) t = true := by
    have free : SignalFree (fun d : SensorData R => driverTypeExists d t) := fun _ _ _ _ _ _ _ _ => rfl
    exact (free.changedFunc cfg t readings d).trans present
  refine ⟨?_,still⟩
  cases t with
  | accel => exact fun absent => absurd (absent.symm.trans still) (by decide)
  | light =>
    refine maybeNotify_forgotten .light ?_
    split
    · exact sendDbusEvent_forgotten _ forgotten
    · exact forgotten
  | compass =>
    refine maybeNotify_forgotten .compass ?_
    split
    · exact sendDbusEvent_forgotten _ forgotten
    · exact forgotten
  | proximity =>
    refine maybeNotify_forgotten .proximity ?_
    split
    · exact sendDbusEvent_forgotten _ forgotten
    · exact forgotten

theorem setPolling_forgotten (cfg : Config) (t : DriverType) (state : Bool) (during : List (Readings R))
    {d : SensorData R} (reporting : Reporting t d) : Forgotten (driverSetPolling cfg t state during d) := by
  refine And.left (foldl_keeps (P := Reporting t) (fun d readings => changed_reporting cfg t readings) during ⟨?_,?_⟩)
  · exact markPolled_forgotten t state reporting.1
  · rw [markPolled_exists]
    exact reporting.2

theorem release_forgotten (cfg : Config) (sender : String) (t : DriverType) {d : SensorData R} (forgotten : Forgotten d) :
    Forgotten (clientRelease cfg sender t d) := by
  unfold clientRelease
  split
  · exact forgotten
  · simp only
    split
    · exact markPolled_forgotten t false (forgotten_of_same forgotten rfl)
    · exact forgotten_of_same forgotten rfl

theorem vanished_forgotten (cfg : Config) (name : String) {d : SensorData R} (forgotten : Forgotten d) :
    Forgotten (clientVanishedCb cfg name d) :=
  vanished_keeps (fun _ t => release_forgotten cfg name t) forgotten

theorem claim_forgotten (cfg : Config) (sender : String) (invocation : Nat) (t : DriverType) (during : List (Readings R))
    {d : SensorData R} (forgotten : Forgotten d) : Forgotten (claimSensor cfg sender invocation t during d) := by
  unfold claimSensor
  split
  · exact forgotten
  · simp only
    split
    · rename_i present
      split
      · exact setPolling_forgotten cfg t true during ⟨forgotten_of_same forgotten rfl,present⟩
      · split
        · exact forgotten_of_same forgotten rfl
        · exact forgotten_of_same forgotten rfl
    · exact forgotten_of_same forgotten rfl

theorem call_forgotten (cfg : Config) (call : MethodCall) (during : List (Readings R)) {d : SensorData R}
    (forgotten : Forgotten d) : Forgotten (handleMethodCall cfg call during d) := by
  have counted : Forgotten { d with calls := d.calls++[call] } := forgotten
  unfold handleMethodCall
  simp only
  split
  · exact counted
  · rename_i t _
    split
    · exact counted
    · unfold handleGenericMethodCall
      split
      · exact claim_forgotten cfg call.sender _ t during counted
      · split
        · exact release_forgotten cfg call.sender t counted
        · exact counted

theorem added_forgotten (cfg : Config) (device : UdevDevice) (during : List (Readings R)) {d : SensorData R}
    (forgotten : Forgotten d) : Forgotten (sensorAdded cfg device during d) := by
  unfold sensorAdded
  split
  · exact forgotten
  · rename_i driver _
    have opened := openSensor_reporting driver device.sysfsPath forgotten
    split
    · simp only
      split
      · exact setPolling_forgotten cfg driver.type true during ⟨forgotten_of_same opened.1 rfl,opened.2⟩
      · have told : Reporting driver.type
            (sendDriverChangedDbusEvent driver.type (openSensor driver device.sysfsPath d)) := by
          have free : SignalFree (fun d : SensorData R => driverTypeExists d driver.type) := fun _ _ _ _ _ _ _ _ => rfl
          exact ⟨sendDbusEvent_forgotten _ opened.1,(free.sendDriverChanged _ _).trans opened.2⟩
        split
        · exact told.1
        · exact setPolling_forgotten cfg driver.type true during told
    · exact forgotten

theorem startSensor_forgotten (cfg : Config) (devices : List UdevDevice) (during : DriverType → List (Readings R))
    (d : SensorData R) (t : DriverType) (forgotten : Forgotten d) : Forgotten (startSensor cfg devices during d t) := by
  unfold startSensor
  split
  · exact forgotten
  · rename_i driver device fits
    have type : driver.type = t := findSensors_type fits
    have opened := openSensor_reporting driver device.sysfsPath forgotten
    rw [type] at opened
    split
    · simp only
      split
      · exact opened.1
      · exact setPolling_forgotten cfg t true (during t) opened
    · exact forgotten

theorem nameAcquired_forgotten [Zero R] (cfg : Config) (devices : List UdevDevice)
    (during : DriverType → List (Readings R)) : Forgotten (nameAcquiredHandler cfg devices during : SensorData R) :=
  nameAcquired_keeps (startSensor_forgotten cfg devices during) (fun mask _ => sendDbusEvent_forgotten mask)
    (fun _ forgotten => forgotten) (fun _ => rfl)

end

section
variable {R : Type}

-- A removal forgets nothing: its signals hold no property, and the caches stay.
structure Silent (d d' : SensorData R) : Prop where
  cached : caches d' = caches d
  signalled : ∃ signals,d'.signals = d.signals++signals ∧ ∀ signal ∈ signals,signal.props = []

theorem Silent.refl (d : SensorData R) : Silent d d :=
  ⟨rfl,[],(List.append_nil _).symm,fun _ inside => absurd inside List.not_mem_nil⟩

theorem Silent.trans {d e f : SensorData R} (first : Silent d e) (second : Silent e f) : Silent d f := by
  obtain ⟨before,signalled,empty⟩ := first.signalled
  obtain ⟨after,signalled',empty'⟩ := second.signalled
  refine ⟨second.cached.trans first.cached,before++after,?_,?_⟩
  · rw [signalled',signalled,List.append_assoc]
  · intro signal inside
    rcases List.mem_append.mp inside with early | late
    · exact empty signal early
    · exact empty' signal late

theorem forClient_silent (destination : String) {m : PropertiesMask} (unset : ∀ p,m p ≠ true) (d : SensorData R) :
    Silent d (sendDbusEventForClient destination m d) := by
  have kept : forgetAccel m d = d := by
    rw [forgetAccel,Bool.eq_false_iff.mpr (unset .hasAccelerometer)]
    rfl
  have quiet : propOrder.filter (announced d m) = [] := by
    refine List.filter_eq_nil_iff.mpr (fun p _ set => ?_)
    obtain ⟨q,asked,_⟩ := announced_type set
    exact unset q asked
  refine ⟨?_,[signalFor destination m d],?_,?_⟩
  · change caches (forgetAccel m d) = _
    rw [kept]
  · rfl
  · intro signal inside
    rw [List.mem_singleton.mp inside,signalFor,quiet]
    rfl

-- An event that concerns no client of the types it is about.
theorem unclaimed_silent {mask : PropertiesMask} {d : SensorData R}
    (unclaimed : ∀ p,mask p = true → (d.clients (typeOf p)).keys = []) : Silent d (sendDbusEvent mask d) := by
  have unset : ∀ entry ∈ (interestOf d mask).entries,∀ p,entry.2 p ≠ true := by
    intro entry listed p set
    obtain ⟨asked,claimed⟩ := (entry_flags listed p).mp set
    rw [unclaimed p asked] at claimed
    exact absurd claimed List.not_mem_nil
  unfold sendDbusEvent
  generalize (interestOf d mask).entries = entries at unset
  clear unclaimed
  induction entries generalizing d with
  | nil => exact Silent.refl d
  | cons entry rest ih =>
    have first := forClient_silent entry.1 (unset entry List.mem_cons_self) d
    exact first.trans (ih (fun later listed => unset later (List.mem_cons_of_mem _ listed)))

end

section
variable {R : Type} [DecidableEq R]

theorem hasProperty_type {t : DriverType} {p : Property} (asked : maskOf [hasProperty t] p = true) : typeOf p = t := by
  have same : p = hasProperty t := List.mem_singleton.mp (of_decide_eq_true asked)
  subst same
  cases t <;> rfl

theorem removeSensor_silent (cfg : Config) (t : DriverType) (d : SensorData R) : Silent d (removeSensor cfg t d) := by
  unfold removeSensor sendDriverChangedDbusEvent
  simp only
  refine Silent.trans ⟨?_,[],?_,fun _ inside => absurd inside List.not_mem_nil⟩ (unclaimed_silent ?_)
  · rfl
  · exact (List.append_nil _).symm
  · intro p asked
    rw [hasProperty_type asked]
    change (Function.update d.clients t ∅ t).keys = []
    rw [Function.update_self]
    rfl

theorem removed_silent (cfg : Config) (sysfsPath : String) (d : SensorData R) :
    Silent d (sensorRemoved cfg sysfsPath d) :=
  removed_keeps (P := fun d' => Silent d d') (fun d' t silent => silent.trans (removeSensor_silent cfg t d'))
    (fun _ silent => ⟨silent.cached,silent.signalled⟩) (Silent.refl d)

theorem removeSensor_sensors (cfg : Config) (u : DriverType) (d : SensorData R) :
    (removeSensor cfg u d).sensors = Function.update d.sensors u none := by
  have free : SignalFree (fun d : SensorData R => d.sensors) := fun _ _ _ _ _ _ _ _ => rfl
  refine (free.sendDriverChanged u _).trans ?_
  change Function.update (Function.update d.sensors u _) u none = _
  exact Function.update_idem _ _ _

theorem removed_sensors (cfg : Config) (sysfsPath : String) (types : List DriverType) (d : SensorData R)
    (t : DriverType) :
    (types.foldl (fun data t => if servedFrom sysfsPath data t then removeSensor cfg t data else data) d).sensors t =
      if t ∈ types ∧ servedFrom sysfsPath d t = true then none else d.sensors t := by
  induction types generalizing d with
  | nil => rfl
  | cons u rest ih =>
    rw [List.foldl_cons,ih]
    by_cases served : servedFrom sysfsPath d u = true
    · have sensors := removeSensor_sensors cfg u d
      simp only [served,if_true]
      by_cases same : t = u
      · subst same
        simp only [sensors,Function.update_self,served,List.mem_cons_self,and_self,if_true,ite_self]
      · have still : servedFrom sysfsPath (removeSensor cfg u d) t = servedFrom sysfsPath d t := by
          rw [servedFrom,sensors,Function.update_of_ne same]
          rfl
        simp only [still,sensors,Function.update_of_ne same,List.mem_cons,same,false_or]
    · rw [if_neg served]
      by_cases same : t = u
      · subst same
        rw [if_neg (fun given => served given.2),if_neg (fun given => served given.2)]
      · simp only [List.mem_cons,same,false_or]

theorem removed_exists (cfg : Config) (sysfsPath : String) (d : SensorData R) (t : DriverType) :
    driverTypeExists (sensorRemoved cfg sysfsPath d) t = (driverTypeExists d t && !servedFrom sysfsPath d t) := by
  have listed : t ∈ sensorTypes := by cases t <;> decide
  have closed : driverTypeExists (sensorTypes.foldl
      (fun data t => if servedFrom sysfsPath data t then removeSensor cfg t data else data) d) t =
      (driverTypeExists d t && !servedFrom sysfsPath d t) := by
    rw [driverTypeExists,removed_sensors]
    by_cases served : servedFrom sysfsPath d t = true
    · rw [if_pos ⟨listed,served⟩,served,Bool.not_true,Bool.and_false]
      rfl
    · rw [if_neg (fun given => served given.2),Bool.eq_false_iff.mpr served,Bool.not_false,Bool.and_true]
      rfl
  unfold sensorRemoved
  simp only
  split
  · exact closed
  · exact closed

theorem removed_forgotten_iff (cfg : Config) (sysfsPath : String) {d : SensorData R} (forgotten : Forgotten d) :
    Forgotten (sensorRemoved cfg sysfsPath d) ↔
      (servedFrom sysfsPath d .accel = true → caches d = (.undefined,.undefined)) := by
  rw [Forgotten,removed_exists,(removed_silent cfg sysfsPath d).cached]
  constructor
  · intro after served
    exact after (by rw [served,Bool.not_true,Bool.and_false])
  · intro given absent
    rcases Bool.and_eq_false_iff.mp absent with gone | served
    · exact forgotten gone
    · exact given (by simpa using served)

def hasName : DriverType → String
  | .accel => "HasAccelerometer"
  | .light => "HasAmbientLight"
  | .compass => "HasCompass"
  | .proximity => "HasProximity"

-- Each client of a type the removed device serves is told that the type is gone.
def Announced (cfg : Config) (sysfsPath : String) (d : SensorData R) : Prop :=
  ∀ t,servedFrom sysfsPath d t = true → ∀ client ∈ (d.clients t).keys,
    ∃ signal ∈ (sensorRemoved cfg sysfsPath d).signals.drop d.signals.length,
      signal.destination = client ∧ (hasName t,.boolean false) ∈ signal.props

-- A removed device leaves no client behind, and if it was the accelerometer, nothing cached.
def LeavesNothing (d : SensorData R) : Event R → Prop
  | .remove sysfsPath => d.quit = false →
      (∀ t,servedFrom sysfsPath d t = true → (d.clients t).keys = []) ∧
      (servedFrom sysfsPath d .accel = true → caches d = (.undefined,.undefined))
  | _ => True

def AnnouncedAt (cfg : Config) (d : SensorData R) : Event R → Prop
  | .remove sysfsPath => d.quit = false → Announced cfg sysfsPath d
  | _ => True

theorem announced_iff (cfg : Config) (sysfsPath : String) (d : SensorData R) :
    Announced cfg sysfsPath d ↔ ∀ t,servedFrom sysfsPath d t = true → (d.clients t).keys = [] := by
  obtain ⟨signals,signalled,empty⟩ := (removed_silent cfg sysfsPath d).signalled
  rw [Announced,signalled,List.drop_left]
  constructor
  · intro told t served
    refine List.eq_nil_iff_forall_not_mem.mpr (fun client claimed => ?_)
    obtain ⟨signal,inside,_,listed⟩ := told t served client claimed
    rw [empty signal inside] at listed
    exact absurd listed List.not_mem_nil
  · intro unclaimed t served client claimed
    rw [unclaimed t served] at claimed
    exact absurd claimed List.not_mem_nil

theorem step_forgotten (cfg : Config) (d : SensorData R) (event : Event R) (forgotten : Forgotten d)
    (kept : ∀ sysfsPath,event = .remove sysfsPath → d.quit = false →
      servedFrom sysfsPath d .accel = true → caches d = (.undefined,.undefined)) :
    Forgotten (step cfg d event) := by
  unfold step
  split
  · exact forgotten
  · rename_i running
    cases event with
    | call call during => exact call_forgotten cfg call during forgotten
    | vanished name => exact vanished_forgotten cfg name forgotten
    | remove sysfsPath =>
      have unquit : d.quit = false := Bool.eq_false_iff.mpr running
      exact (removed_forgotten_iff cfg sysfsPath forgotten).mpr (kept sysfsPath rfl unquit)
    | add device during => exact added_forgotten cfg device during forgotten
    | reading t readings =>
      simp only
      split
      · rename_i present
        exact (changed_reporting cfg t readings ⟨forgotten,present⟩).1
      · exact forgotten

-- One step: what is announced and forgotten is what the condition on the event says.
theorem leavesNothing_iff (cfg : Config) {d : SensorData R} (forgotten : Forgotten d) (event : Event R) :
    LeavesNothing d event ↔ AnnouncedAt cfg d event ∧ Forgotten (step cfg d event) := by
  cases event with
  | remove sysfsPath =>
    cases ended : d.quit with
    | true =>
      have idle : step cfg d (.remove sysfsPath) = d := by rw [step,ended,if_pos rfl]
      rw [idle]
      exact ⟨fun _ => ⟨fun running => absurd (ended.symm.trans running) (by decide),forgotten⟩,
        fun _ running => absurd (ended.symm.trans running) (by decide)⟩
    | false =>
      have moved : step cfg d (.remove sysfsPath) = sensorRemoved cfg sysfsPath d := by
        rw [step,ended]
        rfl
      rw [moved,removed_forgotten_iff cfg sysfsPath forgotten]
      change (d.quit = false → _) ↔ (d.quit = false → Announced cfg sysfsPath d) ∧ _
      rw [ended,announced_iff]
      exact ⟨fun given => ⟨fun _ => (given rfl).1,(given rfl).2⟩,fun given _ => ⟨given.1 rfl,given.2⟩⟩
  | call call during => exact ⟨fun _ => ⟨trivial,step_forgotten cfg d _ forgotten nofun⟩,fun _ => trivial⟩
  | vanished name => exact ⟨fun _ => ⟨trivial,step_forgotten cfg d _ forgotten nofun⟩,fun _ => trivial⟩
  | add device during => exact ⟨fun _ => ⟨trivial,step_forgotten cfg d _ forgotten nofun⟩,fun _ => trivial⟩
  | reading t readings => exact ⟨fun _ => ⟨trivial,step_forgotten cfg d _ forgotten nofun⟩,fun _ => trivial⟩

theorem removal_announced_and_forgotten_iff [Zero R] (cfg : Config) (devices : List UdevDevice)
    (during : DriverType → List (Readings R)) (events : List (Event R)) :
    ((∀ first rest,events = first++rest → Forgotten (run (step cfg) (nameAcquiredHandler cfg devices during) first)) ∧
      ∀ first sysfsPath rest,events = first++.remove sysfsPath::rest →
        (run (step cfg) (nameAcquiredHandler cfg devices during) first).quit = false →
          Announced cfg sysfsPath (run (step cfg) (nameAcquiredHandler cfg devices during) first)) ↔
      Meets (step cfg) LeavesNothing (nameAcquiredHandler cfg devices during) events := by
  constructor
  · rintro ⟨forgotten,announced⟩
    refine meets_iff_stepwise.mpr (fun first event rest split => ?_)
    refine (leavesNothing_iff cfg (forgotten first (event::rest) split) event).mpr ⟨?_,?_⟩
    · cases event with
      | remove sysfsPath => exact announced first sysfsPath rest split
      | call call during => trivial
      | vanished name => trivial
      | add device during => trivial
      | reading t readings => trivial
    · have after := forgotten (first++[event]) rest (by rw [split,List.append_assoc,List.singleton_append])
      rw [run_snoc] at after
      exact after
  · intro meets
    have forgotten : ∀ first rest,events = first++rest →
        Forgotten (run (step cfg) (nameAcquiredHandler cfg devices during) first) := by
      rintro first rest rfl
      refine run_invariant ?_ (nameAcquired_forgotten cfg devices during) (meets_append.mp meets).1
      exact fun d event forgotten leaves => ((leavesNothing_iff cfg forgotten event).mp leaves).2
    refine ⟨forgotten,fun first sysfsPath rest split => ?_⟩
    have leaves := meets_iff_stepwise.mp meets first (.remove sysfsPath) rest split
    exact ((leavesNothing_iff cfg (forgotten first _ split) (.remove sysfsPath)).mp leaves).1

end

-- An accelerometer and a light sensor, both polled from the start.
def accelDriver : Driver := ⟨"IIO Buffer accelerometer",.accel⟩

def lightDriver : Driver := ⟨"IIO Polling Light sensor",.light⟩

def eagerConfig : Config := ⟨false,[accelDriver,lightDriver],fun _ _ => .normal,fun _ _ => .vertical⟩

def accelDevice : UdevDevice := ⟨"/sys/bus/iio/devices/iio:device0",fun driver => driver = accelDriver,fun _ => true⟩

def lightDevice : UdevDevice := ⟨"/sys/bus/iio/devices/iio:device1",fun driver => driver = lightDriver,fun _ => true⟩

def flatReadings : Readings Int := ⟨⟨0,0,256,1⟩,0,true,0,0⟩

-- A client claims the accelerometer, which reports once; then it is unplugged.
def unplugged : List (Event Int) := [.call ⟨false,":1.7","ClaimAccelerometer",none⟩ [],.reading .accel flatReadings]

def beforeRemoval : SensorData Int := run (step eagerConfig)
    (nameAcquiredHandler eagerConfig [accelDevice,lightDevice] (fun _ => [])) unplugged

theorem accel_removal_untold_and_remembered :
    beforeRemoval.quit = false ∧ servedFrom accelDevice.sysfsPath beforeRemoval .accel = true ∧
      ":1.7" ∈ (beforeRemoval.clients .accel).keys ∧
      (step eagerConfig beforeRemoval (.remove accelDevice.sysfsPath)).signals = beforeRemoval.signals ∧
      ¬Announced eagerConfig accelDevice.sysfsPath beforeRemoval ∧
      driverTypeExists (step eagerConfig beforeRemoval (.remove accelDevice.sysfsPath)) .accel = false ∧
      (step eagerConfig beforeRemoval (.remove accelDevice.sysfsPath)).previousOrientation = .normal := by
  have served : servedFrom accelDevice.sysfsPath beforeRemoval .accel = true := by decide +kernel
  have claimed : ":1.7" ∈ (beforeRemoval.clients .accel).keys := by decide +kernel
  have unmoved : (sensorRemoved eagerConfig accelDevice.sysfsPath beforeRemoval).signals = beforeRemoval.signals := by
    decide +kernel
  refine ⟨by decide +kernel,served,claimed,by decide +kernel,?_,by decide +kernel,by decide +kernel⟩
  intro announced
  obtain ⟨signal,told,_⟩ := announced .accel served ":1.7" claimed
  rw [unmoved,List.drop_length] at told
  exact absurd told List.not_mem_nil

end ChuwiMinibook.SensorRemoval
