import ChuwiMinibook.PolledDrivers
import ChuwiMinibook.PollTimer

namespace ChuwiMinibook.PromptReadings
open PolledDrivers DeviceParts MainLoop Machine
open Mxc6655 (mxc6655SetPolling)

-- What set_polling(TRUE) owes a claim: a reading during the call, or a timer that reads.
def Prompt {Reading : Type} (before after : List Reading) (timers : List Nat) : Prop :=
  before.length < after.length ∨ timers ≠ []

section
variable {Priv Reading Read : Type}

-- The identifier of the timer names exactly the read timers.
def TimerWired (d : Polled Priv Reading) : Prop := Names d.loop .readTimer d.timeoutId

theorem opened_wired (priv : Priv) : TimerWired (opened priv : Polled Priv Reading) := ⟨rfl,Nat.le_refl _⟩

theorem start_wired (hooks : Hooks Priv) {d : Polled Priv Reading} (wired : TimerWired d) (unset : d.timeoutId = 0) :
    TimerWired (startTimer hooks d) := by
  rw [TimerWired,unset] at wired
  exact names_add wired

-- A read only passes readings on.
def Passes (read : Polled Priv Reading → Polled Priv Reading) : Prop :=
  ∀ d,∃ readings,read d = { d with delivered := d.delivered++readings }

theorem passes_wired {read : Polled Priv Reading → Polled Priv Reading} (passes : Passes read) {d : Polled Priv Reading}
    (wired : TimerWired d) : TimerWired (read d) := by
  obtain ⟨readings,passed⟩ := passes d
  rw [passed]
  exact wired

theorem passes_none (d : Polled Priv Reading) : ∃ readings,d = { d with delivered := d.delivered++readings } :=
  ⟨[],by rw [List.append_nil]⟩

theorem passes_one (readings : Reading) (d : Polled Priv Reading) :
    ∃ all,d.callback readings = { d with delivered := d.delivered++all } := ⟨[readings],rfl⟩

-- The two early returns, the stop, and the start.
theorem setPollingWith_cases (hooks : Hooks Priv) (read : Polled Priv Reading → Polled Priv Reading) (state : Bool)
    (d : Polled Priv Reading) :
    (state = true ∧ d.timeoutId ≠ 0 ∧ setPollingWith hooks read state d = d) ∨
    (state = false ∧ d.timeoutId = 0 ∧ setPollingWith hooks read state d = d) ∨
    (state = false ∧ d.timeoutId ≠ 0 ∧ setPollingWith hooks read state d = stopTimer hooks d) ∨
    (state = true ∧ d.timeoutId = 0 ∧
      setPollingWith hooks read state d = if hooks.timed d.priv then read (startTimer hooks d) else d) := by
  unfold setPollingWith
  cases state with
  | true =>
    by_cases unset : d.timeoutId = 0
    · refine .inr (.inr (.inr ⟨rfl,unset,?_⟩))
      simp [unset]
    · refine .inl ⟨rfl,unset,?_⟩
      rw [if_pos ⟨Nat.pos_of_ne_zero unset,rfl⟩]
  | false =>
    by_cases unset : d.timeoutId = 0
    · refine .inr (.inl ⟨rfl,unset,?_⟩)
      simp [unset]
    · refine .inr (.inr (.inl ⟨rfl,unset,?_⟩))
      simp [unset]

theorem setPollingWith_wired (hooks : Hooks Priv) {read : Polled Priv Reading → Polled Priv Reading}
    (passes : Passes read) (state : Bool) {d : Polled Priv Reading} (wired : TimerWired d) :
    TimerWired (setPollingWith hooks read state d) := by
  rcases setPollingWith_cases hooks read state d with ⟨_,_,same⟩ | ⟨_,_,same⟩ | ⟨_,_,stopped⟩ | ⟨_,unset,started⟩
  · rw [same]
    exact wired
  · rw [same]
    exact wired
  · rw [stopped]
    exact names_remove wired
  · rw [started]
    split
    · exact passes_wired passes (start_wired hooks wired unset)
    · exact wired

theorem stepWith_wired (hooks : Hooks Priv) {reader : Read → Polled Priv Reading → Polled Priv Reading}
    (passes : ∀ read,Passes (reader read)) (d : Polled Priv Reading) (event : Event Read) (wired : TimerWired d) :
    TimerWired (stepWith hooks reader d event) := by
  cases event with
  | setPolling state read => exact setPollingWith_wired hooks (passes read) state wired
  | timer read =>
    change TimerWired (dispatchTimer (reader read) d)
    unfold dispatchTimer
    split
    · exact wired
    · exact passes_wired (passes read) wired

-- A device with a timer to set has one armed behind set_polling(TRUE).
theorem polling_armed (hooks : Hooks Priv) {read : Polled Priv Reading → Polled Priv Reading} (passes : Passes read)
    {d : Polled Priv Reading} (wired : TimerWired d) (timed : d.timeoutId = 0 → hooks.timed d.priv = true) :
    (setPollingWith hooks read true d).readTimers ≠ [] := by
  rcases setPollingWith_cases hooks read true d with ⟨_,set,same⟩ | ⟨wrong,_⟩ | ⟨wrong,_⟩ | ⟨_,unset,started⟩
  · rw [same]
    exact names_live wired set
  · exact absurd wrong (by decide)
  · exact absurd wrong (by decide)
  · rw [started,if_pos (timed unset)]
    obtain ⟨readings,passed⟩ := passes (startTimer hooks d)
    have armed : (startTimer hooks d).readTimers ≠ [] := names_live (start_wired hooks wired unset) (Nat.succ_ne_zero _)
    rw [passed]
    exact armed

end

section
variable {R : Type}

theorem readOrientation_passes (read : BufferRead R) : Passes (readOrientation read) := by
  intro d
  unfold readOrientation prepareOutput processScan
  split
  · exact passes_none d
  · split
    · exact passes_none d
    · split
      · exact passes_none d
      · simp only
        split
        · exact passes_none d
        · exact passes_one _ d

theorem lightChanged_passes [Mul R] (contents : Option R) : Passes (lightChanged contents) := by
  intro d
  cases contents with
  | none => exact passes_none d
  | some level => exact passes_one _ d

theorem accelerometerChanged_passes (read : AxesRead) : Passes (accelerometerChanged read) := by
  intro d
  unfold accelerometerChanged
  split
  · exact passes_none d
  · exact passes_one _ d

end

-- A device that reports kevents has no timer any more.
structure KeventWired (d : InputAccel) : Prop where
  wired : TimerWired d
  switched : d.priv.sendsKevent = true → d.timeoutId = 0

theorem inputAccel_polling_kept (state : Bool) (read : AxesRead) {d : InputAccel} (kept : KeventWired d) :
    KeventWired (inputAccelSetPolling state read d) := by
  refine ⟨setPollingWith_wired inputAccelHooks (accelerometerChanged_passes read) state kept.wired,?_⟩
  unfold inputAccelSetPolling
  rcases setPollingWith_cases inputAccelHooks (accelerometerChanged read) state d with
    ⟨_,_,same⟩ | ⟨_,_,same⟩ | ⟨_,_,stopped⟩ | ⟨_,unset,started⟩
  · rw [same]
    exact kept.switched
  · rw [same]
    exact kept.switched
  · rw [stopped]
    exact fun _ => rfl
  · rw [started]
    split
    · rename_i timed
      obtain ⟨readings,passed⟩ := accelerometerChanged_passes read (startTimer inputAccelHooks d)
      rw [passed]
      intro switched
      have unswitched : (!d.priv.sendsKevent) = true := timed
      change d.priv.sendsKevent = true at switched
      rw [switched] at unswitched
      exact absurd unswitched (by decide)
    · exact kept.switched

theorem accelerometerChanged_kept (read : AxesRead) {d : InputAccel} (kept : KeventWired d) :
    KeventWired (accelerometerChanged read d) := by
  obtain ⟨readings,passed⟩ := accelerometerChanged_passes read d
  rw [passed]
  exact ⟨kept.wired,kept.switched⟩

theorem switchToKevents_kept (read : AxesRead) {d : InputAccel} (kept : KeventWired d) :
    KeventWired (switchToKevents read d) := by
  unfold switchToKevents
  split
  · exact kept
  · have wired : TimerWired { d with priv := { d.priv with sendsKevent := true } } := kept.wired
    refine ⟨setPollingWith_wired inputAccelHooks (accelerometerChanged_passes read) false wired,fun _ => ?_⟩
    unfold inputAccelSetPolling
    rcases setPollingWith_cases inputAccelHooks (accelerometerChanged read) false
        { d with priv := { d.priv with sendsKevent := true } } with ⟨wrong,_⟩ | ⟨_,unset,same⟩ | ⟨_,_,stopped⟩ | ⟨wrong,_⟩
    · exact absurd wrong (by decide)
    · rw [same]
      exact unset
    · rw [stopped]
      rfl
    · exact absurd wrong (by decide)

theorem inputAccelStep_kept (d : InputAccel) (event : InputAccelEvent) (kept : KeventWired d) :
    KeventWired (inputAccelStep d event) := by
  cases event with
  | polling event =>
    cases event with
    | setPolling state read => exact inputAccel_polling_kept state read kept
    | timer read =>
      change KeventWired (dispatchTimer (accelerometerChanged read) d)
      unfold dispatchTimer
      split
      · exact kept
      · exact accelerometerChanged_kept read kept
  | uevent action sysfsPath read =>
    change KeventWired (ueventReceived action sysfsPath read d)
    unfold ueventReceived
    split
    · exact kept
    · split
      · exact kept
      · exact accelerometerChanged_kept read (switchToKevents_kept read kept)

theorem inputAccel_prompt_iff (read : AxesRead) {d : InputAccel} (kept : KeventWired d) :
    Prompt d.delivered (inputAccelSetPolling true read d).delivered (inputAccelSetPolling true read d).readTimers ↔
      d.priv.sendsKevent = false := by
  constructor
  · intro prompt
    by_contra switched
    have kevents : d.priv.sendsKevent = true := by simpa using switched
    have unset := kept.switched kevents
    have idle : inputAccelSetPolling true read d = d := by
      rcases setPollingWith_cases inputAccelHooks (accelerometerChanged read) true d with
        ⟨_,set,_⟩ | ⟨wrong,_⟩ | ⟨wrong,_⟩ | ⟨_,_,started⟩
      · exact absurd unset set
      · exact absurd wrong (by decide)
      · exact absurd wrong (by decide)
      · have untimed : inputAccelHooks.timed d.priv = false := by
          change (!d.priv.sendsKevent) = false
          rw [kevents]
          rfl
        rw [untimed] at started
        exact started
    rw [idle] at prompt
    rcases prompt with longer | armed
    · exact absurd longer (Nat.lt_irrefl _)
    · have none := kept.wired.ids
      rw [unset] at none
      exact absurd none armed
  · intro unswitched
    refine .inr (polling_armed inputAccelHooks (accelerometerChanged_passes read) kept.wired (fun _ => ?_))
    change (!d.priv.sendsKevent) = true
    rw [unswitched]
    rfl

theorem proximityChanged_loop (reads : List ProximityRead) (d : ProximityDevice) :
    (proximityChanged reads d).loop = d.loop := by
  induction reads generalizing d with
  | nil => rfl
  | cons read rest ih =>
    unfold proximityChanged
    split
    · rfl
    · split
      · exact ih _
      · split
        · exact ih _
        · exact ih _

-- The switch never has a timer.
theorem inputProximityStep_untimed (d : ProximityDevice) (event : ProximityEvent)
    (untimed : d.loop.ofKind .readTimer = []) : (inputProximityStep d event).loop.ofKind .readTimer = [] := by
  have cleared : (clearWatcher d).loop.ofKind .readTimer = [] := by
    unfold clearWatcher
    split
    · exact untimed
    · rw [ofKind_remove,untimed]
      rfl
  cases event with
  | setPolling state attempt =>
    change (inputProximitySetPolling state attempt d).loop.ofKind .readTimer = []
    unfold inputProximitySetPolling
    split
    · exact untimed
    · split
      · exact untimed
      · split
        · unfold watchInputProximity
          split
          · exact cleared
          · exact (ofKind_add_other (clearWatcher d).loop (by decide)).trans cleared
        · exact cleared
  | readable reads =>
    change (if d.loop.ofKind .eventWatch = [] then d else proximityChanged reads d).loop.ofKind .readTimer = []
    split
    · exact untimed
    · rw [proximityChanged_loop]
      exact untimed

theorem inputProximity_prompt_iff (attempt : WatchAttempt) (readable : attempt.readable ≠ none) {d : ProximityDevice}
    (untimed : d.loop.ofKind .readTimer = []) :
    Prompt d.delivered (inputProximitySetPolling true attempt d).delivered
    ((inputProximitySetPolling true attempt d).loop.ofKind .readTimer) ↔
      d.watcherId = 0 := by
  constructor
  · intro prompt
    by_contra watching
    have idle : inputProximitySetPolling true attempt d = d := if_pos ⟨Nat.pos_of_ne_zero watching,rfl⟩
    rw [idle] at prompt
    rcases prompt with longer | armed
    · exact absurd longer (Nat.lt_irrefl _)
    · exact armed untimed
  · intro unwatched
    obtain ⟨state,switch⟩ := Option.ne_none_iff_exists'.mp readable
    have watched : inputProximitySetPolling true attempt d =
        reportSwitch state { d with watcherId := d.loop.addId,loop := d.loop.add .eventWatch } := by
      simp [inputProximitySetPolling,clearWatcher,watchInputProximity,unwatched,switch]
    rw [watched]
    refine .inl ?_
    change d.delivered.length < (d.delivered++[proximityNear state]).length
    rw [List.length_append]
    exact Nat.lt_succ_self _

theorem mxc6655_prompt {K Filter Hinge : Type} (d : Mxc6655.Device K Filter Hinge) :
    Prompt d.delivered (mxc6655SetPolling true d).delivered ((mxc6655SetPolling true d).loop.ofKind .pollTimer) := by
  have free : TimerFree (fun d : Mxc6655.Device K Filter Hinge => d.delivered) := fun _ _ _ _ _ _ => rfl
  refine .inl ?_
  have sent : (mxc6655SetPolling true d).delivered = (Mxc6655.sendCurrentReading d).delivered := free.setWantPolling true _
  rw [sent]
  change d.delivered.length < (d.delivered++[_]).length
  rw [List.length_append]
  exact Nat.lt_succ_self _

-- Each driver in any state it can get into, when the next set_polling(TRUE) comes.
theorem claim_never_waits_on_idle_driver_iff {K Filter Hinge R : Type} [Mul R] :
    (∀ d : Mxc6655.Device K Filter Hinge,
      Prompt d.delivered (mxc6655SetPolling true d).delivered ((mxc6655SetPolling true d).loop.ofKind .pollTimer)) ∧
    (∀ (scanSize : Int) (events : List (Event (BufferRead R))) (read : BufferRead R) (d : BufferAccel R),
      run iioBufferAccelStep (iioBufferAccelOpen scanSize) events = d →
        Prompt d.delivered (iioBufferAccelSetPolling true read d).delivered
    (iioBufferAccelSetPolling true read d).readTimers) ∧
    (∀ (scale : R) (events : List (Event (Option R))) (contents : Option R) (d : PollLight R),
      run iioPollLightStep (iioPollLightOpen scale) events = d →
        Prompt d.delivered (iioPollLightSetPolling true contents d).delivered
    (iioPollLightSetPolling true contents d).readTimers) ∧
    (∀ (parentPath : Option String) (mountMatrix : Int×Int×Int → Int×Int×Int) (events : List InputAccelEvent)
        (read : AxesRead) (d : InputAccel),
      run inputAccelStep (inputAccelOpen parentPath mountMatrix) events = d →
        (Prompt d.delivered (inputAccelSetPolling true read d).delivered (inputAccelSetPolling true read d).readTimers ↔
          d.priv.sendsKevent = false)) ∧
    (∀ (events : List ProximityEvent) (attempt : WatchAttempt) (d : ProximityDevice),
      run inputProximityStep inputProximityOpen events = d → attempt.readable ≠ none →
        (Prompt d.delivered (inputProximitySetPolling true attempt d).delivered
          ((inputProximitySetPolling true attempt d).loop.ofKind .readTimer) ↔ d.watcherId = 0)) := by
  refine ⟨mxc6655_prompt,?_,?_,?_,?_⟩
  · rintro scanSize events read _ rfl
    have wired := foldl_keeps (stepWith_wired iioBufferAccelHooks readOrientation_passes) events
      (opened_wired ⟨scanSize,false⟩)
    exact .inr (polling_armed iioBufferAccelHooks (readOrientation_passes read) wired (fun _ => rfl))
  · rintro scale events contents _ rfl
    have wired := foldl_keeps (stepWith_wired iioPollLightHooks lightChanged_passes) events (opened_wired ⟨scale⟩)
    exact .inr (polling_armed iioPollLightHooks (lightChanged_passes contents) wired (fun _ => rfl))
  · rintro parentPath mountMatrix events read _ rfl
    exact inputAccel_prompt_iff read (foldl_keeps inputAccelStep_kept events ⟨opened_wired _,nofun⟩)
  · rintro events attempt _ rfl readable
    refine inputProximity_prompt_iff attempt readable ?_
    exact foldl_keeps (P := fun d : ProximityDevice => d.loop.ofKind .readTimer = []) inputProximityStep_untimed events rfl

-- The device files as they answer on a machine with both sensors.
def levelAxes : AxesRead := ⟨true,some 0,some 0,some 256⟩

def nearSwitch : WatchAttempt := ⟨some "/dev/input/event4",true,some true,true⟩

-- Polled from the start, the accelerometer then reports its first kevent.
def keventAccel : InputAccel :=
  run inputAccelStep (inputAccelOpen (some "/sys/devices/platform/lis3lv02d/input/input5") id)
    [.polling (.setPolling true levelAxes),.uevent "change" "/sys/devices/platform/lis3lv02d/input/input5" levelAxes]

def watchedSwitch : ProximityDevice := run inputProximityStep inputProximityOpen [.setPolling true nearSwitch]

-- Watched, told of a change, and released.
def releasing : List ProximityEvent :=
  [.setPolling true nearSwitch,.readable [⟨inputEventSize,evSw,swFrontProximity,some false⟩],.setPolling false nearSwitch]

def releasedSwitch : ProximityDevice := run inputProximityStep inputProximityOpen releasing

theorem claim_never_waits_on_idle_driver_released :
    nearSwitch.readable ≠ none ∧
      Prompt releasedSwitch.delivered (inputProximitySetPolling true nearSwitch releasedSwitch).delivered
        ((inputProximitySetPolling true nearSwitch releasedSwitch).loop.ofKind .readTimer) ∧
      ¬Prompt watchedSwitch.delivered (inputProximitySetPolling true nearSwitch watchedSwitch).delivered
        ((inputProximitySetPolling true nearSwitch watchedSwitch).loop.ofKind .readTimer) := by
  have drivers := @claim_never_waits_on_idle_driver_iff Int Unit Unit Int _
  refine ⟨by decide,?_,?_⟩
  · exact (drivers.2.2.2.2 releasing nearSwitch releasedSwitch rfl (by decide)).mpr (by decide)
  · intro prompt
    have idle := (drivers.2.2.2.2 [.setPolling true nearSwitch] nearSwitch watchedSwitch rfl (by decide)).mp prompt
    exact absurd idle (by decide)

theorem polled_input_drivers_not_prompt :
    ¬Prompt keventAccel.delivered (inputAccelSetPolling true levelAxes keventAccel).delivered
      (inputAccelSetPolling true levelAxes keventAccel).readTimers ∧
    ¬Prompt watchedSwitch.delivered (inputProximitySetPolling true nearSwitch watchedSwitch).delivered
      ((inputProximitySetPolling true nearSwitch watchedSwitch).loop.ofKind .readTimer) := by
  unfold Prompt
  decide +kernel

end ChuwiMinibook.PromptReadings
