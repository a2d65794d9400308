import ChuwiMinibook.DeviceParts
import ChuwiMinibook.Machine

namespace ChuwiMinibook.PollTimer
open Mxc6655 DeviceParts Machine MainLoop

section
variable {K Filter Hinge : Type}

-- The two identifiers name exactly the sources of their kind.
structure Wired (d : Device K Filter Hinge) : Prop where
  timer : Names d.loop .pollTimer d.timeoutId
  watch : Names d.loop .lidWatch d.lidWatchId
  distinct : d.timeoutId = d.lidWatchId → d.timeoutId = 0

-- The timer runs exactly when both inputs ask for it.
def Gated (d : Device K Filter Hinge) : Prop := d.timeoutId ≠ 0 ↔ d.wantPolling = true ∧ d.lidClosed = false

theorem gated_iff (d : Device K Filter Hinge) : Gated d ↔ (d.timeoutId ≠ 0 ↔ pollingWanted d = true) := by
  rw [Gated,pollingWanted,Bool.and_eq_true,Bool.not_eq_true']

theorem start_wired {d : Device K Filter Hinge} (wired : Wired d) (unset : d.timeoutId = 0) : Wired (startPollTimer d) := by
  have none : Names d.loop .pollTimer 0 := by
    rw [← unset]
    exact wired.timer
  refine ⟨names_add none,names_add_other (by decide) wired.watch,?_⟩
  intro same
  have issued := wired.watch.issued
  change d.loop.last+1 = d.lidWatchId at same
  omega

theorem stop_wired {d : Device K Filter Hinge} (wired : Wired d) : Wired (stopPollTimer d) := by
  refine ⟨names_remove wired.timer,names_remove_other ?_ wired.watch,fun _ => rfl⟩
  intro same
  rw [same]
  exact wired.distinct same.symm

theorem updatePollingTimer_gates {d : Device K Filter Hinge} (wired : Wired d) :
    Wired (updatePollingTimer d) ∧ Gated (updatePollingTimer d) := by
  unfold updatePollingTimer
  by_cases wanted : pollingWanted d = true
  · by_cases unset : d.timeoutId = 0
    · rw [if_pos (by simp [wanted,unset])]
      refine ⟨start_wired wired unset,(gated_iff _).mpr ⟨fun _ => wanted,fun _ => Nat.succ_ne_zero _⟩⟩
    · rw [if_neg (by simp [unset]),if_neg (by simp [wanted])]
      exact ⟨wired,(gated_iff _).mpr ⟨fun _ => wanted,fun _ => unset⟩⟩
  · by_cases unset : d.timeoutId = 0
    · rw [if_neg (by simp [wanted]),if_neg (by simp [unset])]
      exact ⟨wired,(gated_iff _).mpr ⟨fun set => absurd unset set,fun asked => absurd asked wanted⟩⟩
    · rw [if_neg (by simp [wanted]),if_pos (by simp [wanted]; omega)]
      exact ⟨stop_wired wired,(gated_iff _).mpr ⟨fun set => absurd rfl set,fun asked => absurd asked wanted⟩⟩

def Sound (d : Device K Filter Hinge) : Prop := Wired d ∧ Gated d

-- What the timer and the watch depend on.
def timerPart (d : Device K Filter Hinge) : Nat×Bool×Bool×Nat×Loop SourceKind :=
  (d.timeoutId,d.wantPolling,d.lidClosed,d.lidWatchId,d.loop)

theorem timerPart_sampleFree : SampleFree (timerPart : Device K Filter Hinge → Nat×Bool×Bool×Nat×Loop SourceKind) :=
  fun _ _ _ _ _ _ _ _ _ _ _ _ _ => rfl

theorem sound_of_same {d d' : Device K Filter Hinge} (same : timerPart d' = timerPart d) (sound : Sound d) : Sound d' := by
  obtain ⟨⟨timer,watch,distinct⟩,gated⟩ := sound
  obtain ⟨timeoutId,wantPolling,lidClosed,lidWatchId,loop⟩ : d'.timeoutId = d.timeoutId ∧ d'.wantPolling = d.wantPolling ∧
      d'.lidClosed = d.lidClosed ∧ d'.lidWatchId = d.lidWatchId ∧ d'.loop = d.loop := by
    simpa only [timerPart,Prod.mk.injEq] using same
  refine ⟨⟨?_,?_,?_⟩,?_⟩
  · rwa [loop,timeoutId]
  · rwa [loop,lidWatchId]
  · rwa [timeoutId,lidWatchId]
  · rwa [Gated,timeoutId,wantPolling,lidClosed]

theorem recoverI2c_timerPart (buses : List Bus) (d : Device K Filter Hinge) : timerPart (recoverI2c buses d) = timerPart d := by
  unfold recoverI2c
  simp only
  split <;> rfl

theorem setWantPolling_sound {d : Device K Filter Hinge} (sound : Sound d) (state : Bool) : Sound (setWantPolling state d) := by
  unfold setWantPolling
  split
  · exact sound
  · obtain ⟨timer,watch,distinct⟩ := sound.1
    exact updatePollingTimer_gates ⟨timer,watch,distinct⟩

theorem updatePollingTimer_wants (d : Device K Filter Hinge) : (updatePollingTimer d).wantPolling = d.wantPolling := by
  unfold updatePollingTimer
  split
  · rfl
  · split <;> rfl

theorem setPolling_wants (d : Device K Filter Hinge) (state : Bool) : (mxc6655SetPolling state d).wantPolling = state := by
  have wants (d : Device K Filter Hinge) : (setWantPolling state d).wantPolling = state := by
    unfold setWantPolling
    split
    · assumption
    · exact updatePollingTimer_wants _
  exact wants _

theorem setPolling_sound {d : Device K Filter Hinge} (sound : Sound d) (state : Bool) : Sound (mxc6655SetPolling state d) := by
  refine setWantPolling_sound ?_ state
  cases state with
  | false => exact sound
  | true => exact sound_of_same (timerPart_sampleFree.emitOrientation _ d) sound

theorem setLidClosed_sound {d : Device K Filter Hinge} (sound : Sound d) (closed : Bool) : Sound (setLidClosed closed d) := by
  unfold setLidClosed
  split
  · exact sound
  · obtain ⟨timer,watch,distinct⟩ := sound.1
    exact updatePollingTimer_gates ⟨timer,watch,distinct⟩

theorem lidEvents_sound (events : List InputEvent) {d : Device K Filter Hinge} (sound : Sound d) : Sound (events.foldl lidEvent d) := by
  induction events generalizing d with
  | nil => exact sound
  | cons ev rest ih =>
    refine ih ?_
    unfold lidEvent
    split
    · exact sound
    · exact setLidClosed_sound sound _

theorem lidEvents_wants (events : List InputEvent) (d : Device K Filter Hinge) :
    (events.foldl lidEvent d).wantPolling = d.wantPolling := by
  induction events generalizing d with
  | nil => rfl
  | cons ev rest ih =>
    rw [List.foldl_cons,ih]
    unfold lidEvent setLidClosed
    split
    · rfl
    · split
      · rfl
      · exact updatePollingTimer_wants _

theorem dispatchLid_wants (dispatch : LidDispatch) (d : Device K Filter Hinge) :
    (dispatchLid dispatch d).wantPolling = d.wantPolling := by
  unfold dispatchLid lidEventCb
  split
  · rfl
  · by_cases hangup : dispatch.hangup
    · rw [if_pos hangup]
    · rw [if_neg hangup]
      exact lidEvents_wants dispatch.events d

-- The hang-up forgets the identifier and the main loop drops the source it names.
theorem dispatchLid_sound {d : Device K Filter Hinge} (sound : Sound d) (dispatch : LidDispatch) : Sound (dispatchLid dispatch d) := by
  unfold dispatchLid
  cases watch : d.loop.ofKind .lidWatch with
  | nil => exact sound
  | cons id rest =>
    unfold lidEventCb
    by_cases hangup : dispatch.hangup
    · rw [if_pos hangup]
      obtain ⟨wired,gated⟩ := sound
      have named : d.lidWatchId = id := by
        have ids := wired.watch.ids
        rw [watch,sourceIds] at ids
        split at ids
        · cases ids
        · exact (List.cons.inj ids).1.symm
      rw [← named]
      exact ⟨⟨names_remove_other wired.distinct wired.timer,names_remove wired.watch,fun same => same⟩,gated⟩
    · rw [if_neg hangup]
      exact lidEvents_sound _ sound

section
variable [LinearOrder K] [Zero K] [Neg K]

theorem poll_timerPart (arith : Arithmetic K Filter Hinge) (sample : Sample K) (d : Device K Filter Hinge) :
    timerPart (pollSensors arith sample d) = timerPart d := by
  rcases pollSensors_cases arith sample d with ⟨_,poll⟩ | ⟨a1,a2,_,poll⟩
  · rw [poll,recoverI2c_timerPart]
  · rw [poll,timerPart_sampleFree.updateHinge,timerPart_sampleFree.updateOrientationDebounce]

-- The state of the last set_polling call.
def asked (want : Bool) : Event K → Bool
  | .setPolling state => state
  | _ => want

theorem step_wants (arith : Arithmetic K Filter Hinge) (d : Device K Filter Hinge) (event : Event K) :
    (step arith d event).wantPolling = asked d.wantPolling event := by
  cases event with
  | poll sample => exact congrArg (·.2.1) (poll_timerPart arith sample d)
  | setPolling state => exact setPolling_wants d state
  | lid dispatch => exact dispatchLid_wants dispatch d

theorem run_wants (arith : Arithmetic K Filter Hinge) (d : Device K Filter Hinge) (events : List (Event K)) :
    (run (step arith) d events).wantPolling = events.foldl asked d.wantPolling := by
  induction events generalizing d with
  | nil => rfl
  | cons event rest ih =>
    rw [run_cons,ih,step_wants]
    rfl

theorem step_sound (arith : Arithmetic K Filter Hinge) {d : Device K Filter Hinge} (event : Event K) (sound : Sound d) :
    Sound (step arith d event) := by
  cases event with
  | poll sample => exact sound_of_same (poll_timerPart arith sample d) sound
  | setPolling state => exact setPolling_sound sound state
  | lid dispatch => exact dispatchLid_sound sound dispatch

theorem run_sound (arith : Arithmetic K Filter Hinge) {d : Device K Filter Hinge} (events : List (Event K)) (sound : Sound d) :
    Sound (run (step arith) d events) := by
  induction events generalizing d with
  | nil => exact sound
  | cons event rest ih => exact ih (step_sound arith event sound)

end

theorem opened_sound {setup : Setup K Filter Hinge} {d : Device K Filter Hinge} (opened : mxc6655Open setup = .ok d) : Sound d := by
  obtain ⟨t,found,rfl⟩ := open_ok opened
  cases setup.lid with
  | none => exact ⟨⟨⟨rfl,Nat.le_refl _⟩,⟨rfl,Nat.le_refl _⟩,fun same => same⟩,by simp [Gated,setupLidWatch,fresh]⟩
  | some lid => exact ⟨⟨⟨rfl,Nat.zero_le _⟩,⟨rfl,Nat.le_refl _⟩,fun _ => rfl⟩,by simp [Gated,setupLidWatch,fresh]⟩

theorem opened_unasked {setup : Setup K Filter Hinge} {d : Device K Filter Hinge} (opened : mxc6655Open setup = .ok d) :
    d.wantPolling = false := by
  obtain ⟨t,found,rfl⟩ := open_ok opened
  cases setup.lid with
  | none => rfl
  | some lid => rfl

-- With both kinds gone nothing is left.
theorem live_nil {l : Loop SourceKind} (timers : l.ofKind .pollTimer = []) (watches : l.ofKind .lidWatch = []) : l.live = [] := by
  rw [List.eq_nil_iff_forall_not_mem]
  intro source inside
  cases kind : source.2 with
  | pollTimer => exact List.eq_nil_iff_forall_not_mem.mp timers _ (List.mem_map_of_mem (List.mem_filter.mpr ⟨inside,decide_eq_true kind⟩))
  | lidWatch => exact List.eq_nil_iff_forall_not_mem.mp watches _ (List.mem_map_of_mem (List.mem_filter.mpr ⟨inside,decide_eq_true kind⟩))

theorem close_empties {d : Device K Filter Hinge} (sound : Sound d) : (driverClose d).loop.live = [] := by
  obtain ⟨wired,gated⟩ := setPolling_sound sound false
  have idle : (mxc6655SetPolling false d).timeoutId = 0 := by
    by_contra set
    rw [Gated,setPolling_wants] at gated
    exact absurd (gated.mp set).1 (by decide)
  have timers : (mxc6655SetPolling false d).loop.ofKind .pollTimer = [] := by rw [wired.timer.ids,idle,sourceIds_nil]
  unfold driverClose mxc6655Close
  by_cases watched : 0 < (mxc6655SetPolling false d).lidWatchId
  · simp only [watched,if_true]
    refine live_nil ?_ (names_remove wired.watch).ids
    rw [ofKind_remove,timers,List.filter_nil]
  · simp only [watched,if_false]
    refine live_nil timers ?_
    rw [wired.watch.ids,Nat.eq_zero_of_not_pos watched,sourceIds_nil]

-- timeout_id also names the one timer there is, and want_polling is the last set_polling's.
theorem poll_timer_follows_claims_and_lid [LinearOrder K] [Zero K] [Neg K] (arith : Arithmetic K Filter Hinge)
    {setup : Setup K Filter Hinge} {d : Device K Filter Hinge} (opened : mxc6655Open setup = .ok d) (events : List (Event K)) :
    ((run (step arith) d events).timeoutId ≠ 0 ↔
      (run (step arith) d events).wantPolling = true ∧ (run (step arith) d events).lidClosed = false) ∧
    (run (step arith) d events).wantPolling = events.foldl asked false ∧
    (run (step arith) d events).loop.ofKind .pollTimer = sourceIds (run (step arith) d events).timeoutId ∧
    ((run (step arith) d events).loop.ofKind .pollTimer).length ≤ 1 ∧
    (driverClose (run (step arith) d events)).loop.live = [] := by
  have sound := run_sound arith events (opened_sound opened)
  have timers := sound.1.timer.ids
  refine ⟨sound.2,?_,timers,?_,close_empties sound⟩
  · rw [run_wants,opened_unasked opened]
  · rw [timers]
    exact sourceIds_length _

end

theorem minibook_lid_stops_timer : mxc6655Open minibook = .ok minibookDevice ∧
    (run (step deskArithmetic) minibookDevice [.setPolling true]).loop.ofKind .pollTimer ≠ [] ∧
    (run (step deskArithmetic) minibookDevice [.setPolling true,.lid ⟨false,[⟨5,0,1⟩,⟨5,0,1⟩]⟩]).timeoutId = 0 ∧
    (driverClose (run (step deskArithmetic) minibookDevice [.setPolling true,.lid ⟨false,[⟨5,0,1⟩,⟨5,0,1⟩]⟩])).loop.live = [] := by
  have closed := (poll_timer_follows_claims_and_lid deskArithmetic minibook_opens
    [.setPolling true,.lid ⟨false,[⟨5,0,1⟩,⟨5,0,1⟩]⟩]).2.2.2.2
  have running := (poll_timer_follows_claims_and_lid deskArithmetic minibook_opens [.setPolling true]).2.2.1
  refine ⟨minibook_opens,?_,by decide,closed⟩
  rw [running]
  decide

end ChuwiMinibook.PollTimer
