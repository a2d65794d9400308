import ChuwiMinibook.Mxc6655

namespace ChuwiMinibook.DeviceParts
open Mxc6655 MainLoop

section
variable {K Filter Hinge α : Type}

-- A part of the device that the timer and the lid watch have no hand in.
def TimerFree (part : Device K Filter Hinge → α) : Prop :=
  ∀ (d : Device K Filter Hinge) (timeoutId : Nat) (wantPolling lidClosed : Bool) (lidWatchId : Nat) (loop : Loop SourceKind),
    part { d with timeoutId := timeoutId,wantPolling := wantPolling,lidClosed := lidClosed,lidWatchId := lidWatchId,loop := loop } =
      part d

theorem TimerFree.updatePollingTimer {part : Device K Filter Hinge → α} (free : TimerFree part) (d : Device K Filter Hinge) :
    part (updatePollingTimer d) = part d := by
  unfold Mxc6655.updatePollingTimer startPollTimer stopPollTimer
  split
  · exact free d _ _ _ _ _
  · split
    · exact free d _ _ _ _ _
    · rfl

theorem TimerFree.setWantPolling {part : Device K Filter Hinge → α} (free : TimerFree part) (state : Bool) (d : Device K Filter Hinge) :
    part (setWantPolling state d) = part d := by
  unfold Mxc6655.setWantPolling
  split
  · rfl
  · exact (free.updatePollingTimer _).trans (free d _ _ _ _ _)

theorem TimerFree.setLidClosed {part : Device K Filter Hinge → α} (free : TimerFree part) (closed : Bool) (d : Device K Filter Hinge) :
    part (setLidClosed closed d) = part d := by
  unfold Mxc6655.setLidClosed
  split
  · rfl
  · exact (free.updatePollingTimer _).trans (free d _ _ _ _ _)

theorem TimerFree.lidEvents {part : Device K Filter Hinge → α} (free : TimerFree part) (events : List InputEvent)
    (d : Device K Filter Hinge) : part (events.foldl lidEvent d) = part d := by
  induction events generalizing d with
  | nil => rfl
  | cons ev rest ih =>
    refine (ih (lidEvent d ev)).trans ?_
    unfold lidEvent
    split
    · rfl
    · exact free.setLidClosed _ d

theorem TimerFree.dispatchLid {part : Device K Filter Hinge → α} (free : TimerFree part) (dispatch : LidDispatch)
    (d : Device K Filter Hinge) : part (dispatchLid dispatch d) = part d := by
  unfold Mxc6655.dispatchLid
  split
  · rfl
  · unfold lidEventCb
    by_cases hangup : dispatch.hangup
    · rw [if_pos hangup]
      exact free d _ _ _ _ _
    · rw [if_neg hangup]
      exact free.lidEvents _ d

-- A part that the orientation and the tablet mode have no hand in.
def SampleFree (part : Device K Filter Hinge → α) : Prop :=
  ∀ (d : Device K Filter Hinge) (prevZ : Hinge) (mode : Int) (tCount lCount nCount : Nat) (orient : Filter) (curOrient : Int)
    (orientDebounce : Nat) (pendingOrient : Int) (delivered : List (Int×AccelReadings)) (ltsm tabletEvents : List Int),
    part { d with
      prevZ := prevZ,mode := mode,tCount := tCount,lCount := lCount,nCount := nCount,orient := orient,curOrient := curOrient,
      orientDebounce := orientDebounce,pendingOrient := pendingOrient,delivered := delivered,ltsm := ltsm,
      tabletEvents := tabletEvents } = part d

theorem SampleFree.emitOrientation {part : Device K Filter Hinge → α} (free : SampleFree part) (orient : Int)
    (d : Device K Filter Hinge) : part (emitOrientation orient d) = part d := free d _ _ _ _ _ _ _ _ _ _ _ _

theorem SampleFree.debounceOrientation {part : Device K Filter Hinge → α} (free : SampleFree part) (newOrient : Int)
    (d : Device K Filter Hinge) : part (debounceOrientation newOrient d) = part d := by
  unfold Mxc6655.debounceOrientation Mxc6655.emitOrientation
  split
  · exact free d _ _ _ _ _ _ _ _ _ _ _ _
  · split
    · rfl
    · simp only
      split <;> exact free d _ _ _ _ _ _ _ _ _ _ _ _

theorem SampleFree.setTabletMode {part : Device K Filter Hinge → α} (free : SampleFree part) (mode : Int)
    (d : Device K Filter Hinge) : part (setTabletMode mode d) = part d := by
  unfold Mxc6655.setTabletMode forceLandscape Mxc6655.emitOrientation
  by_cases held : 0 ≤ d.uinputFd <;> by_cases laptop : mode = 0 <;> simp only [held,laptop,if_true,if_false] <;>
    exact free d _ _ _ _ _ _ _ _ _ _ _ _

variable [LinearOrder K]

theorem SampleFree.updateTabletMode {part : Device K Filter Hinge → α} (free : SampleFree part) (angle : K)
    (d : Device K Filter Hinge) : part (updateTabletMode angle d) = part d := by
  have counters : ∀ t l n : Nat,part { d with tCount := t,lCount := l,nCount := n } = part d :=
    fun t l n => free d _ _ _ _ _ _ _ _ _ _ _ _
  unfold Mxc6655.updateTabletMode
  split
  · simp only
    split
    · exact (free.setTabletMode _ _).trans (counters _ _ _)
    · exact counters _ _ _
  · split
    · exact counters _ _ _
    · split
      · simp only
        split
        · exact (free.setTabletMode _ _).trans (counters _ _ _)
        · exact counters _ _ _
      · rfl

theorem SampleFree.updateHinge {part : Device K Filter Hinge → α} (free : SampleFree part) (arith : Arithmetic K Filter Hinge)
    (a1 a2 : Vec3 K) (d : Device K Filter Hinge) : part (updateHinge arith a1 a2 d) = part d := by
  unfold Mxc6655.updateHinge
  split
  · rfl
  · exact (free.updateTabletMode _ _).trans (free d _ _ _ _ _ _ _ _ _ _ _ _)

theorem SampleFree.updateOrientationDebounce [Zero K] [Neg K] {part : Device K Filter Hinge → α} (free : SampleFree part)
    (arith : Arithmetic K Filter Hinge) (accel : Vec3 K) (d : Device K Filter Hinge) :
    part (updateOrientationDebounce arith accel d) = part d := by
  have filtered : part { d with orient := (arith.updateOrientation d.orient accel).1 } = part d := free d _ _ _ _ _ _ _ _ _ _ _ _
  unfold Mxc6655.updateOrientationDebounce
  split
  · exact filtered
  · exact (free.debounceOrientation _ _).trans filtered

end

end ChuwiMinibook.DeviceParts
