import ChuwiMinibook.DeviceParts
import ChuwiMinibook.Machine
import ChuwiMinibook.Streak
import Mathlib.Data.List.Induction

namespace ChuwiMinibook.LandscapeLock
open Mxc6655 DeviceParts Machine Streak

section
variable {K Filter Hinge : Type}

-- Outside tablet mode the orientation is unset or landscape, and so was everything told.
structure Locked (landscapeOrient : Int) (d : Device K Filter Hinge) : Prop where
  panel : landscape d = landscapeOrient
  held : d.mode ≠ 1 → d.curOrient = -1 ∨ d.curOrient = landscapeOrient
  told : ∀ reading ∈ d.delivered,reading.1 ≠ 1 → reading.2 = buildSyntheticReadings landscapeOrient

-- A pending orientation has been seen at least as often as the debounce counts.
def Counted (samples : List Int) (d : Device K Filter Hinge) : Prop :=
  d.pendingOrient ≠ d.curOrient → d.orientDebounce ≤ streak d.pendingOrient samples

-- All that both properties look at.
structure Orientation where
  panelDeg : Int
  mode : Int
  curOrient : Int
  pendingOrient : Int
  orientDebounce : Nat
  delivered : List (Int×AccelReadings)

def orientation (d : Device K Filter Hinge) : Orientation :=
  ⟨d.panelDeg,d.mode,d.curOrient,d.pendingOrient,d.orientDebounce,d.delivered⟩

theorem orientation_timerFree : TimerFree (orientation : Device K Filter Hinge → Orientation) := fun _ _ _ _ _ _ => rfl

def Untouched (d d' : Device K Filter Hinge) : Prop := orientation d' = orientation d

theorem Untouched.panelDeg {d d' : Device K Filter Hinge} (same : Untouched d d') : d'.panelDeg = d.panelDeg :=
  congrArg Orientation.panelDeg same

theorem Untouched.mode {d d' : Device K Filter Hinge} (same : Untouched d d') : d'.mode = d.mode :=
  congrArg Orientation.mode same

theorem Untouched.curOrient {d d' : Device K Filter Hinge} (same : Untouched d d') : d'.curOrient = d.curOrient :=
  congrArg Orientation.curOrient same

theorem Untouched.pendingOrient {d d' : Device K Filter Hinge} (same : Untouched d d') : d'.pendingOrient = d.pendingOrient :=
  congrArg Orientation.pendingOrient same

theorem Untouched.orientDebounce {d d' : Device K Filter Hinge} (same : Untouched d d') : d'.orientDebounce = d.orientDebounce :=
  congrArg Orientation.orientDebounce same

theorem Untouched.delivered {d d' : Device K Filter Hinge} (same : Untouched d d') : d'.delivered = d.delivered :=
  congrArg Orientation.delivered same

theorem Untouched.locked {d d' : Device K Filter Hinge} {l : Int} (same : Untouched d d') (locked : Locked l d) : Locked l d' := by
  refine ⟨?_,?_,?_⟩
  · rw [← locked.panel,landscape,landscape,same.panelDeg]
  · rw [same.mode,same.curOrient]
    exact locked.held
  · rw [same.delivered]
    exact locked.told

theorem Untouched.counted {d d' : Device K Filter Hinge} {samples : List Int} (same : Untouched d d') (counted : Counted samples d) :
    Counted samples d' := by
  rw [Counted,same.pendingOrient,same.curOrient,same.orientDebounce]
  exact counted

theorem dispatchLid_untouched (dispatch : LidDispatch) (d : Device K Filter Hinge) : Untouched d (dispatchLid dispatch d) :=
  orientation_timerFree.dispatchLid dispatch d

theorem setWantPolling_untouched (state : Bool) (d : Device K Filter Hinge) : Untouched d (setWantPolling state d) :=
  orientation_timerFree.setWantPolling state d

theorem recoverI2c_untouched (buses : List Bus) (d : Device K Filter Hinge) : Untouched d (recoverI2c buses d) := by
  unfold recoverI2c
  simp only
  split
  · exact rfl
  · exact rfl

theorem Locked.emit {d : Device K Filter Hinge} {l orient : Int} (locked : Locked l d) (right : d.mode ≠ 1 → orient = l) :
    Locked l (emitOrientation orient d) := by
  refine ⟨locked.panel,locked.held,?_⟩
  intro reading inside outside
  rcases List.mem_append.mp inside with prior | added
  · exact locked.told reading prior outside
  · rw [List.mem_singleton.mp added] at outside ⊢
    exact congrArg buildSyntheticReadings (right outside)

theorem setPolling_locked {d : Device K Filter Hinge} {l : Int} (locked : Locked l d) (state : Bool) :
    Locked l (mxc6655SetPolling state d) := by
  refine (setWantPolling_untouched state _).locked ?_
  cases state with
  | false => exact locked
  | true =>
    refine locked.emit (fun outside => ?_)
    split
    · exact locked.panel
    · rename_i known
      rcases locked.held outside with unset | landscape
      · exact absurd (unset ▸ by decide) known
      · exact landscape

theorem setPolling_counted {d : Device K Filter Hinge} {samples : List Int} (counted : Counted samples d) (state : Bool) :
    Counted samples (mxc6655SetPolling state d) := by
  refine (setWantPolling_untouched state _).counted ?_
  cases state with
  | false => exact counted
  | true => exact counted

-- The debounce, for a sample that composes to newOrient.
theorem debounce_mode (newOrient : Int) (d : Device K Filter Hinge) : (debounceOrientation newOrient d).mode = d.mode := by
  unfold debounceOrientation emitOrientation
  split
  · rfl
  · split
    · rfl
    · simp only
      split <;> rfl

theorem debounce_locked {d : Device K Filter Hinge} {l newOrient : Int} (locked : Locked l d) (right : d.mode ≠ 1 → newOrient = l) :
    Locked l (debounceOrientation newOrient d) := by
  unfold debounceOrientation
  split
  · exact ⟨locked.panel,locked.held,locked.told⟩
  · split
    · exact locked
    · simp only
      split
      · have moved : Locked l { d with curOrient := newOrient,orientDebounce := 0 } :=
          ⟨locked.panel,fun outside => .inr (right outside),locked.told⟩
        exact moved.emit right
      · exact ⟨locked.panel,locked.held,locked.told⟩

theorem debounce_counted {d : Device K Filter Hinge} {samples : List Int} {newOrient : Int} (counted : Counted samples d) :
    Counted (samples++[newOrient]) (debounceOrientation newOrient d) ∧
    ((debounceOrientation newOrient d).curOrient ≠ d.curOrient →
      gmtrDebounce+1 ≤ streak (debounceOrientation newOrient d).curOrient (samples++[newOrient])) := by
  unfold debounceOrientation emitOrientation
  by_cases pending : newOrient = d.pendingOrient
  · rw [if_neg (not_not.mpr pending)]
    by_cases current : newOrient = d.curOrient
    · rw [if_pos current]
      exact ⟨fun other => absurd (pending.symm.trans current) other,fun moved => absurd rfl moved⟩
    · have longer : d.orientDebounce+1 ≤ streak newOrient (samples++[newOrient]) := by
        rw [streak_snoc_same,pending]
        exact Nat.succ_le_succ (counted (fun same => current (pending.trans same)))
      rw [if_neg current]
      simp only
      split
      · rename_i due
        exact ⟨fun other => absurd pending.symm other,fun _ => Nat.le_trans due longer⟩
      · refine ⟨fun _ => ?_,fun moved => absurd rfl moved⟩
        rw [pending] at longer ⊢
        exact longer
  · rw [if_pos pending]
    refine ⟨fun other => ?_,fun moved => absurd rfl moved⟩
    have fresh : newOrient ≠ d.curOrient := other
    change (if newOrient ≠ d.curOrient then 1 else 0) ≤ streak newOrient (samples++[newOrient])
    rw [if_pos fresh,streak_snoc_same]
    exact Nat.succ_le_succ (Nat.zero_le _)

theorem setTabletMode_cases (mode : Int) (d : Device K Filter Hinge) :
    (mode ≠ 0 ∧ Untouched { d with mode := mode } (setTabletMode mode d)) ∨
    (mode = 0 ∧ Untouched (forceLandscape { d with mode := mode }) (setTabletMode mode d)) := by
  unfold setTabletMode
  by_cases laptop : mode = 0
  · refine .inr ⟨laptop,?_⟩
    by_cases held : 0 ≤ d.uinputFd <;> simp only [held,laptop,if_true,if_false] <;> exact rfl
  · refine .inl ⟨laptop,?_⟩
    by_cases held : 0 ≤ d.uinputFd <;> simp only [held,laptop,if_true,if_false] <;> exact rfl

section
variable [LinearOrder K]

-- All that a hinge angle can do to orientation and mode.
theorem updateTabletMode_cases (angle : K) (d : Device K Filter Hinge) :
    Untouched d (updateTabletMode angle d) ∨
    Untouched { d with mode := 1 } (updateTabletMode angle d) ∨
    (d.mode ≠ 0 ∧ Untouched (forceLandscape { d with mode := 0 }) (updateTabletMode angle d)) := by
  unfold updateTabletMode
  split
  · simp only
    split
    · rcases setTabletMode_cases 1 { d with tCount := d.tCount+1,lCount := 0,nCount := 0 } with ⟨_,same⟩ | ⟨zero,_⟩
      · exact .inr (.inl same)
      · exact absurd zero (by decide)
    · exact .inl rfl
  · split
    · exact .inl rfl
    · split
      · simp only
        split
        · rename_i due
          rcases setTabletMode_cases 0 { d with lCount := d.lCount+1,tCount := 0,nCount := 0 } with ⟨other,_⟩ | ⟨_,same⟩
          · exact absurd rfl other
          · exact .inr (.inr ⟨due.1,same⟩)
        · exact .inl rfl
      · exact .inl rfl

theorem updateHinge_cases (arith : Arithmetic K Filter Hinge) (a1 a2 : Vec3 K) (d : Device K Filter Hinge) :
    Untouched d (updateHinge arith a1 a2 d) ∨
    Untouched { d with mode := 1 } (updateHinge arith a1 a2 d) ∨
    (d.mode ≠ 0 ∧ Untouched (forceLandscape { d with mode := 0 }) (updateHinge arith a1 a2 d)) := by
  unfold updateHinge
  split
  · exact .inl rfl
  · obtain ⟨prevZ,angle⟩ := arith.computeHingeAngle d.prevZ a1 a2
    rcases updateTabletMode_cases angle { d with prevZ := prevZ } with same | same | ⟨other,same⟩
    · exact .inl same
    · exact .inr (.inl same)
    · exact .inr (.inr ⟨other,same⟩)

theorem updateHinge_locked {arith : Arithmetic K Filter Hinge} {a1 a2 : Vec3 K} {d : Device K Filter Hinge} {l : Int}
    (locked : Locked l d) : Locked l (updateHinge arith a1 a2 d) := by
  rcases updateHinge_cases arith a1 a2 d with same | same | ⟨_,same⟩
  · exact same.locked locked
  · exact same.locked ⟨locked.panel,fun outside => absurd rfl outside,locked.told⟩
  · refine same.locked ?_
    have forced : Locked l { d with mode := 0,curOrient := landscape d,pendingOrient := landscape d,orientDebounce := 0 } :=
      ⟨locked.panel,fun _ => .inr locked.panel,locked.told⟩
    exact forced.emit (fun _ => locked.panel)

theorem updateHinge_counted {arith : Arithmetic K Filter Hinge} {a1 a2 : Vec3 K} {d : Device K Filter Hinge} {samples : List Int}
    (counted : Counted samples d) : Counted samples (updateHinge arith a1 a2 d) := by
  rcases updateHinge_cases arith a1 a2 d with same | same | ⟨_,same⟩
  · exact same.counted counted
  · exact same.counted counted
  · exact same.counted (fun other => absurd rfl other)

end

section
variable [LinearOrder K] [Zero K] [Neg K]

-- The classified sample a step brings, if it brings one.
def classified (arith : Arithmetic K Filter Hinge) (d : Device K Filter Hinge) : Event K → List Int
  | .poll sample =>
    match calibrated arith sample d with
    | none => []
    | some (a1,_) => (composedSample arith (negateX a1) d).toList
  | .setPolling _ => []
  | .lid _ => []

-- The device between the two halves of poll_sensors.
def afterOrientation (arith : Arithmetic K Filter Hinge) (sample : Sample K) (d : Device K Filter Hinge) : Device K Filter Hinge :=
  match calibrated arith sample d with
  | none => d
  | some (a1,_) => updateOrientationDebounce arith (negateX a1) d

theorem orientation_step (arith : Arithmetic K Filter Hinge) (accel : Vec3 K) {d : Device K Filter Hinge} {l : Int}
    {samples : List Int} (locked : Locked l d) (counted : Counted samples d) :
    Locked l (updateOrientationDebounce arith accel d) ∧
    Counted (samples++(composedSample arith accel d).toList) (updateOrientationDebounce arith accel d) ∧
    ((updateOrientationDebounce arith accel d).curOrient ≠ d.curOrient → gmtrDebounce+1 ≤
      streak (updateOrientationDebounce arith accel d).curOrient (samples++(composedSample arith accel d).toList)) := by
  have filtered : Untouched d { d with orient := (arith.updateOrientation d.orient accel).1 } := rfl
  unfold updateOrientationDebounce
  cases composed : composedSample arith accel d with
  | none =>
    rw [Option.toList_none,List.append_nil]
    exact ⟨filtered.locked locked,filtered.counted counted,fun moved => absurd rfl moved⟩
  | some newOrient =>
    have right : d.mode ≠ 1 → newOrient = l := by
      intro outside
      unfold composedSample at composed
      rw [if_pos outside] at composed
      split at composed
      · cases composed
      · split at composed
        · cases composed
        · exact (Option.some.inj composed).symm.trans locked.panel
    exact ⟨debounce_locked (filtered.locked locked) right,debounce_counted (filtered.counted counted)⟩

theorem orientation_mode (arith : Arithmetic K Filter Hinge) (accel : Vec3 K) (d : Device K Filter Hinge) :
    (updateOrientationDebounce arith accel d).mode = d.mode := by
  unfold updateOrientationDebounce
  split
  · rfl
  · exact debounce_mode _ _

theorem step_kept (arith : Arithmetic K Filter Hinge) (event : Event K) {d : Device K Filter Hinge} {l : Int}
    {samples : List Int} (locked : Locked l d) (counted : Counted samples d) :
    Locked l (step arith d event) ∧ Counted (samples++classified arith d event) (step arith d event) := by
  cases event with
  | poll sample =>
    rcases pollSensors_cases arith sample d with ⟨failed,poll⟩ | ⟨a1,a2,read,poll⟩
    · rw [step,poll,classified,failed,List.append_nil]
      exact ⟨(recoverI2c_untouched _ d).locked locked,(recoverI2c_untouched _ d).counted counted⟩
    · obtain ⟨first,second,_⟩ := orientation_step arith (negateX a1) locked counted
      rw [step,poll,classified,read]
      exact ⟨updateHinge_locked first,updateHinge_counted second⟩
  | setPolling state =>
    rw [classified,List.append_nil]
    exact ⟨setPolling_locked locked state,setPolling_counted counted state⟩
  | lid dispatch =>
    rw [classified,List.append_nil]
    exact ⟨(dispatchLid_untouched dispatch d).locked locked,(dispatchLid_untouched dispatch d).counted counted⟩

theorem run_kept (arith : Arithmetic K Filter Hinge) (events : List (Event K)) {start : Device K Filter Hinge} {l : Int}
    (locked : Locked l start) (counted : Counted [] start) : Locked l (run (step arith) start events) ∧
      Counted (observed (step arith) (classified arith) start events) (run (step arith) start events) := by
  induction events using List.reverseRecOn with
  | nil => exact ⟨locked,counted⟩
  | append_singleton events event ih =>
    rw [run_snoc,observed_snoc]
    exact step_kept arith event ih.1 ih.2

omit [LinearOrder K] [Zero K] [Neg K] in
theorem opened_kept {setup : Setup K Filter Hinge} {d : Device K Filter Hinge} (opened : mxc6655Open setup = .ok d) :
    Locked (landscape d) d ∧ Counted [] d := by
  obtain ⟨t,found,rfl⟩ := open_ok opened
  cases setup.lid with
  | none => exact ⟨⟨rfl,fun _ => .inl rfl,nofun⟩,fun other => absurd rfl other⟩
  | some lid => exact ⟨⟨rfl,fun _ => .inl rfl,nofun⟩,fun other => absurd rfl other⟩

theorem landscape_locked_outside_tablet_mode (arith : Arithmetic K Filter Hinge) {setup : Setup K Filter Hinge}
    {d : Device K Filter Hinge} (opened : mxc6655Open setup = .ok d) (events : List (Event K)) :
    (∀ reading ∈ (run (step arith) d events).delivered,reading.1 ≠ 1 → reading.2 = buildSyntheticReadings (landscape d)) ∧
    ((run (step arith) d events).mode ≠ 1 →
      (run (step arith) d events).curOrient = -1 ∨ (run (step arith) d events).curOrient = landscape d) ∧
    ∀ sample,
      ((afterOrientation arith sample (run (step arith) d events)).curOrient ≠ (run (step arith) d events).curOrient →
        List.replicate (gmtrDebounce+1) (afterOrientation arith sample (run (step arith) d events)).curOrient <:+
          observed (step arith) (classified arith) d (events++[.poll sample])) ∧
      ((run (step arith) d (events++[.poll sample])).curOrient ≠
          (afterOrientation arith sample (run (step arith) d events)).curOrient →
        (run (step arith) d events).mode ≠ 0 ∧ (run (step arith) d (events++[.poll sample])).mode = 0 ∧
          (run (step arith) d (events++[.poll sample])).curOrient = landscape d) := by
  obtain ⟨locked,counted⟩ := opened_kept opened
  obtain ⟨locked,counted⟩ := run_kept arith events locked counted
  refine ⟨locked.told,locked.held,?_⟩
  intro sample
  rw [observed_snoc,run_snoc]
  generalize observed (step arith) (classified arith) d events = samples at counted ⊢
  generalize run (step arith) d events = s at locked counted ⊢
  rw [classified,afterOrientation,step]
  rcases pollSensors_cases arith sample s with ⟨failed,poll⟩ | ⟨a1,a2,read,poll⟩
  · rw [failed,poll,(recoverI2c_untouched _ s).curOrient]
    exact ⟨fun moved => absurd rfl moved,fun moved => absurd rfl moved⟩
  · obtain ⟨first,_,due⟩ := orientation_step arith (negateX a1) locked counted
    rw [read,poll]
    refine ⟨fun moved => (replicate_suffix_iff _ _ _).mpr (due moved),?_⟩
    intro moved
    rcases updateHinge_cases arith a1 a2 (updateOrientationDebounce arith (negateX a1) s) with same | same | ⟨other,same⟩
    · exact absurd same.curOrient moved
    · exact absurd same.curOrient moved
    · rw [orientation_mode] at other
      exact ⟨other,same.mode,same.curOrient.trans first.panel⟩

end

end

theorem minibook_locked : mxc6655Open minibook = .ok minibookDevice ∧
    (run (step deskArithmetic) minibookDevice (List.replicate 6 (.poll deskSample))).mode = 0 ∧
    ((run (step deskArithmetic) minibookDevice (List.replicate 6 (.poll deskSample))).curOrient = -1 ∨
      (run (step deskArithmetic) minibookDevice (List.replicate 6 (.poll deskSample))).curOrient = landscape minibookDevice) := by
  have locked := (landscape_locked_outside_tablet_mode deskArithmetic minibook_opens (List.replicate 6 (.poll deskSample))).2.1
  exact ⟨minibook_opens,by decide,locked (by decide)⟩

-- The sixth laptop sample after opening sets the orientation, and none was classified.
theorem landscape_forced_unclassified :
    (run (step deskArithmetic) minibookDevice (List.replicate 6 (.poll deskSample))).curOrient ≠
      (run (step deskArithmetic) minibookDevice (List.replicate 5 (.poll deskSample))).curOrient ∧
    ¬ List.replicate (gmtrDebounce+1)
        (run (step deskArithmetic) minibookDevice (List.replicate 6 (.poll deskSample))).curOrient <:+
      observed (step deskArithmetic) (classified deskArithmetic) minibookDevice (List.replicate 6 (.poll deskSample)) := by
  decide

end ChuwiMinibook.LandscapeLock
