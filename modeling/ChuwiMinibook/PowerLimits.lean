import ChuwiMinibook.CdevActions
import ChuwiMinibook.CdevBank
import ChuwiMinibook.RaplCdev

namespace ChuwiMinibook.PowerLimits
open Cdev CdevArbitration CdevBank RaplCdev Machine StdString

-- Every access to the registers succeeds.
def Accessible (d : Dev Rapl) : Prop := d.ext.pl1Writable = true ∧ d.ext.biosLocked = false

-- The shadow state and the register agree.
def Agrees (d : Dev Rapl) : Prop := Accessible d ∧ d.currState = d.ext.pl1

-- A state written through set_curr_state reaches the register and the shadow.
theorem setCurrState_agrees {d : Dev Rapl} (accessible : Accessible d) (state : Int) (control : Bool) :
    (setCurrState d state control).1 = written d state ∧
      (setCurrState d state control).2.pl1 = written d state ∧
      (setCurrState d state control).2.pl1Writable = true ∧ (setCurrState d state control).2.biosLocked = false := by
  obtain ⟨writable,unlocked⟩ := accessible
  obtain ⟨same,locked⟩ := constrain_accessible d state control
  rw [writable] at same
  rw [unlocked] at locked
  simp [setCurrState,raplUpdatePl1,unlocked,same,locked]

theorem put_agrees {d : Dev Rapl} (accessible : Accessible d) (state : Int) (control : Bool) :
    Agrees (put d (setCurrState d state control)) := by
  obtain ⟨shadow,register,writable,unlocked⟩ := setCurrState_agrees accessible state control
  exact ⟨⟨writable,unlocked⟩,shadow.trans register.symm⟩

-- The targets set_curr_state can really set: those strictly inside the range,
-- and the one it restores at its upper end.
def Attainable (d : Dev Rapl) (value : Int) : Prop :=
  d.maxState ≤ value ∧ value < d.minState ∨
    value = restored d ∧ (d.minState ≤ value ∨ value < d.maxState ∧ d.minState ≤ d.maxState)

theorem attainable_iff (d : Dev Rapl) (value : Int) : Attainable d value ↔ written d value = value := by
  unfold Attainable written
  dsimp only
  by_cases below : value < d.maxState
  · rw [if_pos below]
    by_cases above : d.maxState ≥ d.minState
    · rw [if_pos above]
      constructor
      · intro given
        rcases given with ⟨inside,_⟩ | ⟨same,_⟩
        · omega
        · exact same.symm
      · intro same
        exact .inr ⟨same.symm,.inr ⟨below,above⟩⟩
    · rw [if_neg above]
      constructor
      · rintro (⟨inside,_⟩ | ⟨_,high | ⟨_,inverted⟩⟩) <;> omega
      · intro same
        omega
  · rw [if_neg below]
    by_cases above : value ≥ d.minState
    · rw [if_pos above]
      constructor
      · intro given
        rcases given with ⟨_,inside⟩ | ⟨same,_⟩
        · omega
        · exact same.symm
      · intro same
        exact .inr ⟨same.symm,.inl above⟩
    · rw [if_neg above]
      exact ⟨fun _ => rfl,fun _ => .inl ⟨by omega,by omega⟩⟩

theorem controller_agrees {d : Dev Rapl} (accessible : Accessible d) (state : Bool) (low high : Int) :
    Agrees (thdCdevExponentialController rapl d state low high) := by
  have increased (current : Int) : Accessible (increase d current).1 := by
    unfold increase
    dsimp only
    split
    · split <;> split <;> exact accessible
    · exact accessible
  unfold thdCdevExponentialController
  split
  · have ready : Accessible {(increase d (thdClampStateMin d (getCurrStateAgain d) low)).1 with
        trendIncrease := true} := increased _
    exact put_agrees ready _ _
  · have ready : Accessible {d with currPow := 0,trendIncrease := false} := accessible
    exact put_agrees ready _ _

theorem actuate_agrees {d : Dev Rapl} (accessible : Accessible d) (now : Int) (q : Request) (o : Order) (pid : Pid)
    (attainable : o.targetStateValid = true → Attainable d o.targetValue) :
    Agrees (actuate rapl d now q o pid).1 := by
  obtain ⟨low,high,ext⟩ := CdevActions.beginAction_range rapl d now q
  have ready : Accessible (beginAction rapl d now q) := by
    rw [Accessible,ext]
    exact accessible
  unfold actuate
  dsimp only
  split
  · rename_i valid
    have same : written (beginAction rapl d now q) o.targetValue = o.targetValue := by
      rw [← attainable_iff]
      simpa only [Attainable,restored,ext,low,high] using attainable valid
    obtain ⟨_,register,writable,unlocked⟩ := setCurrState_agrees ready o.targetValue q.state
    exact ⟨⟨writable,unlocked⟩,same.symm.trans register.symm⟩
  split
  · exact put_agrees ready _ _
  split
  · exact put_agrees ready _ _
  split
  · have kept : Accessible {beginAction rapl d now q with pidCtrl :=
        (((beginAction rapl d now q).pidCtrl.setTargetTemp q.targetTemp).pidOutput now q.temperature 0).1} := ready
    exact put_agrees kept _ _
  split
  · exact controller_agrees ready _ _ _
  · exact controller_agrees ready _ _ _

variable (srt : StdSort)

-- The order that arbitration hands to the controller, if it acts at all.
def selected (c : Cdev Rapl) : Op → Option Order
  | .set call => (arbitrate rapl srt c call.now call.request).2
  | .setMin now zone trip => (arbitrate rapl srt (calm c) now (minStateRequest (calm c).dev zone trip)).2

-- The device, with the state the thermal controller set last.
structure Watched where
  cdev : Cdev Rapl
  lastSet : Int

inductive Event where
  | request (power : Int) (op : Op)
  | target (t : AdaptiveTarget)

-- none once an argument that is no number has ended the daemon.
def act (w : Watched) : Event → Option Watched
  | .request power op =>
    let c := apply rapl srt (metered power w.cdev) op
    some ⟨c,if (selected srt (metered power w.cdev) op).isSome then c.dev.currState else w.lastSet⟩
  | .target t => (setAdaptiveTarget w.cdev.dev t).map (fun dev => ⟨{w.cdev with dev := dev},w.lastSet⟩)

def step (w : Option Watched) (event : Event) : Option Watched := w.bind (act srt · event)

-- The requests carry targets the device can set; a PL1PowerLimit repeats the
-- limit in force, and a new range does not lift the limit over the state that
-- the controller set last.
def Respectful (w : Watched) : Event → Prop
  | .request power op => ∀ o,selected srt (metered power w.cdev) op = some o → o.targetStateValid = true →
      Attainable w.cdev.dev o.targetValue
  | .target t => ∀ argument,stoi t.argument = some argument →
      (t.code = "PL1PowerLimit" → toInt (argument*1000) = w.cdev.dev.currState) ∧
      (t.code = "PL1MAX" → toInt (argument*1000) < w.cdev.dev.currState →
        (if w.cdev.dev.ext.powerOnConstraint0Pwr ≠ 0 then w.cdev.dev.ext.powerOnConstraint0Pwr
          else toInt (argument*1000)) ≤ w.lastSet) ∧
      (t.code = "PL1MIN" → w.cdev.dev.currState < toInt (argument*1000) →
        (if w.cdev.dev.minState ≤ toInt (argument*1000) then restored w.cdev.dev
          else toInt (argument*1000)) ≤ w.lastSet)

def Inv (w : Watched) : Prop := Agrees w.cdev.dev ∧ w.cdev.dev.ext.pl1 ≤ w.lastSet

theorem setState_agrees {c : Cdev Rapl} {now : Int} {q : Request} (pid : Pid) (agrees : Agrees c.dev)
    (attainable : ∀ o,(arbitrate rapl srt c now q).2 = some o → o.targetStateValid = true →
      Attainable c.dev o.targetValue) : Agrees (thdCdevSetState rapl srt c now q pid).1.dev := by
  cases decided : arbitrate rapl srt c now q with
  | mk limits order =>
    cases order with
    | none =>
      rw [setState_ignored rapl srt pid decided]
      exact agrees
    | some o =>
      unfold thdCdevSetState
      rw [decided]
      exact actuate_agrees agrees.1 now q o pid (attainable o (by rw [decided]))

theorem inv_request {w : Watched} (inv : Inv w) {power : Int} {op : Op}
    (respectful : Respectful srt w (.request power op)) : ∀ w',act srt w (.request power op) = some w' → Inv w' := by
  intro w' done
  cases done
  have metered_agrees : Agrees (metered power w.cdev).dev := inv.1
  have bounded : (metered power w.cdev).dev.ext.pl1 ≤ w.lastSet := inv.2
  have attainable : ∀ o,selected srt (metered power w.cdev) op = some o → o.targetStateValid = true →
      Attainable (metered power w.cdev).dev o.targetValue := respectful
  generalize metered power w.cdev = c at metered_agrees bounded attainable ⊢
  have agrees : Agrees (apply rapl srt c op).dev := by
    cases op with
    | set call => exact setState_agrees srt call.pid metered_agrees attainable
    | setMin now zone trip =>
      have calmed : Agrees (calm c).dev := metered_agrees
      exact setState_agrees srt Pid.new calmed attainable
  refine ⟨agrees,?_⟩
  cases order : selected srt c op with
  | some o => exact le_of_eq agrees.2.symm
  | none =>
    have register : (apply rapl srt c op).dev.ext = c.dev.ext := by
      cases op with
      | set call =>
        have decided : arbitrate rapl srt c call.now call.request = (_,none) := Prod.ext rfl order
        exact congrArg Dev.ext (setState_ignored rapl srt call.pid decided)
      | setMin now zone trip =>
        have decided : arbitrate rapl srt (calm c) now (minStateRequest (calm c).dev zone trip) =
          (_,none) := Prod.ext rfl order
        have ignored := congrArg Dev.ext (setState_ignored rapl srt Pid.new decided)
        exact ignored
    show (apply rapl srt c op).dev.ext.pl1 ≤ w.lastSet
    rw [register]
    exact bounded

theorem inv_pl1Max {w : Watched} (inv : Inv w) {power : Int}
    (range : power < w.cdev.dev.currState → (if w.cdev.dev.ext.powerOnConstraint0Pwr ≠ 0 then
      w.cdev.dev.ext.powerOnConstraint0Pwr else power) ≤ w.lastSet) :
    Inv ⟨{w.cdev with dev := setPl1Max w.cdev.dev power},w.lastSet⟩ := by
  obtain ⟨⟨accessible,agree⟩,bounded⟩ := inv
  let d : Dev Rapl := {w.cdev.dev with minState := power,ext := {w.cdev.dev.ext with pl0MaxPwr := power}}
  have ready : Accessible d := accessible
  have matching : ¬ w.cdev.dev.currState > w.cdev.dev.ext.pl1 := by omega
  have result : setPl1Max w.cdev.dev power = if d.currState > power then setState d power else d := by
    unfold setPl1Max
    dsimp only
    rw [if_neg matching]
  rw [Inv,result]
  split
  · rename_i lower
    obtain ⟨_,register,_,_⟩ := setCurrState_agrees ready power true
    have value : written d power = if w.cdev.dev.ext.powerOnConstraint0Pwr ≠ 0 then
        w.cdev.dev.ext.powerOnConstraint0Pwr else power := by
      unfold written
      have top : (if power < d.maxState then d.maxState else power) ≥ d.minState := by
        show (if power < d.maxState then d.maxState else power) ≥ power
        split <;> omega
      exact if_pos top
    refine ⟨put_agrees ready power true,?_⟩
    show (setCurrState d power true).2.pl1 ≤ w.lastSet
    rw [register,value]
    exact range lower
  · exact ⟨⟨ready,agree⟩,bounded⟩

theorem inv_pl1Min {w : Watched} (inv : Inv w) {power : Int}
    (range : w.cdev.dev.currState < power →
      (if w.cdev.dev.minState ≤ power then restored w.cdev.dev else power) ≤ w.lastSet) :
    Inv ⟨{w.cdev with dev := setPl1Min w.cdev.dev power},w.lastSet⟩ := by
  obtain ⟨⟨accessible,agree⟩,bounded⟩ := inv
  let d : Dev Rapl := {w.cdev.dev with maxState := power,ext := {w.cdev.dev.ext with pl0MinPwr := power}}
  have ready : Accessible d := accessible
  have result : setPl1Min w.cdev.dev power = if d.currState < power then setState d power else d := rfl
  rw [Inv,result]
  split
  · rename_i higher
    obtain ⟨_,register,_,_⟩ := setCurrState_agrees ready power true
    have value : written d power = if w.cdev.dev.minState ≤ power then restored w.cdev.dev else power := by
      unfold written
      rw [if_neg (show ¬ power < d.maxState from lt_irrefl power)]
      rfl
    refine ⟨put_agrees ready power true,?_⟩
    show (setCurrState d power true).2.pl1 ≤ w.lastSet
    rw [register,value]
    exact range higher
  · exact ⟨⟨ready,agree⟩,bounded⟩

theorem inv_target {w : Watched} (inv : Inv w) {t : AdaptiveTarget} (respectful : Respectful srt w (.target t)) :
    ∀ w',act srt w (.target t) = some w' → Inv w' := by
  intro w' done
  obtain ⟨dev,set,rfl⟩ := Option.map_eq_some_iff.mp done
  unfold setAdaptiveTarget at set
  obtain ⟨argument,parsed,rfl⟩ := Option.map_eq_some_iff.mp set
  obtain ⟨repeats,lowers,raises⟩ := respectful argument parsed
  dsimp only
  split
  · rename_i code
    exact inv_pl1Max inv (lowers code)
  split
  · rename_i code
    exact inv_pl1Min inv (raises code)
  split
  · exact inv
  split
  · exact inv
  split
  · rename_i code
    obtain ⟨⟨⟨writable,unlocked⟩,agree⟩,bounded⟩ := inv
    have same : raplUpdatePl1 w.cdev.dev.ext (toInt (argument*1000)) = w.cdev.dev.ext := by
      rw [raplUpdatePl1,if_pos writable,repeats code,agree]
    rw [same]
    exact ⟨⟨⟨writable,unlocked⟩,agree⟩,bounded⟩
  split
  · unfold raplUpdatePl2
    split <;> exact inv
  split
  · exact inv
  · exact inv

-- The device after update() on the MiniBook's own range, and a MAX trip on it.
def minibookRapl : Cdev Rapl :=
  ⟨0,"rapl_controller_mmio","B0D4",⟨17000000,8000000,17000000,0,0,1,false,2,0,false,true,Pid.new,false,-1000000,-500000,
    ⟨17000000,true,25000000,28000000,1,10,6000000,true,true,17000000,8000000,0,500000,false,false,0,28000000,1⟩⟩,[]⟩

def maxTrip : Op := .set ⟨100,⟨80000,90000,true,true,0,0,false,0,none,false,false,0,0⟩,Pid.new⟩

def powerLimit (argument : String) : Event := .target ⟨7,"","",0,"PL1PowerLimit",argument⟩

end ChuwiMinibook.PowerLimits
