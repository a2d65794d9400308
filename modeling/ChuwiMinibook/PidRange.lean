import ChuwiMinibook.CdevActions
import ChuwiMinibook.PidHistory
import ChuwiMinibook.RaplCdev
import ChuwiMinibook.ZoneChecks

namespace ChuwiMinibook.PidRange
open Cdev CdevArbitration CdevBank RaplCdev PidHistory Machine
variable (srt : StdSort)

def pidKp : ℚ := -1000
def pidKi : ℚ := -100
def pidKd : ℚ := -10

-- The call ends in the branch of the device's own controller.
def acts (c : Cdev Rapl) (call : Call) : Bool :=
  match (arbitrate rapl srt c call.now call.request).2 with
  | none => false
  | some o => !o.targetStateValid && !call.request.hardTarget && !(call.request.pidParam.map (·.valid)).getD false &&
      c.dev.pidEnable

-- What that branch leaves of the device, and the state it passes on.
def controlled (d : Dev Rapl) (call : Call) : Dev Rapl :=
  {d with pidCtrl := ((d.pidCtrl.setTargetTemp call.request.targetTemp).pidOutput call.now call.request.temperature 0).1}

def pl1State (d : Dev Rapl) (call : Call) : Int :=
  let (_,output) := (d.pidCtrl.setTargetTemp call.request.targetTemp).pidOutput call.now call.request.temperature 0
  clampPid d.minState d.maxState (toInt (output + d.minState))

theorem beginAction_pid (d : Dev Rapl) (now : Int) (q : Request) :
    (beginAction rapl d now q).pidCtrl = d.pidCtrl ∧ (beginAction rapl d now q).pidEnable = d.pidEnable := by
  unfold beginAction
  dsimp only
  split <;> exact ⟨rfl,rfl⟩

theorem step_acts {c : Cdev Rapl} {call : Call} (acting : acts srt c call = true) :
    (step rapl srt c call).dev =
      let d := beginAction rapl c.dev call.now call.request
      put (controlled d call) (setCurrState (controlled d call) (pl1State d call) call.request.state) := by
  have sameEnable := (beginAction_pid c.dev call.now call.request).2
  unfold acts at acting
  unfold step thdCdevSetState
  generalize arbitrate rapl srt c call.now call.request = decided at acting ⊢
  obtain ⟨limits,order⟩ := decided
  cases order with
  | none => exact absurd acting (by simp)
  | some o =>
    simp only [Bool.and_eq_true,Bool.not_eq_true'] at acting
    obtain ⟨⟨⟨plain,soft⟩,shared⟩,enabled⟩ := acting
    show (actuate rapl c.dev call.now call.request o call.pid).1 = _
    unfold actuate
    dsimp only
    rw [if_neg (by simp [plain]),if_neg (by simp [soft]),if_neg (by simp [shared]),if_pos (by rw [sameEnable,enabled])]
    rfl

theorem step_idle {c : Cdev Rapl} {call : Call} (enabled : c.dev.pidEnable = true) (idle : acts srt c call = false) :
    (step rapl srt c call).dev.pidCtrl = c.dev.pidCtrl ∧ (step rapl srt c call).dev.pidEnable = c.dev.pidEnable := by
  obtain ⟨samePid,sameEnable⟩ := beginAction_pid c.dev call.now call.request
  unfold acts at idle
  unfold step thdCdevSetState
  generalize arbitrate rapl srt c call.now call.request = decided at idle ⊢
  obtain ⟨limits,order⟩ := decided
  cases order with
  | none => exact ⟨rfl,rfl⟩
  | some o =>
    show (actuate rapl c.dev call.now call.request o call.pid).1.pidCtrl = _ ∧
      (actuate rapl c.dev call.now call.request o call.pid).1.pidEnable = _
    unfold actuate
    dsimp only
    split
    · exact ⟨samePid,sameEnable⟩
    split
    · exact ⟨samePid,sameEnable⟩
    split
    · exact ⟨samePid,sameEnable⟩
    · rename_i targeted hard shared
      exact absurd idle (by simp [targeted,hard,shared,enabled])

def sample (c : Cdev Rapl) (call : Call) : List PidHistory.Sample :=
  if acts srt c call then
    [sampleOf (c.dev.pidCtrl.setTargetTemp call.request.targetTemp) call.now call.request.temperature]
  else []

-- The calls of the controller in a run, the newest first.
def history (c : Cdev Rapl) (calls : List Call) : List PidHistory.Sample :=
  (observed (step rapl srt) (sample srt) c calls).reverse

theorem history_snoc (c : Cdev Rapl) (calls : List Call) (call : Call) :
    history srt c (calls++[call]) = sample srt (run (step rapl srt) c calls) call++history srt c calls := by
  have single : (sample srt (run (step rapl srt) c calls) call).reverse = sample srt (run (step rapl srt) c calls) call := by
    unfold sample
    split <;> rfl
  rw [history,observed_snoc,List.reverse_append,single,history]

-- A device whose controller has followed the history.
structure Following (h : List PidHistory.Sample) (c : Cdev Rapl) : Prop where
  enabled : c.dev.pidEnable = true
  tracks : Tracks pidKp pidKi pidKd h c.dev.pidCtrl

theorem following_step {h : List PidHistory.Sample} {c : Cdev Rapl} (following : Following h c) {call : Call}
    (clock : call.now ≠ 0) : Following (sample srt c call++h) (step rapl srt c call) := by
  obtain ⟨enabled,tracks⟩ := following
  obtain ⟨samePid,sameEnable⟩ := beginAction_pid c.dev call.now call.request
  unfold sample
  cases acting : acts srt c call with
  | false =>
    obtain ⟨idlePid,idleEnable⟩ := step_idle srt enabled acting
    exact ⟨idleEnable.trans enabled,idlePid ▸ tracks⟩
  | true =>
    have next := compute_tracks (by decide) (tracks_retarget tracks call.request.targetTemp) clock call.request.temperature
    rw [if_pos rfl]
    refine ⟨?_,?_⟩
    · rw [step_acts srt acting]
      exact sameEnable.trans enabled
    · rw [step_acts srt acting]
      show Tracks pidKp pidKi pidKd _ ((Pid.setTargetTemp _ _).pidOutput _ _ 0).1
      rw [samePid]
      exact next.2

theorem following_run {c : Cdev Rapl} (start : Following [] c) (calls : List Call) (clock : ∀ call ∈ calls,call.now ≠ 0) :
    Following (history srt c calls) (run (step rapl srt) c calls) := by
  induction calls using List.reverseRecOn with
  | nil => exact start
  | append_singleton calls call ih =>
    rw [history_snoc,run_snoc]
    have before := ih (fun prior inside => clock prior (List.mem_append_left _ inside))
    exact following_step srt before (clock call (List.mem_append_right _ List.mem_cons_self))

theorem step_ends (c : Cdev Rapl) (call : Call) :
    (step rapl srt c call).dev.minState = c.dev.minState ∧ (step rapl srt c call).dev.maxState = c.dev.maxState :=
  CdevActions.setState_range rapl srt c call.now call.request call.pid

theorem run_ends (c : Cdev Rapl) (calls : List Call) :
    (run (step rapl srt) c calls).dev.minState = c.dev.minState ∧
      (run (step rapl srt) c calls).dev.maxState = c.dev.maxState := by
  induction calls using List.reverseRecOn with
  | nil => exact ⟨rfl,rfl⟩
  | append_singleton calls call ih =>
    obtain ⟨low,high⟩ := step_ends srt (run (step rapl srt) c calls) call
    rw [run_snoc]
    exact ⟨low.trans ih.1,high.trans ih.2⟩

def passed (c : Cdev Rapl) (call : Call) : Int := pl1State (beginAction rapl c.dev call.now call.request) call

theorem clampPid_down {low high : Int} (range : high < low) (value : Int) :
    clampPid low high value = max high (min low value) := by
  unfold clampPid
  rw [if_neg (by omega)]
  dsimp only
  split <;> split <;> omega

-- Conversion and addition, and the clamp after them. An output that is too small
-- still ends at max_state, one that is too large does as well.
theorem clamped_iff {low high : Int} (range : high < low) (positive : 0 < high) (fits : FitsInt low) (output : ℚ) :
    clampPid low high (toInt (Pid.ofDouble output + low)) = max high (min low (Pid.truncate output + low)) ↔
      Pid.truncate output ≤ 2147483647 - low := by
  obtain ⟨_,top⟩ := fits
  have lowest : toInt (-2147483648 + low) = -2147483648 + low := by
    refine toInt_fits ⟨?_,?_⟩ <;> omega
  rw [clampPid_down range,Pid.ofDouble]
  by_cases converts : FitsInt (Pid.truncate output)
  · obtain ⟨bottom,roof⟩ := converts
    rw [if_pos ⟨bottom,roof⟩]
    by_cases adds : Pid.truncate output ≤ 2147483647 - low
    · rw [toInt_fits ⟨by omega,by omega⟩]
      exact iff_of_true rfl adds
    · have wrapped : toInt (Pid.truncate output + low) = Pid.truncate output + low - 4294967296 := by
        unfold toInt
        rw [← Int.sub_bmod_right,Int.bmod_eq_of_le (by omega) (by omega)]
        rfl
      rw [wrapped]
      omega
  · have outside : Pid.truncate output < -2147483648 ∨ 2147483647 < Pid.truncate output := by
      unfold FitsInt at converts
      omega
    rw [if_neg converts,lowest]
    omega

-- How far below min_state the exact output leads, from the readings and their times.
def cut (h : List PidHistory.Sample) : ℚ :=
  match h with
  | [] => 0
  | s::_ => 1000*(s.error - first h) + 100*area h + 10*slope h

theorem exactOutput_cut (h : List PidHistory.Sample) : exactOutput pidKp pidKi pidKd h = -cut h := by
  cases h with
  | nil => rfl
  | cons s rest =>
    simp only [exactOutput,cut,pidKp,pidKi,pidKd]
    ring

-- The state that the branch produces is the clamp of the exact output, and neither
-- the conversion nor the addition leaves the int range.
structure Exactly (c : Cdev Rapl) (call : Call) (output : ℚ) : Prop where
  state : passed c call = max c.dev.maxState (min c.dev.minState (Pid.truncate output + c.dev.minState))
  conversion : FitsInt (Pid.truncate output)
  addition : FitsInt (Pid.truncate output + c.dev.minState)

theorem passed_value {h : List PidHistory.Sample} {c : Cdev Rapl} (following : Following h c) {call : Call}
    (clock : call.now ≠ 0) (acting : acts srt c call = true) :
    passed c call = clampPid c.dev.minState c.dev.maxState
      (toInt (Pid.ofDouble (exactOutput pidKp pidKi pidKd (sample srt c call++h)) + c.dev.minState)) := by
  have next := compute_tracks (by decide) (tracks_retarget following.tracks call.request.targetTemp) clock
    call.request.temperature
  have same := CdevActions.beginAction_range rapl c.dev call.now call.request
  unfold passed pl1State sample
  dsimp only
  rw [same.low,same.high,(beginAction_pid c.dev call.now call.request).1,if_pos acting]
  show clampPid _ _ (toInt (Pid.ofDouble (Pid.compute _ _ _ 0).2 + _)) = _
  rw [next.1]
  rfl

structure Started (c : Cdev Rapl) : Prop where
  following : Following [] c
  range : c.dev.maxState < c.dev.minState
  positive : 0 < c.dev.maxState
  fits : FitsInt c.dev.minState

theorem state_iff {h : List PidHistory.Sample} {c : Cdev Rapl} (following : Following h c) (range : c.dev.maxState < c.dev.minState)
    (positive : 0 < c.dev.maxState) (fits : FitsInt c.dev.minState) {call : Call} (clock : call.now ≠ 0)
    (acting : acts srt c call = true) :
    passed c call = max c.dev.maxState (min c.dev.minState
        (Pid.truncate (exactOutput pidKp pidKi pidKd (sample srt c call++h)) + c.dev.minState)) ↔
      -(2147483648 - c.dev.minState : ℚ) < cut (sample srt c call++h) := by
  have top := fits.2
  rw [passed_value srt following clock acting,clamped_iff range positive fits,truncate_le (by omega),exactOutput_cut]
  push_cast
  constructor <;> intro given <;> linarith

theorem exactly_iff {h : List PidHistory.Sample} {c : Cdev Rapl} (following : Following h c) (range : c.dev.maxState < c.dev.minState)
    (positive : 0 < c.dev.maxState) (fits : FitsInt c.dev.minState) {call : Call} (clock : call.now ≠ 0)
    (acting : acts srt c call = true) :
    Exactly c call (exactOutput pidKp pidKi pidKd (sample srt c call++h)) ↔
      -(2147483648 - c.dev.minState : ℚ) < cut (sample srt c call++h) ∧ cut (sample srt c call++h) < 2147483649 := by
  have top := fits.2
  have state := state_iff srt following range positive fits clock acting
  have upper : Pid.truncate (exactOutput pidKp pidKi pidKd (sample srt c call++h)) ≤ 2147483647 - c.dev.minState ↔
      -(2147483648 - c.dev.minState : ℚ) < cut (sample srt c call++h) := by
    rw [truncate_le (by omega),exactOutput_cut]
    push_cast
    constructor <;> intro given <;> linarith
  have lower : -2147483648 ≤ Pid.truncate (exactOutput pidKp pidKi pidKd (sample srt c call++h)) ↔
      cut (sample srt c call++h) < 2147483649 := by
    rw [le_truncate (by omega),exactOutput_cut]
    push_cast
    constructor <;> intro given <;> linarith
  rw [← upper,← lower]
  constructor
  · intro exactly
    obtain ⟨_,conversion,addition⟩ := exactly
    have bottom := conversion.1
    have roof := addition.2
    omega
  · intro given
    obtain ⟨roof,bottom⟩ := given
    refine ⟨state.mpr (upper.mp roof),⟨bottom,?_⟩,?_,?_⟩ <;> omega

def Reaches (c : Cdev Rapl) (before : List Call) (call : Call) : Prop :=
  acts srt (run (step rapl srt) c before) call = true

-- The cut that the readings so far and this one ask for.
def asksFor (c : Cdev Rapl) (before : List Call) (call : Call) : ℚ := cut (history srt c (before++[call]))

def exactly (c : Cdev Rapl) (before : List Call) (call : Call) : ℚ :=
  exactOutput pidKp pidKi pidKd (history srt c (before++[call]))

-- In every run each state of the controller is the exact one, without overflow,
-- exactly when each cut asked for lies between these bounds; the lower bound alone
-- decides whether the states are right.
theorem pid_in_range_iff {c : Cdev Rapl} (started : Started c) (calls : List Call) (clock : ∀ call ∈ calls,call.now ≠ 0) :
    (Stepwise (fun before call => Reaches srt c before call →
        Exactly (run (step rapl srt) c before) call (exactly srt c before call)) calls ↔
      Stepwise (fun before call => Reaches srt c before call →
        -(2147483648 - c.dev.minState : ℚ) < asksFor srt c before call ∧ asksFor srt c before call < 2147483649) calls) ∧
    (Stepwise (fun before call => Reaches srt c before call →
        passed (run (step rapl srt) c before) call =
          max c.dev.maxState (min c.dev.minState (Pid.truncate (exactly srt c before call) + c.dev.minState))) calls ↔
      Stepwise (fun before call => Reaches srt c before call →
        -(2147483648 - c.dev.minState : ℚ) < asksFor srt c before call) calls) := by
  obtain ⟨start,range,positive,fits⟩ := started
  have both (before : List Call) (call : Call) (after : List Call) (split : calls = before++call::after)
      (reaches : Reaches srt c before call) :
      (Exactly (run (step rapl srt) c before) call (exactly srt c before call) ↔
        -(2147483648 - c.dev.minState : ℚ) < asksFor srt c before call ∧ asksFor srt c before call < 2147483649) ∧
      (passed (run (step rapl srt) c before) call =
          max c.dev.maxState (min c.dev.minState (Pid.truncate (exactly srt c before call) + c.dev.minState)) ↔
        -(2147483648 - c.dev.minState : ℚ) < asksFor srt c before call) := by
    have inside (prior : Call) (earlier : prior ∈ before) : prior.now ≠ 0 :=
      clock prior (split ▸ List.mem_append_left _ earlier)
    have now : call.now ≠ 0 := clock call (split ▸ List.mem_append_right _ List.mem_cons_self)
    have following := following_run srt start before inside
    obtain ⟨low,high⟩ := run_ends srt c before
    rw [← low,← high] at range
    rw [← high] at positive
    rw [← low] at fits
    unfold exactly asksFor
    rw [history_snoc,← low,← high]
    exact ⟨exactly_iff srt following range positive fits now reaches,state_iff srt following range positive fits now reaches⟩
  constructor
  · refine stepwise_congr fun before call after split => forall_congr' fun reaches => ?_
    exact (both before call after split reaches).1
  · refine stepwise_congr fun before call after split => forall_congr' fun reaches => ?_
    exact (both before call after split reaches).2

-- A reading handed to one of the trips that share the device.
structure Reading where
  trip : Nat
  now : Int
  id : Int
  temp : Nat
  pref : Int

def check (s : List TripPoint × Cdev Rapl) (r : Reading) : List TripPoint × Cdev Rapl :=
  match s.1[r.trip]? with
  | none => s
  | some t =>
    let checked := TripPoint.thdTripPointCheck rapl srt false [] t [s.2] r.now r.id r.temp r.pref
    (s.1.set r.trip checked.trip,checked.cdevs.headD s.2)

theorem calls_of_ops {P : Call → Prop} (ops : List Op) (made : ∀ op ∈ ops,∃ call,op = .set call ∧ P call) (c : Cdev Rapl) :
    ∃ calls,run (apply rapl srt) c ops = run (step rapl srt) c calls ∧ ∀ call ∈ calls,P call := by
  induction ops generalizing c with
  | nil => exact ⟨[],rfl,by simp⟩
  | cons op rest ih =>
    obtain ⟨call,rfl,holds⟩ := made _ List.mem_cons_self
    obtain ⟨calls,same,all⟩ := ih (fun op inside => made op (List.mem_cons_of_mem _ inside)) (apply rapl srt c (.set call))
    exact ⟨call::calls,same,by simpa using ⟨holds,all⟩⟩

-- Every run of trip checks is such a run of calls, with the clocks and the
-- temperatures of its readings.
theorem checks_calls (s : List TripPoint × Cdev Rapl) (readings : List Reading) :
    ∃ calls,(run (check srt) s readings).2 = run (step rapl srt) s.2 calls ∧
      ∀ call ∈ calls,∃ r ∈ readings,call.now = r.now ∧ call.request.temperature = r.temp := by
  induction readings generalizing s with
  | nil => exact ⟨[],rfl,by simp⟩
  | cons r rest ih =>
    have one : ∃ calls,(check srt s r).2 = run (step rapl srt) s.2 calls ∧
        ∀ call ∈ calls,call.now = r.now ∧ call.request.temperature = r.temp := by
      unfold check
      split
      · exact ⟨[],rfl,by simp⟩
      · rename_i t found
        obtain ⟨trace,ran,made⟩ := (ZoneChecks.check_spec rapl srt false [] t [s.2] r.now r.id r.temp r.pref rfl).2.1
        have device := run_send rapl srt trace [s.2] 0
        rw [← ran,List.getElem?_cons_zero,Option.map_some] at device
        dsimp only
        rw [List.headD_eq_head?_getD,List.head?_eq_getElem?,device,Option.getD_some]
        refine calls_of_ops srt _ ?_ s.2
        intro op inside
        obtain ⟨x,member,rfl⟩ := List.mem_map.mp inside
        obtain ⟨call,same,now,_,_,temp,_⟩ := (made x (List.mem_filter.mp member).1).1
        exact ⟨call,same,now,temp⟩
    obtain ⟨early,first,ofFirst⟩ := one
    obtain ⟨late,second,ofLate⟩ := ih (check srt s r)
    refine ⟨early++late,?_,?_⟩
    · rw [run_cons,second,first,run_append]
    · intro call inside
      rcases List.mem_append.mp inside with before | after
      · exact ⟨r,List.mem_cons_self,ofFirst call before⟩
      · obtain ⟨r',member,same⟩ := ofLate call after
        exact ⟨r',List.mem_cons_of_mem _ member,same⟩

-- A package from 17 W down to 8 W under a passive trip at 50 degrees.
def package : Cdev Rapl :=
  ⟨0,"rapl_controller","",⟨17000000,8000000,17000000,0,0,-1000000,false,2,0,false,true,
    Pid.new.setPidParam pidKp pidKi pidKd,false,-1000000,-500000,
    ⟨17000000,true,0,28000000,1,0,9000000,false,true,17000000,8000000,28000000,500000,false,false,0,28000000,1⟩⟩,[]⟩

theorem package_started : Started package := ⟨⟨rfl,⟨⟨rfl,rfl,rfl⟩,rfl⟩⟩,by decide,by decide,by decide⟩

def passive : TripPoint :=
  {TripPoint.new 0 .passive 50000 0 1 65535 .parallel with
    cdevs := [⟨0,100,0,0,false,tripPtInvalidTargetState,TripPoint.invalidPid,Pid.new,false,0,0⟩]}

def reading (now : Int) (temp : Nat) : Reading := ⟨0,now,0,temp,prefEnergyConserve⟩

def request (temp : Nat) (state : Bool) : Request :=
  ⟨50000,temp,false,state,1,0,false,17000000,some TripPoint.invalidPid,false,false,0,0⟩

def heating : List Call := [⟨1000,request 60000 true,Pid.new⟩,⟨1010,request 60000 true,Pid.new⟩]

def cold : Call := ⟨2210,request 30000 false,Pid.new⟩

-- At max_state the hot readings pass the controller by. After twenty minutes of them
-- one cold reading counts for all that time: the exact output is 2420 W up, past the
-- int range, and the package stays at 8 W.
theorem cold_reading_throttles :
    (run (check StdSort.insertion) ([passive],package)
        [reading 1000 60000,reading 1010 60000,reading 1500 60000,reading 2210 30000]).2 =
      run (step rapl StdSort.insertion) package (heating++[cold]) ∧
    Reaches StdSort.insertion package heating cold ∧ exactly StdSort.insertion package heating cold = 2420000250 ∧
    passed (run (step rapl StdSort.insertion) package heating) cold = 8000000 ∧
    (run (step rapl StdSort.insertion) package (heating++[cold])).dev.currState = 8000000 ∧
    max package.dev.maxState (min package.dev.minState (Pid.truncate 2420000250 + package.dev.minState)) = 17000000 ∧
    ¬Stepwise (fun before call => Reaches StdSort.insertion package before call →
      Exactly (run (step rapl StdSort.insertion) package before) call (exactly StdSort.insertion package before call))
      (heating++[cold]) := by
  have reaches : Reaches StdSort.insertion package heating cold := by
    unfold Reaches
    decide +kernel
  have output : exactly StdSort.insertion package heating cold = 2420000250 := by decide +kernel
  refine ⟨by decide +kernel,reaches,output,by decide +kernel,by decide +kernel,by decide +kernel,?_⟩
  intro all
  have converted := (all heating cold [] rfl reaches).conversion
  rw [output] at converted
  exact absurd converted (by decide +kernel)

theorem pid_in_range_heating : Started package ∧ (∀ call ∈ heating,call.now ≠ 0) ∧
    Stepwise (fun before call => Reaches StdSort.insertion package before call →
      Exactly (run (step rapl StdSort.insertion) package before) call (exactly StdSort.insertion package before call))
      heating := by
  have clock : ∀ call ∈ heating,call.now ≠ 0 := by decide
  refine ⟨package_started,clock,(pid_in_range_iff StdSort.insertion package_started heating clock).1.mpr ?_⟩
  have one := stepwise_nil (fun before call => Reaches StdSort.insertion package before call →
    -(2147483648 - package.dev.minState : ℚ) < asksFor StdSort.insertion package before call ∧
      asksFor StdSort.insertion package before call < 2147483649)
  exact stepwise_snoc.mpr ⟨stepwise_snoc.mpr ⟨one,fun _ => by decide +kernel⟩,fun _ => by decide +kernel⟩

end ChuwiMinibook.PidRange
