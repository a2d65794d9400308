import ChuwiMinibook.RaplWrites

namespace ChuwiMinibook.RaplRange
open Cdev RaplCdev RaplWrites Machine StdString

-- rapl_read_pl1: a failed read is THD_ERROR.
def raplReadPl1 (read : Option Int) : Int := read.getD (-1)

-- set_adaptive_target with the result of its read and of its PL1 writes.
def setPl1MaxWith (read : Option Int) (first second : Int) (d : Dev Rapl) (power : Int) : Dev Rapl :=
  let d := {d with minState := power,ext := {d.ext with pl0MaxPwr := power}}
  let pl1 := raplReadPl1 read
  let d := if d.currState > pl1 then setCurrStateWith first d pl1 true else d
  if d.currState > d.minState then setCurrStateWith second d d.minState true else d

def setPl1MinWith (first : Int) (d : Dev Rapl) (power : Int) : Dev Rapl :=
  let d := {d with maxState := power,ext := {d.ext with pl0MinPwr := power}}
  if d.currState < d.maxState then setCurrStateWith first d d.maxState true else d

def setAdaptiveTargetWith (read : Option Int) (first second : Int) (d : Dev Rapl) (t : AdaptiveTarget) :
    Option (Dev Rapl) :=
  if t.code = "PL1MAX" then (stoi t.argument).map (fun argument => setPl1MaxWith read first second d (toInt (argument*1000)))
  else if t.code = "PL1MIN" then (stoi t.argument).map (fun argument => setPl1MinWith first d (toInt (argument*1000)))
  else setAdaptiveTarget d t

theorem setState_with (d : Dev Rapl) (state : Int) :
    setState d state = setCurrStateWith (if d.ext.pl1Writable then 1 else -enodata) d state true :=
  setCurrState_with d state true

theorem setState_writable (d : Dev Rapl) (state : Int) : (setState d state).ext.pl1Writable = d.ext.pl1Writable := by
  have same := (constrain_accessible d state true).1
  unfold setState setCurrState raplUpdatePl1
  dsimp only [put]
  split_ifs <;> first | rfl | exact same

theorem setAdaptiveTarget_with (d : Dev Rapl) (t : AdaptiveTarget) :
    setAdaptiveTarget d t = setAdaptiveTargetWith (some d.ext.pl1) (if d.ext.pl1Writable then 1 else -enodata)
      (if d.ext.pl1Writable then 1 else -enodata) d t := by
  unfold setAdaptiveTargetWith
  split
  · rename_i code
    have same (power : Int) : setPl1Max d power = setPl1MaxWith (some d.ext.pl1) (if d.ext.pl1Writable then 1 else -enodata)
        (if d.ext.pl1Writable then 1 else -enodata) d power := by
      unfold setPl1Max setPl1MaxWith
      dsimp only [raplReadPl1,Option.getD_some]
      split
      · rw [← setState_with {d with minState := power,ext := {d.ext with pl0MaxPwr := power}},setState_with (setState _ _),
          setState_writable]
      · rw [setState_with]
    unfold setAdaptiveTarget
    simp only [code,if_true,same]
  split
  · rename_i code
    have same (power : Int) : setPl1Min d power = setPl1MinWith (if d.ext.pl1Writable then 1 else -enodata) d power := by
      unfold setPl1Min setPl1MinWith
      dsimp only
      split
      · rw [setState_with]
      · rfl
    unfold setAdaptiveTarget
    simp only [code,same]
    rfl
  · rfl

inductive Call
  | set (state : Int) (control : Bool) (ret : Int)
  | target (t : AdaptiveTarget) (read : Option Int) (first second : Int)

def step (d : Dev Rapl) : Call → Dev Rapl
  | .set state control ret => setCurrStateWith ret d state control
  | .target t read first second => (setAdaptiveTargetWith read first second d t).getD d

-- A PPCC device: no limit of power on is known, and no BIOS lock was seen.
structure Ppcc (d : Dev Rapl) : Prop where
  unlocked : d.ext.biosLocked = false
  unknown : d.ext.powerOnConstraint0Pwr = 0
  range : d.maxState < d.minState

structure InRange (d : Dev Rapl) : Prop where
  low : d.maxState ≤ d.currState
  high : d.currState ≤ d.minState

-- The calls of the runs: targets PL1MAX and PL1MIN of 1 to 2000000 mW that leave a
-- range, and any results but a BIOS lock.
def Admitted (d : Dev Rapl) : Call → Prop
  | .set _ _ ret => ret ≠ -enodata
  | .target t _ first second => first ≠ -enodata ∧ second ≠ -enodata ∧
    ∃ argument,stoi t.argument = some argument ∧ 1 ≤ argument ∧ argument ≤ 2000000 ∧
      (t.code = "PL1MAX" ∧ d.maxState < argument*1000 ∨ t.code = "PL1MIN" ∧ argument*1000 < d.minState)

-- In a call made inside the new range curr_state moves only to a lower limit read.
def Steady (d : Dev Rapl) (call : Call) : Prop :=
  ∀ t read first second,call = .target t read first second →
    (step d call).maxState ≤ d.currState → d.currState ≤ (step d call).minState →
    (step d call).currState ≠ d.currState → t.code = "PL1MAX" ∧ ∃ pl1,read = some pl1 ∧ pl1 < d.currState

-- The read of PL1MAX succeeds, or there is nothing left to throttle.
def Answered (d : Dev Rapl) : Call → Prop
  | .set _ _ _ => True
  | .target t read _ _ => t.code = "PL1MAX" → (∀ argument,stoi t.argument = some argument → d.currState ≤ argument*1000) →
    read = none → d.currState ≤ max d.maxState (-1)

theorem constrain_powerOn (d : Dev Rapl) (state : Int) (control : Bool) :
    (constrain d state control).powerOnConstraint0Pwr = d.ext.powerOnConstraint0Pwr := by
  unfold constrain
  dsimp only
  split_ifs <;> rfl

theorem written_ppcc {d : Dev Rapl} (ppcc : Ppcc d) (state : Int) :
    written d state = min (max state d.maxState) d.minState := by
  have range := ppcc.range
  have low : restored d = d.minState := (restored_minState d).mpr (.inl ppcc.unknown)
  unfold written
  rw [low]
  dsimp only
  split <;> split <;> omega

theorem refuse_other {ret : Int} (other : ret ≠ -enodata) (d : Dev Rapl) (state : Int) :
    (refuse ret d state).ext = d.ext := by
  unfold refuse
  rw [if_neg other]

theorem raplUpdatePl1With_same (ret pl1 : Int) (r : Rapl) :
    (raplUpdatePl1With ret pl1 r).1.biosLocked = r.biosLocked ∧
      (raplUpdatePl1With ret pl1 r).1.powerOnConstraint0Pwr = r.powerOnConstraint0Pwr ∧
      ((raplUpdatePl1With ret pl1 r).2 = ret ∨ (raplUpdatePl1With ret pl1 r).2 = 0) := by
  unfold raplUpdatePl1With
  split
  · exact ⟨rfl,rfl,.inl rfl⟩
  · exact ⟨rfl,rfl,.inr rfl⟩

theorem setCurrStateWith_ppcc {d : Dev Rapl} (ppcc : Ppcc d) {ret : Int} (other : ret ≠ -enodata) (state : Int) (control : Bool) :
    Ppcc (setCurrStateWith ret d state control) := by
  obtain ⟨low,high⟩ := setCurrStateWith_range ret d state control
  have same : (setCurrStateWith ret d state control).ext =
      (raplUpdatePl1With ret (written d state) (constrain d state control)).1 := by
    obtain ⟨_,_,answer⟩ := raplUpdatePl1With_same ret (written d state) (constrain d state control)
    unfold setCurrStateWith
    rw [if_neg (by simp [ppcc.unlocked])]
    dsimp only
    split
    · refine refuse_other ?_ _ _
      rcases answer with kept | zero
      · rwa [kept]
      · rw [zero]
        decide
    · rfl
  obtain ⟨locked,power,_⟩ := raplUpdatePl1With_same ret (written d state) (constrain d state control)
  refine ⟨?_,?_,?_⟩
  · rw [same,locked,(constrain_accessible d state control).2]
    exact ppcc.unlocked
  · rw [same,power,constrain_powerOn]
    exact ppcc.unknown
  · rw [low,high]
    exact ppcc.range

theorem setCurrStateWith_value {d : Dev Rapl} (ppcc : Ppcc d) (ret state : Int) (control : Bool) :
    (setCurrStateWith ret d state control).currState = min (max state d.maxState) d.minState := by
  rw [setCurrStateWith_unlocked ppcc.unlocked,written_ppcc ppcc]

-- set_adaptive_target for PL1MAX on a PPCC device.
theorem setPl1MaxWith_ppcc {d : Dev Rapl} (ppcc : Ppcc d) {power : Int} (above : d.maxState < power) (read : Option Int)
    {first second : Int} (one : first ≠ -enodata) (two : second ≠ -enodata) :
    Ppcc (setPl1MaxWith read first second d power) ∧ (setPl1MaxWith read first second d power).minState = power ∧
      (setPl1MaxWith read first second d power).maxState = d.maxState ∧
      (setPl1MaxWith read first second d power).currState =
        min (if d.currState > raplReadPl1 read then max (raplReadPl1 read) d.maxState else d.currState) power := by
  let lowered : Dev Rapl := {d with minState := power,ext := {d.ext with pl0MaxPwr := power}}
  have start : Ppcc lowered := ⟨ppcc.unlocked,ppcc.unknown,above⟩
  have unfolded : setPl1MaxWith read first second d power =
      let read := if d.currState > raplReadPl1 read then setCurrStateWith first lowered (raplReadPl1 read) true else lowered
      if read.currState > read.minState then setCurrStateWith second read read.minState true else read := rfl
  have middle (m : Dev Rapl) (kept : Ppcc m) (low : m.minState = power) (high : m.maxState = d.maxState) :
      let last := if m.currState > m.minState then setCurrStateWith second m m.minState true else m
      Ppcc last ∧ last.minState = power ∧ last.maxState = d.maxState ∧ last.currState = min m.currState power := by
    dsimp only
    split
    · obtain ⟨same,again⟩ := setCurrStateWith_range second m m.minState true
      refine ⟨setCurrStateWith_ppcc kept two _ _,same.trans low,again.trans high,?_⟩
      rw [setCurrStateWith_value kept]
      omega
    · exact ⟨kept,low,high,by omega⟩
  rw [unfolded]
  dsimp only
  split
  · obtain ⟨same,again⟩ := setCurrStateWith_range first lowered (raplReadPl1 read) true
    obtain ⟨kept,low,high,value⟩ := middle _ (setCurrStateWith_ppcc start one (raplReadPl1 read) true) same again
    refine ⟨kept,low,high,value.trans ?_⟩
    rw [setCurrStateWith_value start]
    show min (min (max (raplReadPl1 read) d.maxState) power) power = _
    rw [min_assoc,min_self]
  · exact middle lowered start rfl rfl

theorem setPl1MinWith_ppcc {d : Dev Rapl} (ppcc : Ppcc d) {power : Int} (below : power < d.minState)
    {first : Int} (one : first ≠ -enodata) :
    Ppcc (setPl1MinWith first d power) ∧ (setPl1MinWith first d power).minState = d.minState ∧
      (setPl1MinWith first d power).maxState = power ∧
      (setPl1MinWith first d power).currState = if d.currState < power then power else d.currState := by
  let raised : Dev Rapl := {d with maxState := power,ext := {d.ext with pl0MinPwr := power}}
  have start : Ppcc raised := ⟨ppcc.unlocked,ppcc.unknown,below⟩
  have unfolded : setPl1MinWith first d power =
      if d.currState < power then setCurrStateWith first raised power true else raised := rfl
  rw [unfolded]
  split
  · obtain ⟨same,again⟩ := setCurrStateWith_range first raised power true
    refine ⟨setCurrStateWith_ppcc start one _ _,same,again,?_⟩
    rw [setCurrStateWith_value start]
    show min (max power power) d.minState = power
    omega
  · exact ⟨start,rfl,rfl,rfl⟩

theorem toInt_milliwatts {argument : Int} (low : 1 ≤ argument) (high : argument ≤ 2000000) :
    toInt (argument*1000) = argument*1000 := by
  refine toInt_fits ⟨?_,?_⟩ <;> omega

theorem step_pl1Max {t : AdaptiveTarget} (code : t.code = "PL1MAX") {argument : Int} (number : stoi t.argument = some argument)
    (low : 1 ≤ argument) (high : argument ≤ 2000000) (d : Dev Rapl) (read : Option Int) (first second : Int) :
    step d (.target t read first second) = setPl1MaxWith read first second d (argument*1000) := by
  show (setAdaptiveTargetWith read first second d t).getD d = _
  rw [setAdaptiveTargetWith,if_pos code,number,Option.map_some,toInt_milliwatts low high]
  rfl

theorem step_pl1Min {t : AdaptiveTarget} (code : t.code = "PL1MIN") {argument : Int} (number : stoi t.argument = some argument)
    (low : 1 ≤ argument) (high : argument ≤ 2000000) (d : Dev Rapl) (read : Option Int) (first second : Int) :
    step d (.target t read first second) = setPl1MinWith first d (argument*1000) := by
  show (setAdaptiveTargetWith read first second d t).getD d = _
  rw [setAdaptiveTargetWith,if_neg (by rw [code]; decide),if_pos code,number,Option.map_some,toInt_milliwatts low high]
  rfl

-- What a run keeps.
structure Sane (d : Dev Rapl) : Prop where
  ppcc : Ppcc d
  inside : InRange d

theorem sane_step {d : Dev Rapl} (sane : Sane d) {call : Call} (admitted : Admitted d call) : Sane (step d call) := by
  obtain ⟨ppcc,inside⟩ := sane
  have range := ppcc.range
  obtain ⟨low,high⟩ := inside
  cases call with
  | set state control ret =>
    obtain ⟨same,again⟩ := setCurrStateWith_range ret d state control
    have value := setCurrStateWith_value ppcc ret state control
    refine ⟨setCurrStateWith_ppcc ppcc admitted _ _,?_,?_⟩
    · show (setCurrStateWith ret d state control).maxState ≤ (setCurrStateWith ret d state control).currState
      omega
    · show (setCurrStateWith ret d state control).currState ≤ (setCurrStateWith ret d state control).minState
      omega
  | target t read first second =>
    obtain ⟨one,two,argument,number,least,most,codes⟩ := admitted
    rcases codes with ⟨code,above⟩ | ⟨code,below⟩
    · obtain ⟨kept,same,again,value⟩ := setPl1MaxWith_ppcc ppcc above read one two
      rw [step_pl1Max code number least most]
      refine ⟨kept,?_,?_⟩
      · rw [again,value]
        split <;> omega
      · rw [same,value]
        omega
    · obtain ⟨kept,same,again,value⟩ := setPl1MinWith_ppcc ppcc below one
      rw [step_pl1Min code number least most]
      refine ⟨kept,?_,?_⟩
      · rw [again,value]
        split <;> omega
      · rw [same,value]
        split <;> omega

theorem steady_iff {d : Dev Rapl} (sane : Sane d) {call : Call} (admitted : Admitted d call) :
    Steady d call ↔ Answered d call := by
  obtain ⟨ppcc,inside⟩ := sane
  obtain ⟨low,high⟩ := inside
  cases call with
  | set state control ret => exact ⟨fun _ => trivial,fun _ t read first second other => absurd other (by simp)⟩
  | target t read first second =>
    obtain ⟨one,two,argument,number,least,most,codes⟩ := admitted
    rcases codes with ⟨code,above⟩ | ⟨code,below⟩
    · obtain ⟨_,same,again,value⟩ := setPl1MaxWith_ppcc ppcc above read one two
      have stepped := step_pl1Max code number least most d read first second
      rw [← stepped] at same again value
      constructor
      · intro steady _ within failed
        have reached := within argument number
        by_contra more
        have moved := steady t read first second rfl (by omega) (by omega) (by
          rw [value,failed]
          show min (if d.currState > -1 then max (-1) d.maxState else d.currState) _ ≠ _
          split <;> omega)
        obtain ⟨_,pl1,success,_⟩ := moved
        rw [failed] at success
        exact absurd success (by simp)
      · intro answered t' read' first' second' equal inLow inHigh moved
        obtain ⟨rfl,rfl,rfl,rfl⟩ := Call.target.inj equal
        refine ⟨code,?_⟩
        rw [same] at inHigh
        cases read with
        | some pl1 =>
          refine ⟨pl1,rfl,?_⟩
          by_contra least
          rw [value] at moved
          refine moved ?_
          show min (if d.currState > pl1 then max pl1 d.maxState else d.currState) _ = _
          rw [if_neg (by omega)]
          omega
        | none =>
          have floor := answered code (fun other found => by
            rw [number] at found
            obtain rfl := Option.some.inj found
            exact inHigh) rfl
          rw [value] at moved
          refine absurd ?_ moved
          show min (if d.currState > -1 then max (-1) d.maxState else d.currState) _ = _
          split <;> omega
    · obtain ⟨_,same,again,value⟩ := setPl1MinWith_ppcc ppcc below one
      have stepped := step_pl1Min code number least most d read first second
      rw [← stepped] at same again value
      constructor
      · intro _ other
        rw [code] at other
        exact absurd other (by decide)
      · intro _ t' read' first' second' equal inLow inHigh moved
        refine absurd ?_ moved
        obtain ⟨rfl,rfl,rfl,rfl⟩ := Call.target.inj equal
        rw [value,if_neg (by omega)]

-- Over all runs: the range is kept, and curr_state is steady exactly when no failed
-- read meets a state above the lower end.
theorem reranging_iff {d : Dev Rapl} (ppcc : Ppcc d) (inside : InRange d) (calls : List Call)
    (admitted : Meets step Admitted d calls) :
    (∀ before call after,calls = before++call::after → InRange (step (run step d before) call)) ∧
    (Stepwise (fun before call => Steady (run step d before) call) calls ↔ Meets step Answered d calls) := by
  have sane (before : List Call) (call : Call) (after : List Call) (split : calls = before++call::after) :
      Sane (run step d before) ∧ Admitted (run step d before) call := by
    rw [split,meets_append] at admitted
    have start : Sane d := ⟨ppcc,inside⟩
    have kept := @run_invariant _ _ step Admitted Sane (fun _ _ sane admitted => sane_step sane admitted)
    exact ⟨kept start admitted.1,admitted.2.1⟩
  refine ⟨?_,?_⟩
  · intro before call after split
    obtain ⟨kept,given⟩ := sane before call after split
    exact (sane_step kept given).inside
  · rw [meets_iff_stepwise]
    refine stepwise_congr ?_
    intro before call after split
    obtain ⟨kept,given⟩ := sane before call after split
    exact steady_iff kept given

-- A package with PPCC limits from 20 W down to 6 W, at 15 W.
def package : Dev Rapl :=
  ⟨20000000,6000000,15000000,0,0,-1000000,false,2,0,false,true,Pid.new,false,-1000000,-500000,
    ⟨15000000,true,0,28000000,1,0,9000000,false,true,20000000,6000000,28000000,500000,false,true,0,28000000,1⟩⟩

theorem package_ppcc : Ppcc package ∧ InRange package := ⟨⟨rfl,rfl,by decide⟩,by decide,by decide⟩

def pl1Max (argument : String) : AdaptiveTarget := ⟨1,"","",0,"PL1MAX",argument⟩

-- PL1MAX 18 W with a read that fails throttles a device at 15 W to 6 W.
theorem failed_read_throttles :
    Meets step Admitted package [.target (pl1Max "18000") none 1 1] ∧
    (step package (.target (pl1Max "18000") none 1 1)).currState = 6000000 ∧
    (step package (.target (pl1Max "18000") none 1 1)).minState = 18000000 ∧
    ¬Stepwise (fun before call => Steady (run step package before) call) [.target (pl1Max "18000") none 1 1] := by
  refine ⟨⟨⟨by decide,by decide,18000,by decide,by decide,by decide,.inl ⟨rfl,by decide⟩⟩,trivial⟩,by decide,by decide,?_⟩
  intro all
  obtain ⟨_,pl1,success,_⟩ := all [] _ [] rfl _ _ _ _ rfl (by decide) (by decide) (by decide)
  exact absurd success (by simp)

theorem reranging_answered :
    (∀ before call after,[.target (pl1Max "18000") (some 12000000) 1 1,.set 9000000 true (-5)] = before++call::after →
      InRange (step (run step package before) call)) ∧
    Stepwise (fun before call => Steady (run step package before) call)
      [.target (pl1Max "18000") (some 12000000) 1 1,.set 9000000 true (-5)] := by
  have admitted : Meets step Admitted package [.target (pl1Max "18000") (some 12000000) 1 1,.set 9000000 true (-5)] :=
    ⟨⟨by decide,by decide,18000,by decide,by decide,by decide,.inl ⟨rfl,by decide⟩⟩,by unfold Admitted; decide,trivial⟩
  obtain ⟨ranges,steady⟩ := reranging_iff package_ppcc.1 package_ppcc.2 _ admitted
  exact ⟨ranges,steady.mpr ⟨fun _ _ failed => absurd failed (by simp),trivial,trivial⟩⟩

end ChuwiMinibook.RaplRange
