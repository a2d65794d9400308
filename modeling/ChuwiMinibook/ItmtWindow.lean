import ChuwiMinibook.AdaptiveEngine
import ChuwiMinibook.CdevActions
import ChuwiMinibook.PowerLimits
import ChuwiMinibook.RaplWrites

namespace ChuwiMinibook.ItmtWindow
open Cdev CdevActions CdevArbitration CdevBank RaplCdev ReleaseStack Machine StdString AdaptiveEngine
open PowerLimits (Accessible selected setCurrState_agrees)

-- The power that a limit of the table names on the device: MAX and MIN are the ends
-- of its range, and so is a limit that is not set.
def power (d : Dev Rapl) (unset : Int) (limit : String) : Int :=
  if limit.isEmpty then unset
  else if strncasecmp limit "MAX" 3 then d.minState
  else if strncasecmp limit "MIN" 3 then d.maxState
  else max d.maxState (min d.minState (streamInt limit*1000))

def lowest (d : Dev Rapl) (entry : ItmtEntry) : Int := power d d.maxState entry.pl1Min
def highest (d : Dev Rapl) (entry : ItmtEntry) : Int := power d d.minState entry.pl1Max

-- Between the smallest pl1_min and the largest pl1_max of the active trips.
def Within (d : Dev Rapl) (entries : Int × Int → ItmtEntry) (active : List (Int × Int)) (pl1 : Int) : Prop :=
  (∃ p ∈ active,lowest d (entries p) ≤ pl1) ∧ ∃ p ∈ active,pl1 ≤ highest d (entries p)

-- The limits that the list keeps for an entry of the table.
def low (d : Dev Rapl) (entry : ItmtEntry) : Int :=
  if limitState entry.pl1Max = tripPtInvalidTargetState ∨ limitState entry.pl1Max = 0 then d.minState
  else limitState entry.pl1Max

def high (d : Dev Rapl) (entry : ItmtEntry) : Int :=
  if limitState entry.pl1Min = tripPtInvalidTargetState ∨ limitState entry.pl1Min = 0 then d.maxState
  else limitState entry.pl1Min

-- An entry that the code reads as it is meant: pl1_max is not MIN and no zero, pl1_min
-- is not MAX, the numbers fit, and the window is not empty.
structure Regular (d : Dev Rapl) (entry : ItmtEntry) : Prop where
  top : entry.pl1Max.isEmpty = false → strncasecmp entry.pl1Max "MAX" 3 = false →
    strncasecmp entry.pl1Max "MIN" 3 = false ∧ streamInt entry.pl1Max ≠ 0 ∧ FitsInt (streamInt entry.pl1Max*1000)
  bottom : entry.pl1Min.isEmpty = false → strncasecmp entry.pl1Min "MAX" 3 = false ∧
    (strncasecmp entry.pl1Min "MIN" 3 = false → FitsInt (streamInt entry.pl1Min*1000))
  zero : streamInt entry.pl1Min = 0 → 0 ≤ d.maxState
  window : lowest d entry ≤ highest d entry

section Limits
variable {d : Dev Rapl} {entry : ItmtEntry}

theorem highest_within (range : d.maxState < d.minState) (entry : ItmtEntry) :
    d.maxState ≤ highest d entry ∧ highest d entry ≤ d.minState := by
  unfold highest power
  repeat' split
  all_goals omega

theorem lowest_within (range : d.maxState < d.minState) (entry : ItmtEntry) :
    d.maxState ≤ lowest d entry ∧ lowest d entry ≤ d.minState := by
  unfold lowest power
  repeat' split
  all_goals omega

theorem number_other (n : Int) : n*1000 ≠ tripPtInvalidTargetState := by
  unfold tripPtInvalidTargetState
  omega

-- The unthrottled end of a regular entry is at most its pl1_max.
theorem effectiveMin_low (range : d.maxState < d.minState) (regular : Regular d entry) :
    effectiveMin d (low d entry) ≤ highest d entry := by
  obtain ⟨below,own⟩ := effectiveMin_down range (low d entry)
  by_cases unset : entry.pl1Max.isEmpty = true
  · simpa [highest,power,unset] using below
  by_cases top : strncasecmp entry.pl1Max "MAX" 3 = true
  · simpa [highest,power,unset,top] using below
  obtain ⟨plain,nonzero,fits⟩ := regular.top (Bool.eq_false_iff.mpr unset) (Bool.eq_false_iff.mpr top)
  have state : limitState entry.pl1Max = streamInt entry.pl1Max*1000 := by
    simp [limitState,unset,top,plain,toInt_fits fits]
  have value : low d entry = streamInt entry.pl1Max*1000 := by
    unfold low
    rw [state,if_neg]
    have other := number_other (streamInt entry.pl1Max)
    omega
  have spec : highest d entry = max d.maxState (min d.minState (streamInt entry.pl1Max*1000)) := by
    simp [highest,power,unset,top,plain]
  rw [value] at own below ⊢
  have above := own (by omega)
  rw [spec]
  omega

-- The throttled end of a regular entry is its pl1_min, up to min_state.
theorem effectiveMax_high (range : d.maxState < d.minState) (regular : Regular d entry) :
    min (effectiveMax d (high d entry)) d.minState = lowest d entry := by
  have unlimited (value : high d entry = d.maxState) : min (effectiveMax d (high d entry)) d.minState = d.maxState := by
    rw [effectiveMax_down range,value]
    split <;> omega
  by_cases unset : entry.pl1Min.isEmpty = true
  · rw [unlimited (by simp [high,limitState,unset])]
    simp [lowest,power,unset]
  obtain ⟨bounded,plain⟩ := regular.bottom (Bool.eq_false_iff.mpr unset)
  by_cases bottom : strncasecmp entry.pl1Min "MIN" 3 = true
  · rw [unlimited (by simp [high,limitState,unset,bounded,bottom])]
    simp [lowest,power,unset,bounded,bottom]
  have fits := plain (Bool.eq_false_iff.mpr bottom)
  have state : limitState entry.pl1Min = streamInt entry.pl1Min*1000 := by
    simp [limitState,unset,bounded,bottom,toInt_fits fits]
  have spec : lowest d entry = max d.maxState (min d.minState (streamInt entry.pl1Min*1000)) := by
    simp [lowest,power,unset,bounded,bottom]
  have other := number_other (streamInt entry.pl1Min)
  have zero := regular.zero
  unfold high
  rw [state,spec,effectiveMax_down range]
  split <;> split <;> omega

end Limits

-- The requests of the trips of the table.
structure FromTable (entries : Int × Int → ItmtEntry) (q : Request) : Prop where
  soft : q.hardTarget = false
  shared : (q.pidParam.map (·.valid)).getD false = false
  unforced : q.force = false
  untargeted : q.targetStateValid = false
  limited : q.minMaxValid = true
  top : q.minState = limitState (entries q.pair).pl1Max
  bottom : q.maxState = limitState (entries q.pair).pl1Min

def Installed (entries : Int × Int → ItmtEntry) : Op → Prop
  | .set call => FromTable entries call.request
  | .setMin _ _ _ => True

-- install_itmt makes such trips.
theorem itmt_request (srt : StdSort) (typeOf : Nat → String) (z : Zone) (temp hyst : Nat) (sensor : Sensor) (k : Nat)
    {entries : Int × Int → ItmtEntry} {entry : ItmtEntry} {t : TripPoint}
    (installed : t = passiveTrip srt typeOf z temp hyst sensor k defaultSampleTimeSec false 0 true
      (limitState entry.pl1Max) (limitState entry.pl1Min)) (own : entries (t.zoneId,t.index) = entry)
    {b : TripPtCdev} (bound : b ∈ t.cdevs) (d : Dev Rapl) (readTemp : Nat) (state : Bool) :
    FromTable entries (TripPoint.request rapl t b d readTemp state) := by
  subst installed
  have shape : b = ⟨k,defaultInfluence,defaultSampleTimeSec,0,false,0,TripPoint.invalidPid,Pid.new,true,
      limitState entry.pl1Max,limitState entry.pl1Min⟩ := List.mem_singleton.mp ((srt.mem_sort _ _ _).mp bound)
  subst shape
  exact ⟨rfl,rfl,rfl,rfl,rfl,congrArg (fun e : ItmtEntry => limitState e.pl1Max) own.symm,
    congrArg (fun e : ItmtEntry => limitState e.pl1Min) own.symm⟩

-- What the control branches pass on when there is no target.
def aimed (d : Dev Rapl) (now : Int) (q : Request) (o : Order) : Int :=
  let b := beginAction rapl d now q
  if b.pidEnable then
    let (_,output) := (b.pidCtrl.setTargetTemp q.targetTemp).pidOutput now q.temperature 0
    clampPid b.minState b.maxState (toInt (output + b.minState))
  else if q.state then (raised rapl b o.minState o.maxState).2
  else (lowered rapl b 0 0).2

theorem written_same {d d' : Dev Rapl} (same : SameRange d d') (state : Int) : written d' state = written d state := by
  unfold written restored
  rw [same.low,same.high,same.ext]

theorem put_written {d d' : Dev Rapl} (same : SameRange d d') (accessible : Accessible d) (state : Int) (control : Bool) :
    (put d' (setCurrState d' state control)).ext.pl1 = written d state := by
  have ready : Accessible d' := by
    rw [Accessible,same.ext]
    exact accessible
  rw [← written_same same]
  exact (setCurrState_agrees ready state control).2.1

theorem actuate_written {d : Dev Rapl} (accessible : Accessible d) (now : Int) {q : Request} {o : Order} (pid : Pid)
    (free : o.targetStateValid = false) (soft : q.hardTarget = false)
    (shared : (q.pidParam.map (·.valid)).getD false = false) :
    (actuate rapl d now q o pid).1.ext.pl1 = written d (aimed d now q o) := by
  have begun := CdevActions.beginAction_range rapl d now q
  unfold actuate aimed
  dsimp only
  rw [if_neg (by simp [free]),if_neg (by simp [soft]),if_neg (by simp [shared])]
  split
  · exact put_written ⟨begun.low,begun.high,begun.ext⟩ accessible _ _
  split
  · rename_i on
    rw [controller_eq,on]
    exact put_written (begun.trans (controllerNext_range rapl _ true o.minState o.maxState)) accessible _ _
  · rename_i off
    rw [controller_eq,Bool.eq_false_iff.mpr off]
    exact put_written (begun.trans (controllerNext_range rapl _ false 0 0)) accessible _ _

-- The list holds the limits of the table.
def Listed (entries : Int × Int → ItmtEntry) (d : Dev Rapl) (limits : List ZoneTripLimit) : Prop :=
  ∀ l ∈ limits,l.targetStateValid = false ∧ l.minState = low d (entries l.pair) ∧ l.maxState = high d (entries l.pair)

-- A device in the middle of repeated activations started from the pl1_max of an
-- active trip.
structure Sound (entries : Int × Int → ItmtEntry) (c : Cdev Rapl) : Prop where
  range : c.dev.maxState < c.dev.minState
  listed : Listed entries c.dev c.zoneTripLimits
  climbing : c.dev.trendIncrease = true → c.dev.pidEnable = false ∧
    (c.dev.currPow ≠ 0 → ∃ p ∈ pairs c,c.dev.basePowState ≤ highest c.dev (entries p))

-- The active trips leave the whole range of the device.
structure Covered (entries : Int × Int → ItmtEntry) (d : Dev Rapl) (active : List (Int × Int)) : Prop where
  bottom : ∃ p ∈ active,lowest d (entries p) ≤ d.maxState
  top : ∃ p ∈ active,d.minState ≤ highest d (entries p)
  powerOn : d.ext.powerOnConstraint0Pwr = 0 ∨
    d.maxState ≤ d.ext.powerOnConstraint0Pwr ∧ d.ext.powerOnConstraint0Pwr ≤ d.minState

-- The state an activation starts from: that of the first one of a row, or the current
-- one.
def origin (d : Dev Rapl) (current : Int) : Int :=
  if d.trendIncrease = true ∧ d.currPow ≠ 0 then d.basePowState else current

def nextPow (d : Dev Rapl) : Nat := if d.currPow < defaultMaxExponent then d.currPow+1 else d.currPow

-- The steps lower the limit, and where nothing looks for an overflow there is none.
def Onward (d : Dev Rapl) (current : Int) : Prop :=
  d.incVal < 0 ∨ d.incVal = 0 ∧ d.incDecVal ≤ 0 ∧
    (d.trendIncrease = true → FitsInt (origin d current + int2Pow (nextPow d)*d.incDecVal))

-- The exponential controller, on regular trips.
structure Throttles (entries : Int × Int → ItmtEntry) (d : Dev Rapl) (active : List (Int × Int)) : Prop where
  exponential : d.pidEnable = false
  regular : ∀ p ∈ active,Regular d (entries p)
  onward : ∀ p ∈ active,Onward d (thdClampStateMin d (getCurrStateAgain d) (low d (entries p)))
  powerOn : d.ext.powerOnConstraint0Pwr = 0 ∨ d.ext.powerOnConstraint0Pwr = d.minState ∨
    d.incVal = 0 ∧ d.incDecVal < 0 ∧ ∀ p ∈ active,lowest d (entries p) < d.minState

theorem increase_below {d : Dev Rapl} {current : Int} (onward : Onward d current) :
    (increase d current).2 ≤ max (origin d current) d.maxState ∧
      (d.incVal = 0 → d.incDecVal < 0 → (increase d current).2 < origin d current) := by
  have power : 0 < int2Pow (nextPow d) := Int.pow_pos (by decide)
  by_cases trend : d.trendIncrease = true
  · have value : (increase d current).2 =
        if decide (d.incVal < 0 ∧ origin d current < toInt (origin d current +
              int2Pow (nextPow d)*(if d.incVal ≠ 0 then d.incVal else d.incDecVal))) ||
            decide (d.incVal > 0 ∧ origin d current > toInt (origin d current +
              int2Pow (nextPow d)*(if d.incVal ≠ 0 then d.incVal else d.incDecVal))) then d.maxState
          else toInt (origin d current + int2Pow (nextPow d)*(if d.incVal ≠ 0 then d.incVal else d.incDecVal)) := by
      unfold increase origin nextPow
      dsimp only
      rw [if_pos trend]
      by_cases first : d.currPow = 0
      · simp only [first,if_true,trend,ne_eq,not_true_eq_false,and_false,if_false,show (0 < defaultMaxExponent) from by decide]
      · by_cases short : d.currPow < defaultMaxExponent
        · simp only [first,if_false,short,if_true,trend,ne_eq,not_false_eq_true,and_self]
        · simp only [first,if_false,short,if_true,trend,ne_eq,not_false_eq_true,and_self]
    rw [value]
    rcases onward with negative | ⟨zero,negative,fits⟩
    · rw [if_pos (show d.incVal ≠ 0 by omega)]
      refine ⟨?_,fun zero => absurd zero (by omega)⟩
      split
      · omega
      · rename_i kept
        simp only [Bool.or_eq_true,decide_eq_true_eq,not_or] at kept
        omega
    · have step := Int.mul_nonpos_of_nonneg_of_nonpos (Int.le_of_lt power) negative
      rw [if_neg (show ¬d.incVal ≠ 0 by omega),toInt_fits (fits trend),if_neg (by simp [zero])]
      refine ⟨by omega,?_⟩
      intro _ strict
      have less := Int.mul_neg_of_pos_of_neg power strict
      omega
  · have value : (increase d current).2 = current + (if d.incVal ≠ 0 then d.incVal else d.incDecVal) := by
      unfold increase
      dsimp only
      rw [if_neg trend]
    have start : origin d current = current := if_neg (by simp [trend])
    rw [value,start]
    rcases onward with negative | ⟨zero,negative,_⟩
    · rw [if_pos (by omega)]
      omega
    · rw [if_neg (by omega)]
      omega

-- The fields of the exponential controller after an activation.
theorem raised_fields (d : Dev Rapl) (low high : Int) :
    (raised rapl d low high).1.pidEnable = d.pidEnable ∧
      ((raised rapl d low high).1.currPow ≠ 0 →
        (raised rapl d low high).1.basePowState = origin d (thdClampStateMin d (getCurrStateAgain d) low)) := by
  have same : (raised rapl d low high).1.pidEnable = (increase d (thdClampStateMin d (getCurrStateAgain d) low)).1.pidEnable ∧
      (raised rapl d low high).1.currPow = (increase d (thdClampStateMin d (getCurrStateAgain d) low)).1.currPow ∧
      (raised rapl d low high).1.basePowState =
        (increase d (thdClampStateMin d (getCurrStateAgain d) low)).1.basePowState := ⟨rfl,rfl,rfl⟩
  obtain ⟨one,two,three⟩ := same
  rw [one,two,three]
  unfold increase origin
  dsimp only
  by_cases trend : d.trendIncrease = true
  · rw [if_pos trend]
    by_cases first : d.currPow = 0
    · simp [first,defaultMaxExponent]
    · by_cases short : d.currPow < defaultMaxExponent <;> simp [first,short,trend]
  · rw [if_neg trend]
    exact ⟨rfl,fun later => absurd rfl later⟩

-- The window of a trip depends on the ends of the range only.
theorem highest_moved {d d' : Dev Rapl} (bottom : d'.minState = d.minState) (top : d'.maxState = d.maxState)
    (entry : ItmtEntry) : highest d' entry = highest d entry := by
  unfold highest power
  rw [bottom,top]

theorem lowest_moved {d d' : Dev Rapl} (bottom : d'.minState = d.minState) (top : d'.maxState = d.maxState)
    (entry : ItmtEntry) : lowest d' entry = lowest d entry := by
  unfold lowest power
  rw [bottom,top]

theorem ends_moved {d d' : Dev Rapl} (bottom : d'.minState = d.minState) (top : d'.maxState = d.maxState)
    (entry : ItmtEntry) : low d' entry = low d entry ∧ high d' entry = high d entry := by
  unfold low high
  rw [bottom,top]
  exact ⟨rfl,rfl⟩

-- A device range covered by the active trips takes every state.
theorem covered_within {entries : Int × Int → ItmtEntry} {d : Dev Rapl} {active : List (Int × Int)}
    (range : d.maxState < d.minState) (covered : Covered entries d active) (state : Int) : Within d entries active (written d state) := by
  obtain ⟨⟨a,inA,bottom⟩,⟨b,inB,top⟩,powerOn⟩ := covered
  have release : d.maxState ≤ restored d ∧ restored d ≤ d.minState := by
    unfold restored
    split <;> omega
  have inside : d.maxState ≤ written d state ∧ written d state ≤ d.minState := by
    unfold written
    dsimp only
    split <;> split <;> omega
  exact ⟨⟨a,inA,by omega⟩,b,inB,by omega⟩

-- What an activation passes on lies between the pl1_min of its trip and the pl1_max
-- of an active one.
theorem throttled_within {entries : Int × Int → ItmtEntry} {d : Dev Rapl} {active : List (Int × Int)}
    (range : d.maxState < d.minState) (throttles : Throttles entries d active) {p : Int × Int} (own : p ∈ active)
    (climbing : d.trendIncrease = true → d.currPow ≠ 0 → ∃ p ∈ active,d.basePowState ≤ highest d (entries p)) :
    Within d entries active (written d (raised rapl d (low d (entries p)) (high d (entries p))).2) := by
  have regular := throttles.regular p own
  have window := regular.window
  have bounds := highest_within range (entries p)
  have top := effectiveMin_low range regular
  have bottom := effectiveMax_high range regular
  obtain ⟨below,strict⟩ := increase_below (throttles.onward p own)
  obtain ⟨b,inB,start⟩ : ∃ b ∈ active,origin d (thdClampStateMin d (getCurrStateAgain d) (low d (entries p))) ≤
      highest d (entries b) := by
    unfold origin
    split
    · rename_i row
      exact climbing row.1 row.2
    · refine ⟨p,own,?_⟩
      rw [clampMin_down range]
      omega
  have highB := highest_within range (entries b)
  have value : (raised rapl d (low d (entries p)) (high d (entries p))).2 =
      max (increase d (thdClampStateMin d (getCurrStateAgain d) (low d (entries p)))).2
        (effectiveMax d (high d (entries p))) := by
    rw [raised_value,clampMax_down range]
    rfl
  rw [value]
  generalize (increase d (thdClampStateMin d (getCurrStateAgain d) (low d (entries p)))).2 = next at below strict ⊢
  generalize origin d (thdClampStateMin d (getCurrStateAgain d) (low d (entries p))) = start' at below strict start
  have floor := effectiveMax_below range (high d (entries p))
  have put : written d (max next (effectiveMax d (high d (entries p)))) =
      if d.minState ≤ max next (effectiveMax d (high d (entries p))) then restored d
      else max next (effectiveMax d (high d (entries p))) := by
    have kept : ¬ max next (effectiveMax d (high d (entries p))) < d.maxState := by omega
    unfold written
    simp only [kept,if_false,ge_iff_le]
  rw [put]
  by_cases full : d.minState ≤ max next (effectiveMax d (high d (entries p)))
  · have restored : restored d = d.minState := by
      rw [RaplWrites.restored_minState]
      rcases throttles.powerOn with unknown | same | ⟨zero,negative,lower⟩
      · exact .inl unknown
      · exact .inr same
      · have less := strict zero negative
        have ownLower := lower p own
        omega
    rw [if_pos full,restored]
    have lowP := lowest_within range (entries p)
    refine ⟨⟨p,own,lowP.2⟩,?_⟩
    by_cases reached : d.minState ≤ next
    · exact ⟨b,inB,by omega⟩
    · exact ⟨p,own,by omega⟩
  · rw [if_neg full]
    refine ⟨⟨p,own,by omega⟩,?_⟩
    by_cases above : effectiveMax d (high d (entries p)) < next
    · exact ⟨b,inB,by omega⟩
    · exact ⟨p,own,by omega⟩

variable (srt : StdSort)

theorem step_dev {c : Cdev Rapl} {call : Call} {o : Order} (decided : (arbitrate rapl srt c call.now call.request).2 = some o) :
    (step rapl srt c call).dev = (actuate rapl c.dev call.now call.request o call.pid).1 := by
  have whole : arbitrate rapl srt c call.now call.request = (_,some o) := Prod.ext rfl decided
  unfold step thdCdevSetState
  rw [whole]

theorem step_kept {c : Cdev Rapl} {call : Call} (ended : (arbitrate rapl srt c call.now call.request).2 = none) :
    (step rapl srt c call).dev = c.dev :=
  setState_ignored rapl srt call.pid (Prod.ext rfl ended)

theorem listed_enlist {entries : Int × Int → ItmtEntry} {c : Cdev Rapl} (listed : Listed entries c.dev c.zoneTripLimits)
    {q : Request} (table : FromTable entries q) : Listed entries c.dev (enlist srt c.dev c.zoneTripLimits q) := by
  intro l inside
  rcases enlist_mem srt inside with old | rfl
  · exact listed l old
  · refine ⟨table.untargeted,?_,?_⟩
    · unfold newLimit low
      dsimp only
      rw [if_pos table.limited,table.top]
      rfl
    · unfold newLimit high
      dsimp only
      rw [if_pos table.limited,table.bottom]
      rfl

-- The order of an activation is the entry of an active trip.
theorem order_on {entries : Int × Int → ItmtEntry} {c : Cdev Rapl} {call : Call} {o : Order} (on : call.request.state = true)
    (listed : Listed entries c.dev (enlist srt c.dev c.zoneTripLimits call.request))
    (decided : (arbitrate rapl srt c call.now call.request).2 = some o) :
    o.targetStateValid = false ∧ ∃ p ∈ pairs (step rapl srt c call),
      o.minState = low c.dev (entries p) ∧ o.maxState = high c.dev (entries p) := by
  have limits : (step rapl srt c call).zoneTripLimits = enlist srt c.dev c.zoneTripLimits call.request := by
    rw [step,setState_limits,arbitrate_activation rapl srt c _ on]
  have filled : (step rapl srt c call).zoneTripLimits ≠ [] := activation_listed rapl srt on
  rw [limits] at filled
  obtain ⟨front,last,shape⟩ := (enlist srt c.dev c.zoneTripLimits call.request).eq_nil_or_concat'.resolve_left filled
  have inside : last ∈ enlist srt c.dev c.zoneTripLimits call.request := by simp [shape]
  obtain ⟨free,top,bottom⟩ := listed last inside
  unfold arbitrate at decided
  rw [if_pos on,shape] at decided
  simp only [List.getLastD_concat] at decided
  have same : o = ZoneTripLimit.order last := by
    split at decided
    · cases decided
    · split at decided
      · cases decided
      · exact (Option.some.inj decided).symm
  subst same
  refine ⟨free,last.pair,?_,top,bottom⟩
  rw [pairs,limits]
  exact List.mem_map_of_mem inside

-- A deactivation acts for the last entry, or without any.
theorem order_off {entries : Int × Int → ItmtEntry} {c : Cdev Rapl} {now : Int} {q : Request} {o : Order} (off : q.state = false)
    (listed : Listed entries c.dev c.zoneTripLimits) (decided : (arbitrate rapl srt c now q).2 = some o) :
    release (pairs c) q.pair = (pairs c).dropLast ∧
      (o.targetStateValid = true → (pairs c).dropLast = [] ∧ (q.force = true ∨ q.targetStateValid = true)) := by
  unfold arbitrate at decided
  rw [if_neg (by simp [off])] at decided
  rcases c.zoneTripLimits.eq_nil_or_concat' with empty | ⟨front,last,shape⟩
  · have none : pairs c = [] := by simp [pairs,empty]
    rw [none]
    refine ⟨rfl,fun targeted => ⟨rfl,.inl ?_⟩⟩
    by_contra unforced
    simp only [empty,List.getLast?_nil] at decided
    split at decided
    · cases decided
    · obtain rfl := Option.some.inj decided
      exact absurd targeted (by simp)
  · have whole : pairs c = front.map (·.pair)++[last.pair] := by simp [pairs,shape]
    simp only [shape,List.getLast?_append,List.getLast?_singleton,Option.some_or,List.dropLast_concat] at decided
    by_cases own : last.pair = q.pair
    · rw [if_pos own] at decided
      rw [whole,release_snoc,if_pos own,List.dropLast_concat]
      refine ⟨rfl,?_⟩
      intro targeted
      rcases front.eq_nil_or_concat' with rfl | ⟨before,next,rfl⟩
      · refine ⟨rfl,?_⟩
        have free := (listed last (by simp [shape])).1
        simp only [List.getLast?_nil,free,Bool.false_eq_true,if_false] at decided
        split at decided
        · exact .inl (by assumption)
        · obtain rfl := Option.some.inj decided
          exact .inr targeted
      · have free := (listed next (by simp [shape])).1
        simp only [List.getLast?_append,List.getLast?_singleton,Option.some_or] at decided
        obtain rfl := Option.some.inj decided
        exact absurd targeted (by simp [ZoneTripLimit.order,free])
    · rw [if_neg own] at decided
      cases decided

theorem beginAction_row (d : Dev Rapl) (now : Int) (q : Request) :
    (beginAction rapl d now q).pidEnable = d.pidEnable ∧
      ((beginAction rapl d now q).trendIncrease = true → d.trendIncrease = true ∧
        (beginAction rapl d now q).currPow = d.currPow ∧ (beginAction rapl d now q).basePowState = d.basePowState) := by
  unfold beginAction
  dsimp only
  split
  · exact ⟨rfl,fun row => absurd row (by simp)⟩
  · exact ⟨rfl,fun row => ⟨row,rfl,rfl⟩⟩

-- On a deactivation no branch starts or continues a row of activations.
theorem actuate_trend {d : Dev Rapl} {now : Int} {q : Request} {o : Order} {pid : Pid} (soft : q.hardTarget = false)
    (shared : (q.pidParam.map (·.valid)).getD false = false) (off : q.state = false)
    (row : (actuate rapl d now q o pid).1.trendIncrease = true) :
    d.trendIncrease = true ∧ (o.targetStateValid = true ∨ d.pidEnable = true) := by
  obtain ⟨enabled,kept⟩ := beginAction_row d now q
  unfold actuate at row
  dsimp only at row
  split at row
  · rename_i targeted
    exact ⟨(kept row).1,.inl targeted⟩
  rw [if_neg (by simp [soft]),if_neg (by simp [shared])] at row
  split at row
  · rename_i on
    exact ⟨(kept row).1,.inr (enabled ▸ on)⟩
  rw [if_neg (by simp [off]),controller_eq,off] at row
  exact absurd row (by simp [controllerNext,lowered,put])

-- An activation from the exponential controller, in the fields that matter for a row.
theorem actuate_raised {d : Dev Rapl} (now : Int) {q : Request} {o : Order} (pid : Pid) (free : o.targetStateValid = false)
    (soft : q.hardTarget = false) (shared : (q.pidParam.map (·.valid)).getD false = false) (on : q.state = true)
    (exponential : d.pidEnable = false) :
    let b := beginAction rapl d now q
    (actuate rapl d now q o pid).1.pidEnable = false ∧
      ((actuate rapl d now q o pid).1.currPow ≠ 0 → (actuate rapl d now q o pid).1.basePowState =
        origin b (thdClampStateMin b (getCurrStateAgain b) o.minState)) := by
  obtain ⟨enabled,_⟩ := beginAction_row d now q
  have fields := raised_fields (beginAction rapl d now q) o.minState o.maxState
  unfold actuate
  dsimp only
  rw [if_neg (by simp [free]),if_neg (by simp [soft]),if_neg (by simp [shared]),if_neg (by simp [enabled,exponential]),
    if_pos on,controller_eq,on]
  exact ⟨fields.1.trans (enabled.trans exponential),fields.2⟩

theorem pairs_on {c : Cdev Rapl} {call : Call} (on : call.request.state = true) (p : Int × Int) :
    p ∈ pairs (step rapl srt c call) ↔ p ∈ call.request.pair::pairs c := by
  rw [(step_activation rapl srt c on).mem_iff]
  split
  · rename_i present
    constructor
    · exact List.mem_cons_of_mem _
    · intro inside
      rcases List.mem_cons.mp inside with rfl | old
      · exact present
      · exact old
  · rw [List.mem_append,List.mem_singleton,List.mem_cons,or_comm]

-- The row of activations in the device at hand when it acts.
theorem row_kept {entries : Int × Int → ItmtEntry} {c : Cdev Rapl} {call : Call} (sound : Sound entries c)
    (on : call.request.state = true) (trend : (beginAction rapl c.dev call.now call.request).trendIncrease = true)
    (later : (beginAction rapl c.dev call.now call.request).currPow ≠ 0) : ∃ p ∈ pairs (step rapl srt c call),
      (beginAction rapl c.dev call.now call.request).basePowState ≤ highest c.dev (entries p) := by
  obtain ⟨before,power,base⟩ := (beginAction_row c.dev call.now call.request).2 trend
  rw [power] at later
  obtain ⟨p,inside,below⟩ := (sound.climbing before).2 later
  exact ⟨p,(pairs_on srt on p).mpr (List.mem_cons_of_mem _ inside),base ▸ below⟩

def Heeded (entries : Int × Int → ItmtEntry) (c : Cdev Rapl) (call : Call) (active : List (Int × Int)) : Prop :=
  Covered entries c.dev active ∨ Throttles entries (beginAction rapl c.dev call.now call.request) active

theorem activation_within {entries : Int × Int → ItmtEntry} {c : Cdev Rapl} {call : Call} (sound : Sound entries c)
    (table : FromTable entries call.request) (on : call.request.state = true) {o : Order}
    (decided : (arbitrate rapl srt c call.now call.request).2 = some o)
    (heeded : Heeded entries c call (pairs (step rapl srt c call))) (accessible : Accessible c.dev) :
    Within c.dev entries (pairs (step rapl srt c call)) (step rapl srt c call).dev.ext.pl1 := by
  obtain ⟨free,p,own,top,bottom⟩ := order_on srt on (listed_enlist srt sound.listed table) decided
  rw [step_dev srt decided,actuate_written accessible call.now call.pid free table.soft table.shared]
  rcases heeded with covered | throttles
  · exact covered_within sound.range covered _
  · have begun := CdevActions.beginAction_range rapl c.dev call.now call.request
    have range : (beginAction rapl c.dev call.now call.request).maxState <
        (beginAction rapl c.dev call.now call.request).minState := by
      rw [begun.low,begun.high]
      exact sound.range
    have climbing (trend : (beginAction rapl c.dev call.now call.request).trendIncrease = true)
        (later : (beginAction rapl c.dev call.now call.request).currPow ≠ 0) : ∃ p ∈ pairs (step rapl srt c call),
        (beginAction rapl c.dev call.now call.request).basePowState ≤
          highest (beginAction rapl c.dev call.now call.request) (entries p) := by
      simpa only [highest_moved begun.low begun.high] using row_kept srt sound on trend later
    obtain ⟨⟨a,inA,above⟩,b,inB,below⟩ := throttled_within range throttles own climbing
    have passed : aimed c.dev call.now call.request o = (raised rapl (beginAction rapl c.dev call.now call.request)
        (low c.dev (entries p)) (high c.dev (entries p))).2 := by
      unfold aimed
      dsimp only
      rw [if_neg (by simp [throttles.exponential]),if_pos on,top,bottom]
    obtain ⟨lowSame,highSame⟩ := ends_moved begun.low begun.high (entries p)
    rw [lowSame,highSame,← passed,written_same begun] at above below
    rw [lowest_moved begun.low begun.high] at above
    rw [highest_moved begun.low begun.high] at below
    exact ⟨⟨a,inA,above⟩,b,inB,below⟩

theorem activation_climbing {entries : Int × Int → ItmtEntry} {c : Cdev Rapl} {call : Call} (sound : Sound entries c)
    (table : FromTable entries call.request) (on : call.request.state = true) {o : Order}
    (decided : (arbitrate rapl srt c call.now call.request).2 = some o)
    (heeded : Heeded entries c call (pairs (step rapl srt c call)))
    (trend : (step rapl srt c call).dev.trendIncrease = true) : (step rapl srt c call).dev.pidEnable = false ∧
      ((step rapl srt c call).dev.currPow ≠ 0 → ∃ p ∈ pairs (step rapl srt c call),
        (step rapl srt c call).dev.basePowState ≤ highest c.dev (entries p)) := by
  obtain ⟨free,p,own,top,_⟩ := order_on srt on (listed_enlist srt sound.listed table) decided
  obtain ⟨enabled,kept⟩ := beginAction_row c.dev call.now call.request
  have begun := CdevActions.beginAction_range rapl c.dev call.now call.request
  have range : (beginAction rapl c.dev call.now call.request).maxState <
      (beginAction rapl c.dev call.now call.request).minState := by
    rw [begun.low,begun.high]
    exact sound.range
  have exponential : c.dev.pidEnable = false := by
    by_contra on
    rw [step_dev srt decided] at trend
    unfold actuate at trend
    dsimp only at trend
    rw [if_neg (by simp [free]),if_neg (by simp [table.soft]),if_neg (by simp [table.shared]),if_pos (by simpa [enabled] using on)]
      at trend
    exact on (sound.climbing (kept trend).1).1
  obtain ⟨disabled,base⟩ := actuate_raised call.now call.pid free table.soft table.shared on exponential
  rw [step_dev srt decided]
  refine ⟨disabled,?_⟩
  intro later
  rw [base later,top]
  unfold origin
  split
  · rename_i row
    exact row_kept srt sound on row.1 row.2
  · have start := effectiveMin_down range (low c.dev (entries p))
    rw [clampMin_down range]
    rcases heeded with covered | throttles
    · obtain ⟨b,inB,full⟩ := covered.top
      have low := begun.low
      exact ⟨b,inB,by omega⟩
    · have limited := effectiveMin_low range (throttles.regular p own)
      rw [highest_moved begun.low begun.high,(ends_moved begun.low begun.high (entries p)).1] at limited
      exact ⟨p,own,by omega⟩

theorem limits_off (c : Cdev Rapl) (now : Int) {q : Request} (off : q.state = false) :
    (∀ l ∈ (arbitrate rapl srt c now q).1,l ∈ c.zoneTripLimits) ∧
      ((arbitrate rapl srt c now q).2 = none → (arbitrate rapl srt c now q).1 = c.zoneTripLimits) := by
  unfold arbitrate
  rw [if_neg (by simp [off])]
  rcases c.zoneTripLimits.eq_nil_or_concat' with empty | ⟨front,last,shape⟩
  · simp only [empty,List.getLast?_nil]
    split
    · exact ⟨fun l inside => inside,fun _ => rfl⟩
    · split <;> exact ⟨fun l inside => inside,fun _ => rfl⟩
  · simp only [shape,List.getLast?_append,List.getLast?_singleton,Option.some_or,List.dropLast_concat]
    by_cases own : last.pair = q.pair
    · rw [if_pos own]
      have kept : ∀ l ∈ front,l ∈ front++[last] := fun l inside => List.mem_append_left _ inside
      split
      · exact ⟨kept,fun ended => absurd ended (by simp)⟩
      · split
        · exact ⟨kept,fun ended => absurd ended (by simp)⟩
        · split <;> exact ⟨kept,fun ended => absurd ended (by simp)⟩
    · rw [if_neg own]
      exact ⟨fun l inside => inside,fun _ => rfl⟩

theorem ends_same (c : Cdev Rapl) (call : Call) : (step rapl srt c call).dev.minState = c.dev.minState ∧
    (step rapl srt c call).dev.maxState = c.dev.maxState := setState_range rapl srt c call.now call.request call.pid

theorem listed_moved {entries : Int × Int → ItmtEntry} {d d' : Dev Rapl} {limits : List ZoneTripLimit}
    (bottom : d'.minState = d.minState) (top : d'.maxState = d.maxState) (listed : Listed entries d limits) :
    Listed entries d' limits := by
  simpa only [Listed,low,high,bottom,top] using listed

-- A deactivation, whatever target it carries, keeps what is needed.
theorem sound_off {entries : Int × Int → ItmtEntry} {c : Cdev Rapl} (call : Call) (sound : Sound entries c)
    (soft : call.request.hardTarget = false) (shared : (call.request.pidParam.map (·.valid)).getD false = false)
    (off : call.request.state = false)
    (target : call.request.force = false ∧ call.request.targetStateValid = false ∨ c.dev.trendIncrease = false) :
    Sound entries (step rapl srt c call) := by
  obtain ⟨bottom,top⟩ := ends_same srt c call
  obtain ⟨inside,same⟩ := limits_off srt c call.now off
  have limits : (step rapl srt c call).zoneTripLimits = (arbitrate rapl srt c call.now call.request).1 := setState_limits _ _ _ _ _ _
  refine ⟨by rw [bottom,top]; exact sound.range,listed_moved bottom top ?_,?_⟩
  · intro l member
    rw [limits] at member
    exact sound.listed l (inside l member)
  · intro trend
    cases decided : (arbitrate rapl srt c call.now call.request).2 with
    | none =>
      have kept := step_kept srt decided
      rw [kept] at trend ⊢
      rw [pairs,limits,same decided]
      exact sound.climbing trend
    | some o =>
      rw [step_dev srt decided] at trend
      obtain ⟨before,targeted | enabled⟩ := actuate_trend soft shared off trend
      · rcases target with ⟨unforced,free⟩ | calm
        · rcases ((order_off srt off sound.listed decided).2 targeted).2 with forced | valid
          · exact absurd forced (by simp [unforced])
          · exact absurd valid (by simp [free])
        · exact absurd before (by simp [calm])
      · exact absurd enabled (by simp [(sound.climbing before).1])

theorem sound_on {entries : Int × Int → ItmtEntry} {c : Cdev Rapl} {call : Call} (sound : Sound entries c)
    (table : FromTable entries call.request) (on : call.request.state = true)
    (heeds : (arbitrate rapl srt c call.now call.request).2.isSome = true →
      Heeded entries c call (pairs (step rapl srt c call))) : Sound entries (step rapl srt c call) := by
  obtain ⟨bottom,top⟩ := ends_same srt c call
  refine ⟨by rw [bottom,top]; exact sound.range,listed_moved bottom top ?_,?_⟩
  · have limits : (step rapl srt c call).zoneTripLimits = enlist srt c.dev c.zoneTripLimits call.request := by
      rw [step,setState_limits,arbitrate_activation rapl srt c _ on]
    rw [limits]
    exact listed_enlist srt sound.listed table
  · intro trend
    simp only [highest_moved bottom top]
    cases decided : (arbitrate rapl srt c call.now call.request).2 with
    | none =>
      have kept := step_kept srt decided
      rw [kept] at trend ⊢
      obtain ⟨exponential,row⟩ := sound.climbing trend
      refine ⟨exponential,?_⟩
      intro later
      obtain ⟨p,inside,below⟩ := row later
      exact ⟨p,(pairs_on srt on p).mpr (List.mem_cons_of_mem _ inside),below⟩
    | some o => exact activation_climbing srt sound table on decided (heeds (by simp [decided])) trend

theorem deactivation_within {entries : Int × Int → ItmtEntry} {c : Cdev Rapl} (call : Call) (sound : Sound entries c)
    (soft : call.request.hardTarget = false) (shared : (call.request.pidParam.map (·.valid)).getD false = false)
    (off : call.request.state = false) {o : Order} (decided : (arbitrate rapl srt c call.now call.request).2 = some o)
    (active : pairs (step rapl srt c call) ≠ []) (heeds : (pairs c).dropLast = [] ∨ Covered entries c.dev (pairs c).dropLast)
    (accessible : Accessible c.dev) :
    Within c.dev entries (pairs (step rapl srt c call)) (step rapl srt c call).dev.ext.pl1 := by
  obtain ⟨last,targets⟩ := order_off srt off sound.listed decided
  rw [step_deactivation rapl srt c off,last] at active ⊢
  have free : o.targetStateValid = false := by
    by_contra targeted
    exact active (targets (by simpa using targeted)).1
  rw [step_dev srt decided,actuate_written accessible call.now call.pid free soft shared]
  exact covered_within sound.range (heeds.resolve_left active) _

def Acts (c : Cdev Rapl) (op : Op) : Prop := (selected srt c op).isSome = true

-- An operation that acts leaves the window to the exponential controller or covers
-- it; the hand-over to the trips that remain passes no limits on.
def Heeds (entries : Int × Int → ItmtEntry) (c : Cdev Rapl) (op : Op) : Prop :=
  Acts srt c op →
    match op with
    | .set call =>
      if call.request.state then Heeded entries c call (call.request.pair::pairs c)
      else (pairs c).dropLast = [] ∨ Covered entries c.dev (pairs c).dropLast
    | .setMin _ _ _ => (pairs c).dropLast = [] ∨ Covered entries c.dev (pairs c).dropLast

-- A limit written while a trip is active lies in the window of the active trips.
def Respects (entries : Int × Int → ItmtEntry) (c : Cdev Rapl) (op : Op) : Prop :=
  Acts srt c op → Accessible c.dev → pairs (apply rapl srt c op) ≠ [] →
    Within c.dev entries (pairs (apply rapl srt c op)) (apply rapl srt c op).dev.ext.pl1

theorem heeded_congr {entries : Int × Int → ItmtEntry} {c : Cdev Rapl} {call : Call} {active active' : List (Int × Int)}
    (same : ∀ p,p ∈ active' ↔ p ∈ active) (heeded : Heeded entries c call active) : Heeded entries c call active' := by
  rcases heeded with ⟨⟨a,inA,bottom⟩,⟨b,inB,top⟩,powerOn⟩ | ⟨exponential,regular,onward,powerOn⟩
  · exact .inl ⟨⟨a,(same a).mpr inA,bottom⟩,⟨b,(same b).mpr inB,top⟩,powerOn⟩
  · refine .inr ⟨exponential,fun p inside => regular p ((same p).mp inside),fun p inside => onward p ((same p).mp inside),?_⟩
    exact powerOn.imp_right (Or.imp_right fun known => ⟨known.1,known.2.1,fun p inside => known.2.2 p ((same p).mp inside)⟩)

theorem sound_calm {entries : Int × Int → ItmtEntry} {c : Cdev Rapl} (sound : Sound entries c) : Sound entries (calm c) :=
  ⟨sound.range,sound.listed,fun trend => absurd trend (by simp [calm])⟩

theorem operation_heeded {entries : Int × Int → ItmtEntry} {c : Cdev Rapl} (sound : Sound entries c) {op : Op}
    (installed : Installed entries op) (heeds : Heeds srt entries c op) :
    Sound entries (apply rapl srt c op) ∧ Respects srt entries c op := by
  cases op with
  | set call =>
    have table : FromTable entries call.request := installed
    cases state : call.request.state with
    | true =>
      have heeded (acts : (arbitrate rapl srt c call.now call.request).2.isSome = true) :
          Heeded entries c call (pairs (step rapl srt c call)) := by
        have given := heeds acts
        dsimp only at given
        rw [if_pos state] at given
        exact heeded_congr (pairs_on srt state) given
      refine ⟨sound_on srt sound table state heeded,?_⟩
      intro acts accessible _
      obtain ⟨o,decided⟩ := Option.isSome_iff_exists.mp acts
      exact activation_within srt sound table state decided (heeded acts) accessible
    | false =>
      refine ⟨sound_off srt _ sound table.soft table.shared state (.inl ⟨table.unforced,table.untargeted⟩),?_⟩
      intro acts accessible active
      obtain ⟨o,decided⟩ := Option.isSome_iff_exists.mp acts
      have given := heeds acts
      dsimp only at given
      rw [if_neg (by simp [state])] at given
      exact deactivation_within srt _ sound table.soft table.shared state decided active given accessible
  | setMin now zone trip =>
    have off : (minCall (calm c) now zone trip).request.state = false := rfl
    refine ⟨sound_off srt (minCall (calm c) now zone trip) (sound_calm sound) rfl rfl off (.inr rfl),?_⟩
    intro acts accessible active
    obtain ⟨o,decided⟩ := Option.isSome_iff_exists.mp acts
    have given : (pairs (calm c)).dropLast = [] ∨ Covered entries (calm c).dev (pairs (calm c)).dropLast :=
      (heeds acts).imp_right fun covered => ⟨covered.bottom,covered.top,covered.powerOn⟩
    exact deactivation_within srt (minCall (calm c) now zone trip) (sound_calm sound) rfl rfl off decided active
      given accessible

-- An operation, with the power that is measured at it.
def measured (c : Cdev Rapl) (x : Int × Op) : Cdev Rapl := apply rapl srt (metered x.1 c) x.2

theorem sound_metered {entries : Int × Int → ItmtEntry} {c : Cdev Rapl} (sound : Sound entries c) (power : Int) :
    Sound entries (metered power c) := ⟨sound.range,sound.listed,sound.climbing⟩

-- Two trips over a package from 17 W down to 8 W: one that throttles to 12 W, and one
-- that throttles as far as the device goes.
def charger : Int × Int → ItmtEntry := fun p =>
  if p = (1,0) then ⟨"CHRG",3182,"12000","MAX"⟩ else ⟨"CHRG",3282,"MIN","MAX"⟩

def minibook (pidEnable : Bool) : Cdev Rapl :=
  ⟨0,"rapl_controller_mmio","",⟨17000000,8000000,17000000,0,0,-1000000,false,2,0,false,pidEnable,
    Pid.new.setPidParam (-1000) (-100) (-10),false,-1000000,-500000,
    ⟨17000000,true,0,28000000,1,0,9000000,false,false,17000000,8000000,28000000,500000,false,false,0,28000000,1⟩⟩,[]⟩

def reading (now trip : Int) (target temp : Nat) (state : Bool) : Op :=
  .set ⟨now,⟨target,temp,false,state,1,trip,false,0,some TripPoint.invalidPid,false,true,
    limitState (charger (1,trip)).pl1Max,limitState (charger (1,trip)).pl1Min⟩,Pid.new⟩

theorem reading_installed (now trip : Int) (target temp : Nat) (state : Bool) :
    Installed charger (reading now trip target temp state) := ⟨rfl,rfl,rfl,rfl,rfl,rfl,rfl⟩

instance (d : Dev Rapl) (entries : Int × Int → ItmtEntry) (active : List (Int × Int)) (pl1 : Int) :
    Decidable (Within d entries active pl1) := inferInstanceAs (Decidable (_ ∧ _))

def heating : List (Int × Op) := [(9000000,reading 1000 0 45000 60000 true)]

def crossing : List (Int × Op) :=
  heating++[(9000000,reading 1010 1 55000 60000 true),(9000000,reading 1020 1 55000 60000 true),
    (9000000,reading 1030 1 55000 60000 true)]

def Ready (d : Dev Rapl) : Prop := d.pidEnable = false ∧ d.incVal = -1000000 ∧ d.minState = 17000000 ∧
  d.maxState = 8000000 ∧ d.ext.powerOnConstraint0Pwr = 0

instance (d : Dev Rapl) : Decidable (Ready d) := inferInstanceAs (Decidable (_ ∧ _))

theorem charger_regular {d : Dev Rapl} (ready : Ready d) (p : Int × Int) : Regular d (charger p) := by
  obtain ⟨_,_,bottom,top,_⟩ := ready
  unfold charger
  split
  · refine ⟨fun _ word => absurd word (by decide),fun _ => ⟨by decide,fun _ => by decide⟩,fun zero => absurd zero (by decide),?_⟩
    have low : lowest d ⟨"CHRG",3182,"12000","MAX"⟩ = max d.maxState (min d.minState 12000000) := rfl
    have high : highest d ⟨"CHRG",3182,"12000","MAX"⟩ = d.minState := rfl
    omega
  · refine ⟨fun _ word => absurd word (by decide),fun _ => ⟨by decide,fun word => absurd word (by decide)⟩,fun _ => by omega,?_⟩
    have low : lowest d ⟨"CHRG",3282,"MIN","MAX"⟩ = d.maxState := rfl
    have high : highest d ⟨"CHRG",3282,"MIN","MAX"⟩ = d.minState := rfl
    omega

theorem charger_heeds {c : Cdev Rapl} (ready : Ready c.dev) (now trip : Int) (target temp : Nat) :
    Heeds StdSort.insertion charger c (reading now trip target temp true) := by
  intro _
  have begun (q : Request) : Ready (beginAction rapl c.dev now q) := by
    unfold beginAction
    dsimp only
    split <;> exact ready
  obtain ⟨exponential,step,_,_,powerOn⟩ := begun _
  exact .inr ⟨exponential,fun p _ => charger_regular (begun _) p,fun p _ => .inl (lt_of_eq_of_lt step (by decide)),.inl powerOn⟩

-- The meter read at every call, one trip heating and released, then both.
def metering : Cdev Rapl :=
  {minibook false with dev := {(minibook false).dev with ext := {(minibook false).dev.ext with dynamicPhyMaxEnable := true}}}

def warming : List (Int × Op) := [(9000000,reading 1000 1 55000 60000 true),(12000000,reading 1010 1 55000 60000 true)]

def episode : List (Int × Op) := warming++[(6000000,reading 1020 1 55000 50000 false),
  (16000000,reading 1030 0 45000 60000 true),(15000000,reading 1040 1 55000 60000 true),
  (13000000,reading 1050 1 55000 60000 true)]

end ChuwiMinibook.ItmtWindow
